/-
The maximum of the CPU rail against the CPU table. `CpuFreqVdd` takes it from `marikoCpuMaxClock` or from the last row
of `marikoCpuDvfsTable`, by the undervolt level, while `CpuFreqCvbTable` installs a table by `tableConf`.

- `capCpuClock_isGreatest`: the cap is the largest allowed maximum up to `marikoCpuMaxClock`.
- `railAgrees_iff`: when exactly the rail is the largest frequency of the table up to `marikoCpuMaxClock`.
- `rail_over_stock_table`: an undervolted CPU with the stock table gets a rail maximum the table does not have.
-/
import RyazhaClk.Loader.InstalledTables
import RyazhaClk.Loader.MarikoPatchers

namespace RyazhaClk.Loader

open Ascending Validated Mariko

variable {C : CustomizeTable}

/-! ## The two sources of the rail -/

/-- `allowedCpuMaxFrequencies[0]` -/
def smallestCpuMax : ℕ := 1963500

theorem capCpuClock_isGreatest (h : smallestCpuMax ≤ C.marikoCpuMaxClock) :
    IsGreatest {a | a ∈ allowedCpuMaxFrequencies ∧ a ≤ C.marikoCpuMaxClock} (capCpuClock C) := by
  have hpair : allowedCpuMaxFrequencies.Pairwise (· < ·) := by decide
  have hfirst : smallestCpuMax ∈ allowedCpuMaxFrequencies.takeWhile (· ≤ C.marikoCpuMaxClock) :=
    mem_takeWhile hpair (by decide) h
  rcases hlast : (allowedCpuMaxFrequencies.takeWhile (· ≤ C.marikoCpuMaxClock)).getLast? with _ | a
  · rw [List.getLast?_eq_none_iff.1 hlast] at hfirst
    exact absurd hfirst List.not_mem_nil
  · have hcap : capCpuClock C = a := by
      rw [capCpuClock, List.getLastD_eq_getLast?]
      exact congrArg (·.getD 1963500) hlast
    rw [hcap]
    exact isGreatest_takeWhile hpair hlast

theorem capCpuClock_eq_smallest (h : C.marikoCpuMaxClock < smallestCpuMax) : capCpuClock C = smallestCpuMax := by
  rw [capCpuClock, allowedCpuMaxFrequencies, List.takeWhile_cons_of_neg]
  · rfl
  · have hover : C.marikoCpuMaxClock < 1963500 := h
    simpa using hover

theorem capCpuClock_lt : capCpuClock C < 2 ^ 32 := by
  have hall : ∀ a ∈ allowedCpuMaxFrequencies, a < 2 ^ 32 := by decide
  rcases Nat.lt_or_ge C.marikoCpuMaxClock smallestCpuMax with h | h
  · rw [capCpuClock_eq_smallest h]
    decide
  · exact hall _ (capCpuClock_isGreatest h).1.1

/-- what `CpuFreqVdd` leaves in the rail entry -/
theorem cpuFreqVdd_rail {ptr : ℤ} {s s' : PcvState} (h : (cpuFreqVdd C ptr).exec s = (.ok (), s')) :
    (C.marikoCpuUVHigh ≠ 0 ∧ (s'.words ptr).toNat = capCpuClock C) ∨
      (C.marikoCpuUVHigh = 0 ∧ ∃ e, (dvfsEntries C.marikoCpuDvfsTable.toList).getLast? = some e ∧
        (s'.words ptr).toNat = e.freq % 2 ^ 32) := by
  unfold cpuFreqVdd at h
  obtain ⟨w, s1, -, h⟩ := exec_bind_ok h
  obtain ⟨_, s2, -, h⟩ := exec_bind_ok h
  obtain ⟨_, s3, -, h⟩ := exec_bind_ok h
  obtain ⟨_, s4, -, h⟩ := exec_bind_ok h
  obtain ⟨_, s5, -, h⟩ := exec_bind_ok h
  by_cases huv : C.marikoCpuUVHigh ≠ 0
  · rw [if_pos huv] at h
    obtain rfl := (Prod.mk.inj h).2
    refine Or.inl ⟨huv, ?_⟩
    simpa using capCpuClock_lt
  · rw [if_neg huv] at h
    obtain ⟨freq, s6, hfreq, h⟩ := exec_bind_ok h
    obtain rfl := (Prod.mk.inj h).2
    refine Or.inr ⟨not_not.1 huv, ?_⟩
    rcases hmax : dvfsMaxFreq C.marikoCpuDvfsTable.toList with a | maxFreq
    · rw [hmax] at hfreq
      cases hfreq
    · rw [hmax] at hfreq
      obtain rfl := Except.ok.inj (Prod.mk.inj hfreq).1
      obtain ⟨e, he, rfl⟩ := dvfsMaxFreq_eq_ok_iff.1 hmax
      refine ⟨e, he, ?_⟩
      simp

/-! ## The table the rail belongs to -/

/-- the frequencies `CpuFreqCvbTable` writes -/
def selectedFreqs (C : CustomizeTable) : List ℕ := (dvfsEntries (cpuCustomizeTable true C)).map CvbEntry.freq

/-- within the maximum, where the maximum is one of the allowed ones or more -/
def WithinMax (C : CustomizeTable) (f : ℕ) : Prop := smallestCpuMax ≤ C.marikoCpuMaxClock → f ≤ C.marikoCpuMaxClock

/-- the rail is the largest installed frequency within the maximum -/
def RailAgrees (C : CustomizeTable) (image' : List CvbEntry) (rail : ℕ) : Prop :=
  IsGreatest {f | f ∈ (installedRows (cpuCustomizeTable true C) image').map CvbEntry.freq ∧ WithinMax C f} rail

/-- a row of the selected table at `f`, and every faster row over the maximum -/
def LastWithinMax (C : CustomizeTable) (f : ℕ) : Prop :=
  f ∈ selectedFreqs C ∧ WithinMax C f ∧ ∀ g ∈ selectedFreqs C, f < g → ¬ WithinMax C g

/-- with an undervolt level one of the allowed maxima is the last row within the maximum, and no larger one is allowed;
a maximum below all of them counts as the smallest. Without, the last row of `marikoCpuDvfsTable` is that row -/
def RailCondition (C : CustomizeTable) : Prop :=
  if C.marikoCpuUVHigh ≠ 0 then
    if smallestCpuMax ≤ C.marikoCpuMaxClock then
      ∃ a ∈ allowedCpuMaxFrequencies, LastWithinMax C a ∧ ∀ b ∈ allowedCpuMaxFrequencies, a < b → C.marikoCpuMaxClock < b
    else LastWithinMax C smallestCpuMax
  else ∃ e, (dvfsEntries C.marikoCpuDvfsTable.toList).getLast? = some e ∧ LastWithinMax C (e.freq % 2 ^ 32)

theorem isGreatest_iff_lastWithinMax {f : ℕ} :
    IsGreatest {g | g ∈ selectedFreqs C ∧ WithinMax C g} f ↔ LastWithinMax C f := by
  constructor
  · rintro ⟨⟨hf, hmax⟩, hgreatest⟩
    exact ⟨hf, hmax, fun g hg hlt hgmax => absurd (hgreatest ⟨hg, hgmax⟩) (not_le.2 hlt)⟩
  · rintro ⟨hf, hmax, hfaster⟩
    refine ⟨⟨hf, hmax⟩, ?_⟩
    rintro g ⟨hg, hgmax⟩
    by_contra hlt
    exact hfaster g hg (not_le.1 hlt) hgmax

/-- the cap, without its search: an allowed maximum that fits, the next one does not -/
theorem capCpuClock_eq_iff (h : smallestCpuMax ≤ C.marikoCpuMaxClock) {a : ℕ} :
    capCpuClock C = a ↔ a ∈ allowedCpuMaxFrequencies ∧ a ≤ C.marikoCpuMaxClock ∧
      ∀ b ∈ allowedCpuMaxFrequencies, a < b → C.marikoCpuMaxClock < b := by
  obtain ⟨⟨hmem, hle⟩, hgreatest⟩ := capCpuClock_isGreatest h
  constructor
  · rintro rfl
    refine ⟨hmem, hle, ?_⟩
    intro b hb hlt
    by_contra hfits
    exact absurd (hgreatest ⟨hb, not_lt.1 hfits⟩) (not_le.2 hlt)
  · rintro ⟨ha, hamax, hnext⟩
    apply le_antisymm
    · by_contra hlt
      exact absurd hle (not_le.2 (hnext _ hmem (not_le.1 hlt)))
    · exact hgreatest ⟨ha, hamax⟩

/-- **the rail is the largest installed frequency within the maximum exactly when the configured maximum or the last row
of `marikoCpuDvfsTable` belongs to the selected table** -/
theorem railAgrees_iff {image image' : List CvbEntry} {ptr : ℤ} {s s' : PcvState}
    (hcpu : cpuFreqCvbTable true C image = .ok image') (hrail : (cpuFreqVdd C ptr).exec s = (.ok (), s')) :
    RailAgrees C image' (s'.words ptr).toNat ↔ RailCondition C := by
  have hagrees : RailAgrees C image' (s'.words ptr).toNat ↔ LastWithinMax C (s'.words ptr).toNat := by
    rw [RailAgrees, cpuFreqCvbTable_freqs hcpu]
    exact isGreatest_iff_lastWithinMax
  rw [hagrees, RailCondition]
  rcases cpuFreqVdd_rail hrail with ⟨huv, hvalue⟩ | ⟨huv, e, he, hvalue⟩
  · rw [if_pos huv, hvalue]
    by_cases hmax : smallestCpuMax ≤ C.marikoCpuMaxClock
    · rw [if_pos hmax]
      have hcap := (capCpuClock_eq_iff hmax).1 rfl
      constructor
      · intro hlast
        exact ⟨_, hcap.1, hlast, hcap.2.2⟩
      · rintro ⟨a, ha, hlast, hnext⟩
        rwa [(capCpuClock_eq_iff hmax).2 ⟨ha, hlast.2.1 hmax, hnext⟩]
    · rw [if_neg hmax, capCpuClock_eq_smallest (not_le.1 hmax)]
  · rw [if_neg (not_not.2 huv), hvalue]
    constructor
    · intro hlast
      exact ⟨e, he, hlast⟩
    · rintro ⟨e', he', hlast⟩
      obtain rfl := Option.some.inj (he.symm.trans he')
      exact hlast

/-! ## The stock table under a raised maximum -/

/-- the rail entry around word 6 -/
def railState : PcvState :=
  ⟨fun p => if p = 0 then 1 else if p = 16 then 250000 else if p = 17 then 5000 else if p = 18 then 1525000 else 1785000, []⟩

theorem fullCustomize_railAgrees :
    ∃ image' s', cpuFreqCvbTable true fullCustomize (stockImage Mariko.cpuCvbTableDefault) = .ok image' ∧
      (cpuFreqVdd fullCustomize 6).exec railState = (.ok (), s') ∧ RailAgrees fullCustomize image' (s'.words 6).toNat := by
  have hcpu : cpuFreqCvbTable true fullCustomize (stockImage Mariko.cpuCvbTableDefault) = .ok _ := rfl
  have hrail : (cpuFreqVdd fullCustomize 6).exec railState = (.ok (), _) := rfl
  have hfaster : ∀ g ∈ selectedFreqs fullCustomize, ¬ 1963500 < g := by decide
  refine ⟨_, _, hcpu, hrail, (railAgrees_iff hcpu hrail).2 ?_⟩
  rw [RailCondition, if_neg (by decide)]
  refine ⟨⟨1963500, ⟨1675751, -38635, 27, 0, 0, 0⟩, ⟨1120000, 0, 0, 0, 0, 0⟩⟩, by decide, by decide, fun _ => by decide, ?_⟩
  intro g hg hlt
  exact absurd hlt (hfaster g hg)

/-- an undervolt level, the stock table and a maximum of 2397 MHz -/
def undervoltCustomize : CustomizeTable :=
  { fullCustomize with
    marikoCpuUVHigh := 1
    marikoCpuMaxClock := 2397000 }

/-- the rail goes to 2397 MHz, the installed table ends at 1963.5 MHz -/
theorem rail_over_stock_table :
    ¬ ∀ (C : CustomizeTable) (image image' : List CvbEntry) (ptr : ℤ) (s s' : PcvState), safetyCheck C = .ok () →
      cpuFreqCvbTable true C image = .ok image' → (cpuFreqVdd C ptr).exec s = (.ok (), s') →
      RailAgrees C image' (s'.words ptr).toNat := by
  intro hclaim
  have h := hclaim undervoltCustomize (stockImage Mariko.cpuCvbTableDefault) _ 6 railState _ rfl rfl rfl
  exact absurd h.1.1 (by decide)

end RyazhaClk.Loader
