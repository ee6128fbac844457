/-
The voltage floor over the memory frequency (`GetMinimumGpuVmin`): nothing up to 1600 MHz, then the rows of the bracket;
on Mariko a ramp from 1633 MHz leads to the first row.

Between 1600 and 1633 MHz no case of its own is made, so the first row answers there, with the voltage the ramp ends at.

- `rowVolt_mono`: the rows by themselves never answer less for a faster memory.
- `vminOk_iff`: the floor is monotone except from the gap below the ramp into the ramp.
- `floor_drops_at_ramp`: at 1632 MHz the floor is 590 mV, at 1633 MHz 535 mV.
-/
import Mathlib.Tactic
import RyazhaClk.Lib.Scan
import RyazhaClk.Sysmodule.Board

namespace RyazhaClk

open RyazhaClk.Scan

variable {bracket b f g : ℕ} {r : ℕ × ℕ} {rows : List (ℕ × ℕ)}

/-! ## The property -/

/-- a bracket behind the table stands for the first one -/
def bracketOf (bracket : ℕ) : ℕ := if 4 ≤ bracket then 0 else bracket

def ramRow (b : ℕ) : List ℕ := (marikoRamTable[b]?).getD []

/-- `ramTable[bracket][0]` -/
def bracketStart (b : ℕ) : ℕ := (ramRow b).head?.getD 0

def InRamp (b freqMhz : ℕ) : Prop := 1633 ≤ freqMhz ∧ freqMhz < bracketStart b

/-- the last voltage of the table -/
def lastVolt (soc : HocClkSocType) (bracket : ℕ) : ℕ :=
  match soc with
  | .mariko => (gpuVoltArray.getLast?).getD 0
  | .erista => (((eristaRamVolts[bracketOf bracket]?).getD []).getLast?).getD 0

/-- `rampVolt` with every operation in 32 bits -/
def rampVolt32 (freqMhz bracket bracketStart : UInt32) : UInt32 :=
  let rampStartVolt : UInt32 := if bracket = 0 then 535 else 525
  let rampSpan := 590 - rampStartVolt
  let raw := rampStartVolt + ((freqMhz - 1633) * rampSpan) / (bracketStart - 1633)
  let volt := ((raw + 2) / 5) * 5
  let volt := if volt < rampStartVolt then rampStartVolt else volt
  if 590 < volt then 590 else volt

/-- what is expected of the floor, for a memory at `f` and one at `g` -/
structure VminOk (soc : HocClkSocType) (bracket f g : ℕ) : Prop where
  monotone : getMinimumGpuVmin soc f bracket ≤ getMinimumGpuVmin soc g bracket
  zero : f ≤ 1600 → getMinimumGpuVmin soc f bracket = 0
  le_last : getMinimumGpuVmin soc f bracket ≤ lastVolt soc bracket
  /-- no operation of the ramp leaves the 32 bits -/
  exact : InRamp (bracketOf bracket) f →
    (rampVolt32 (.ofNat f) (.ofNat (bracketOf bracket)) (.ofNat (bracketStart (bracketOf bracket)))).toNat =
      rampVolt f (bracketOf bracket) (bracketStart (bracketOf bracket))

/-- where the ramp reaches 590 mV -/
def rampEnd : ℕ → ℕ
  | 1 => 2280
  | 2 => 2409
  | 3 => 2474
  | _ => 2115

/-- from the gap below the ramp into the ramp -/
def CrossesGap (soc : HocClkSocType) (bracket f g : ℕ) : Prop :=
  soc = .mariko ∧ 1600 < f ∧ f < 1633 ∧ 1633 ≤ g ∧ g < rampEnd bracket

/-! ## Rows -/

theorem rowVolt_eq_scan (r : ℕ × ℕ) (rows : List (ℕ × ℕ)) (f : ℕ) :
    rowVolt (r :: rows) f = (scan (fun x _ => decide (f ≤ x.1)) r rows).2 := by
  induction rows generalizing r with
  | nil =>
    by_cases h : f ≤ r.1
    · simp [rowVolt, h]
    · simp [rowVolt, h]
  | cons r' rows ih =>
    rw [scan_cons]
    by_cases h : f ≤ r.1
    · simp [rowVolt, h]
    · rw [if_neg (by simpa using h), ← ih r']
      simp [rowVolt, h]

theorem rowVolt_mem (hne : rows ≠ []) (f : ℕ) : ∃ r ∈ rows, rowVolt rows f = r.2 := by
  obtain ⟨r, rows, rfl⟩ := List.exists_cons_of_ne_nil hne
  exact ⟨_, scan_mem _ r rows, rowVolt_eq_scan r rows f⟩

/-- **rows in ascending order never answer less for a faster memory** -/
theorem rowVolt_mono (hrows : rows.Pairwise (·.2 ≤ ·.2)) (hne : rows ≠ []) (hfg : f ≤ g) :
    rowVolt rows f ≤ rowVolt rows g := by
  obtain ⟨r, rows, rfl⟩ := List.exists_cons_of_ne_nil hne
  rw [rowVolt_eq_scan, rowVolt_eq_scan]
  apply scan_le_scan hrows
  intro x _ hg
  exact decide_eq_true (hfg.trans (of_decide_eq_true hg))

theorem rowVolt_head (hf : f ≤ r.1) : rowVolt (r :: rows) f = r.2 := by
  simp [rowVolt, hf]

/-! ## The tables -/

theorem bracketOf_lt (bracket : ℕ) : bracketOf bracket < 4 := by
  unfold bracketOf
  split_ifs <;> omega

def marikoRows (b : ℕ) : List (ℕ × ℕ) := (ramRow b).zip gpuVoltArray

def eristaRows (b : ℕ) : List (ℕ × ℕ) := eristaRamFreqs.zip ((eristaRamVolts[b]?).getD [])

/-- the voltages of each bracket ascend from 590 mV at its start -/
theorem marikoRows_ok : ∀ b < 4, (marikoRows b).Pairwise (·.2 ≤ ·.2) ∧ (marikoRows b).head? = some (bracketStart b, 590) ∧
    ∀ r ∈ marikoRows b, 590 ≤ r.2 ∧ r.2 ≤ 800 := by
  decide

theorem eristaRows_ok : ∀ b < 4, (eristaRows b).Pairwise (·.2 ≤ ·.2) ∧ eristaRows b ≠ [] ∧
    ∀ r ∈ eristaRows b, r.2 ≤ (((eristaRamVolts[b]?).getD []).getLast?).getD 0 := by
  decide

theorem bracketStart_ok : ∀ b < 4, rampEnd b ≤ bracketStart b ∧ 1633 < bracketStart b ∧ bracketStart b ≤ 2500 := by
  decide

theorem vmin_of_le (soc : HocClkSocType) (bracket : ℕ) (hf : f ≤ 1600) : getMinimumGpuVmin soc f bracket = 0 := if_pos hf

theorem vmin_erista (bracket : ℕ) (hf : 1600 < f) :
    getMinimumGpuVmin .erista f bracket = rowVolt (eristaRows (bracketOf bracket)) f := if_neg (not_le.2 hf)

theorem vmin_mariko (bracket : ℕ) (hf : 1600 < f) : getMinimumGpuVmin .mariko f bracket =
    if 1633 ≤ f ∧ f < bracketStart (bracketOf bracket) then
      rampVolt f (bracketOf bracket) (bracketStart (bracketOf bracket))
    else rowVolt (marikoRows (bracketOf bracket)) f := if_neg (not_le.2 hf)

/-! ## The ramp -/

theorem rampVolt_le (f b start : ℕ) : rampVolt f b start ≤ 590 := min_le_right _ _

theorem rampVolt_mono (b start : ℕ) (hfg : f ≤ g) : rampVolt f b start ≤ rampVolt g b start := by
  unfold rampVolt
  dsimp only
  gcongr

theorem rampVolt_first (f start : ℕ) :
    rampVolt f 0 start = min (max ((535 + (f - 1633) * 55 / (start - 1633) + 2) / 5 * 5) 535) 590 := rfl

theorem rampVolt_other (hb : b ≠ 0) (f start : ℕ) :
    rampVolt f b start = min (max ((525 + (f - 1633) * 65 / (start - 1633) + 2) / 5 * 5) 525) 590 := by
  simp [rampVolt, hb]

theorem bracketStart_eq : bracketStart 0 = 2133 ∧ bracketStart 1 = 2300 ∧ bracketStart 2 = 2433 ∧
    bracketStart 3 = 2500 := by
  decide

theorem rampVolt_top_iff (hb : b < 4) (hg : InRamp b g) : 590 ≤ rampVolt g b (bracketStart b) ↔ rampEnd b ≤ g := by
  obtain ⟨hlow, hhigh⟩ := hg
  obtain ⟨h0, h1, h2, h3⟩ := bracketStart_eq
  have hcases : b = 0 ∨ b = 1 ∨ b = 2 ∨ b = 3 := by omega
  rcases hcases with rfl | rfl | rfl | rfl
  · rw [h0] at hhigh
    rw [rampVolt_first, h0, rampEnd]
    · omega
    all_goals simp
  · rw [h1] at hhigh
    rw [rampVolt_other (by decide), h1, rampEnd]
    omega
  · rw [h2] at hhigh
    rw [rampVolt_other (by decide), h2, rampEnd]
    omega
  · rw [h3] at hhigh
    rw [rampVolt_other (by decide), h3, rampEnd]
    omega

/-- the ramp from `start` mV on, in 32 bits and in ℕ -/
theorem ramp32_toNat (start freq first : UInt32) (hstart : start.toNat ≤ 590) (hlow : 1633 ≤ freq.toNat)
    (hhigh : freq.toNat < first.toNat) (hfirst : first.toNat ≤ 2500) :
    (((start + ((freq - 1633) * (590 - start)) / (first - 1633)) + 2) / 5 * 5).toNat =
      (start.toNat + (freq.toNat - 1633) * (590 - start.toNat) / (first.toNat - 1633) + 2) / 5 * 5 := by
  have hoffset : (freq - 1633).toNat = freq.toNat - 1633 := UInt32.toNat_sub_of_le _ _ hlow
  have hspan : (590 - start).toNat = 590 - start.toNat := UInt32.toNat_sub_of_le _ _ hstart
  have hwidth : (first - 1633).toNat = first.toNat - 1633 := UInt32.toNat_sub_of_le _ _ (hlow.trans hhigh.le)
  have hproduct : (freq.toNat - 1633) * (590 - start.toNat) ≤ 867 * 590 := Nat.mul_le_mul (by omega) (by omega)
  have hmul : ((freq - 1633) * (590 - start)).toNat = (freq.toNat - 1633) * (590 - start.toNat) := by
    rw [UInt32.toNat_mul, hoffset, hspan]
    exact Nat.mod_eq_of_lt (lt_of_le_of_lt hproduct (by decide))
  have hquotient : (freq.toNat - 1633) * (590 - start.toNat) / (first.toNat - 1633) ≤ 867 * 590 :=
    (Nat.div_le_self _ _).trans hproduct
  rw [UInt32.toNat_mul, UInt32.toNat_div, UInt32.toNat_add, UInt32.toNat_add, UInt32.toNat_div, hmul, hwidth]
  generalize (freq.toNat - 1633) * (590 - start.toNat) / (first.toNat - 1633) = q at hquotient ⊢
  have htwo : (2 : UInt32).toNat = 2 := rfl
  have hfive : (5 : UInt32).toNat = 5 := rfl
  have hraw : start.toNat + q < 2 ^ 32 := by omega
  have hrounded : start.toNat + q + 2 < 2 ^ 32 := by omega
  rw [htwo, hfive, Nat.mod_eq_of_lt hraw, Nat.mod_eq_of_lt hrounded]
  exact Nat.mod_eq_of_lt (by omega)

theorem clamp32_toNat (start volt : UInt32) (hstart : start.toNat ≤ 590) :
    (if 590 < (if volt < start then start else volt) then 590 else if volt < start then start else volt).toNat =
      min (max volt.toNat start.toNat) 590 := by
  have h590 : (590 : UInt32).toNat = 590 := rfl
  simp only [UInt32.lt_iff_toNat_lt, apply_ite UInt32.toNat, h590]
  split_ifs <;> omega

/-- no operation of the ramp leaves the 32 bits -/
theorem rampVolt32_eq (hb : b < 4) (hf : InRamp b f) :
    (rampVolt32 (.ofNat f) (.ofNat b) (.ofNat (bracketStart b))).toNat = rampVolt f b (bracketStart b) := by
  obtain ⟨hlow, hhigh⟩ := hf
  obtain ⟨-, -, hfirst⟩ := bracketStart_ok b hb
  have hsmall : ∀ n ≤ 2500, (UInt32.ofNat n).toNat = n := fun n hn =>
    UInt32.toNat_ofNat_of_lt (lt_of_le_of_lt hn (by decide))
  have hfreq := hsmall f (by omega)
  have hbracket := hsmall b (by omega)
  have hstart : (if UInt32.ofNat b = 0 then (535 : UInt32) else 525).toNat = if b = 0 then 535 else 525 := by
    by_cases hb0 : b = 0
    · rw [hb0]
      rfl
    · have hne : UInt32.ofNat b ≠ 0 := fun h => hb0 (hbracket.symm.trans (congrArg UInt32.toNat h))
      rw [if_neg hne, if_neg hb0]
      rfl
  have hle : (if UInt32.ofNat b = 0 then (535 : UInt32) else 525).toNat ≤ 590 := by
    rw [hstart]
    split_ifs <;> decide
  have hfirst' := hsmall _ hfirst
  refine (clamp32_toNat _ _ hle).trans ?_
  rw [ramp32_toNat _ _ _ hle (by omega) (by omega) (by omega), hstart, hfreq, hfirst']
  rfl

/-! ## The floor -/

theorem rampEnd_bracketOf (bracket : ℕ) : rampEnd (bracketOf bracket) = rampEnd bracket := by
  unfold bracketOf
  split_ifs with h
  · rw [rampEnd, rampEnd] <;> omega
  · rfl

theorem marikoRows_ne_nil (hb : b < 4) : marikoRows b ≠ [] := by
  obtain ⟨rows, hrows⟩ := List.head?_eq_some_iff.1 (marikoRows_ok b hb).2.1
  rw [hrows]
  exact List.cons_ne_nil _ _

/-- the rows of Mariko answer from 590 to 800 mV -/
theorem marikoRows_range (hb : b < 4) (f : ℕ) : 590 ≤ rowVolt (marikoRows b) f ∧ rowVolt (marikoRows b) f ≤ 800 := by
  obtain ⟨r, hr, hvolt⟩ := rowVolt_mem (marikoRows_ne_nil hb) f
  rw [hvolt]
  exact (marikoRows_ok b hb).2.2 r hr

/-- up to the start of the bracket its first row answers -/
theorem marikoRows_first (hb : b < 4) (hf : f ≤ bracketStart b) : rowVolt (marikoRows b) f = 590 := by
  obtain ⟨-, hhead, -⟩ := marikoRows_ok b hb
  obtain ⟨rows, hrows⟩ := List.head?_eq_some_iff.1 hhead
  rw [hrows, rowVolt_head hf]

theorem vmin_le_last (soc : HocClkSocType) (bracket f : ℕ) : getMinimumGpuVmin soc f bracket ≤ lastVolt soc bracket := by
  by_cases hf : f ≤ 1600
  · rw [vmin_of_le soc bracket hf]
    exact Nat.zero_le _
  · have hb := bracketOf_lt bracket
    cases soc with
    | mariko =>
      have hlast : lastVolt .mariko bracket = 800 := rfl
      rw [vmin_mariko bracket (not_le.1 hf), hlast]
      split_ifs
      · exact (rampVolt_le _ _ _).trans (by decide)
      · exact (marikoRows_range hb f).2
    | erista =>
      obtain ⟨-, hne, hlast⟩ := eristaRows_ok _ hb
      rw [vmin_erista bracket (not_le.1 hf)]
      obtain ⟨r, hr, hvolt⟩ := rowVolt_mem hne f
      rw [hvolt]
      exact hlast r hr

theorem vmin_erista_mono (bracket : ℕ) (hfg : f ≤ g) :
    getMinimumGpuVmin .erista f bracket ≤ getMinimumGpuVmin .erista g bracket := by
  by_cases hf : f ≤ 1600
  · rw [vmin_of_le _ bracket hf]
    exact Nat.zero_le _
  · obtain ⟨hrows, hne, -⟩ := eristaRows_ok _ (bracketOf_lt bracket)
    rw [vmin_erista bracket (not_le.1 hf), vmin_erista bracket ((not_le.1 hf).trans_le hfg)]
    exact rowVolt_mono hrows hne hfg

/-- below the gap, in the ramp and in the rows a faster memory never gets less -/
theorem vmin_mariko_mono_iff (bracket : ℕ) (hfg : f ≤ g) :
    getMinimumGpuVmin .mariko f bracket ≤ getMinimumGpuVmin .mariko g bracket ↔ ¬ CrossesGap .mariko bracket f g := by
  have hb := bracketOf_lt bracket
  obtain ⟨hend, hstart, -⟩ := bracketStart_ok _ hb
  rw [rampEnd_bracketOf] at hend
  by_cases hf : f ≤ 1600
  · rw [vmin_of_le _ bracket hf]
    exact iff_of_true (Nat.zero_le _) fun h => absurd hf (not_le.2 h.2.1)
  · rw [not_le] at hf
    rw [vmin_mariko bracket hf, vmin_mariko bracket (hf.trans_le hfg)]
    obtain ⟨hlow, hhigh⟩ := marikoRows_range hb g
    by_cases hgap : f < 1633
    · -- the first row, which stands for the end of the ramp
      rw [if_neg fun h => absurd hgap (not_lt.2 h.1), marikoRows_first hb (by omega)]
      split_ifs with hg
      · rw [rampVolt_top_iff hb hg, rampEnd_bracketOf]
        simp only [CrossesGap, true_and]
        omega
      · refine iff_of_true hlow fun h => hg ⟨h.2.2.2.1, ?_⟩
        exact h.2.2.2.2.trans_le hend
    · have hno : ¬ CrossesGap .mariko bracket f g := fun h => hgap h.2.2.1
      refine iff_of_true ?_ hno
      split_ifs with hf' hg hg
      · exact rampVolt_mono _ _ hfg
      · exact (rampVolt_le _ _ _).trans hlow
      · exact absurd ⟨not_lt.1 hgap, hfg.trans_lt hg.2⟩ hf'
      · exact rowVolt_mono (marikoRows_ok _ hb).1 (marikoRows_ne_nil hb) hfg

/-- **When the floor is what is expected of it.** -/
theorem vminOk_iff (soc : HocClkSocType) (bracket : ℕ) (hfg : f ≤ g) :
    VminOk soc bracket f g ↔ ¬ CrossesGap soc bracket f g := by
  have hmono : getMinimumGpuVmin soc f bracket ≤ getMinimumGpuVmin soc g bracket ↔ ¬ CrossesGap soc bracket f g := by
    cases soc with
    | mariko => exact vmin_mariko_mono_iff bracket hfg
    | erista => exact iff_of_true (vmin_erista_mono bracket hfg) fun h => HocClkSocType.noConfusion h.1
  rw [← hmono]
  exact ⟨fun h => h.monotone, fun h =>
    ⟨h, vmin_of_le soc bracket, vmin_le_last soc bracket f, rampVolt32_eq (bracketOf_lt bracket)⟩⟩

theorem vminOk_overclock : VminOk .mariko 2 1700 2133 :=
  (vminOk_iff .mariko 2 (by decide)).2 fun h => absurd h.2.2.1 (by decide)

/-- **The floor drops where the ramp starts.** -/
theorem floor_drops_at_ramp : getMinimumGpuVmin .mariko 1632 0 = 590 ∧ getMinimumGpuVmin .mariko 1633 0 = 535 ∧
    ¬ VminOk .mariko 0 1632 1633 :=
  ⟨by decide, by decide, fun h => absurd h.monotone (by decide)⟩

end RyazhaClk
