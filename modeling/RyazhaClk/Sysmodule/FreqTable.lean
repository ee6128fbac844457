/-
Frequency tables (`gFreqTable`) and the functions that pick a frequency from one: `GetNearestHz` of the clock manager,
`SchedutilTargetHz` and `TableIndexForHz` of the governor, the cap `GetMaxAllowedHz`, and `RefreshFreqTableRow`, which
builds a table from the rates PCV reports. A table is never empty; `Ascending` is what PCV promises of its rates.

- `getNearestHz_mem`, `tableHz_mem`: both answer an entry of the table.
- `getNearestHz_le_iff`: when the rounded frequency respects the cap.
- `getNearestHz_getNearestHz`: rounding an already rounded frequency changes nothing.
- `getNearestHz_nearest`: the rounded frequency is the nearest entry, or the nearest one up to a cap that is an entry.
- `tableHz_le_iff`: when the governor's entry is at most a bound.
-/
import Mathlib.Tactic
import RyazhaClk.Lib.Nearest
import RyazhaClk.Lib.Scan
import RyazhaClk.Sysmodule.Config

namespace RyazhaClk

open RyazhaClk.Nearest RyazhaClk.Scan

/-! ## Tables -/

structure FreqTable where
  first : ℕ
  rest : List ℕ

namespace FreqTable

def list (t : FreqTable) : List ℕ := t.first :: t.rest

/-- `list[count - 1]` -/
def last (t : FreqTable) : ℕ := t.list.getLast (List.cons_ne_nil _ _)

def Ascending (t : FreqTable) : Prop := t.list.Pairwise (· ≤ ·)

instance (t : FreqTable) : Decidable t.Ascending := by unfold Ascending; infer_instance

end FreqTable

/-- `GetNearestHz`: stop below the midpoint to the next entry, or at the first entry that reaches the cap -/
def getNearestHz (t : FreqTable) (inHz maxHz : ℕ) : ℕ :=
  scan (fun f g => decide (0 < maxHz ∧ maxHz ≤ f) || decide (inHz ≤ (f + g) / 2)) t.first t.rest

/-- `TableIndexForHz` -/
def tableIndexForHz (t : FreqTable) (targetHz : ℕ) : ℕ :=
  (t.list.findIdx? fun e => decide (targetHz ≤ e)).getD (t.list.length - 1)

/-- `table.list[TableIndexForHz(table, targetHz)]` -/
def tableHz (t : FreqTable) (targetHz : ℕ) : ℕ := ceil targetHz t.first t.rest

/-- `STEP_UTIL` -/
def STEP_UTIL : ℕ := 900

def schedutilTargetHz (util tableMaxHz : ℕ) : ℕ := min (tableMaxHz * util / STEP_UTIL) tableMaxHz

/-- `IsAssignableHz` -/
def isAssignableHz : HocClkModule → ℕ → Bool
  | .cpu, hz => 500000000 ≤ hz
  | .mem, hz => 665600000 ≤ hz
  | _, _ => true

/-- the cap of a module in a profile; 0 stands for no cap -/
def getMaxAllowedHz (soc : HocClkSocType) (c : Config) (module : HocClkModule) (profile : HocClkProfile) : ℕ :=
  if c.getConfigValue .uncappedClocks ≠ 0 then 2 ^ 32 - 1
  else match module with
    | .gpu =>
      if profile.index < HocClkProfile.handheldCharging.index then
        match soc with
        | .erista => 460800000
        | .mariko =>
          match c.getConfigValue .marikoGpuUV with
          | 0 => 614400000
          | 1 => 691200000
          | 2 => 768000000
          | _ => 614400000
      else if profile.index ≤ HocClkProfile.handheldChargingUSB.index then
        match soc with
        | .erista => 768000000
        | .mariko =>
          match c.getConfigValue .marikoGpuUV with
          | 0 => 844800000
          | 1 => 921600000
          | 2 => 998400000
          | _ => 844800000
      else 0
    | .cpu =>
      if profile.index < HocClkProfile.handheldCharging.index ∧ soc = .erista then 1581000000 else 2 ^ 32 - 1
    | _ => 0

/-! ## Building a table -/

/-- `HOCCLK_FREQ_LIST_MAX` -/
def HOCCLK_FREQ_LIST_MAX : ℕ := 48

/-- `eristaGpuVoltMap`: the voltage key of each Erista GPU rate -/
def eristaGpuVoltMap : List (ℕ × HocClkConfigValue) :=
  [(76800000, .g_volt_e_76800), (115200000, .g_volt_e_115200), (153600000, .g_volt_e_153600),
   (192000000, .g_volt_e_192000), (230400000, .g_volt_e_230400), (268800000, .g_volt_e_268800),
   (307200000, .g_volt_e_307200), (345600000, .g_volt_e_345600), (384000000, .g_volt_e_384000),
   (422400000, .g_volt_e_422400), (460800000, .g_volt_e_460800), (499200000, .g_volt_e_499200),
   (537600000, .g_volt_e_537600), (576000000, .g_volt_e_576000), (614400000, .g_volt_e_614400),
   (652800000, .g_volt_e_652800), (691200000, .g_volt_e_691200), (729600000, .g_volt_e_729600),
   (768000000, .g_volt_e_768000), (806400000, .g_volt_e_806400), (844800000, .g_volt_e_844800),
   (883200000, .g_volt_e_883200), (921600000, .g_volt_e_921600), (960000000, .g_volt_e_960000),
   (998400000, .g_volt_e_998400), (1036800000, .g_volt_e_1036800), (1075200000, .g_volt_e_1075200)]

/-- an Erista GPU rate is left out while the value of its voltage key is 2000 -/
def eristaGpuSkipped (c : Config) (hz : ℕ) : Bool :=
  match eristaGpuVoltMap.find? (fun e => e.1 = hz) with
  | some e => c.getConfigValue e.2 = 2000
  | none => false

/-- the largest rate that sits one step above another one, else the largest rate -/
def marikoMiddleMax (freqs : List ℕ) : ℕ :=
  let kMax := freqs.foldl (fun k f => if (f + 38400000) % 2 ^ 32 ∈ freqs then (f + 38400000) % 2 ^ 32 else k) 0
  if kMax = 0 then freqs.foldl max 0 else kMax

/-- the stepping loop from 76.8 MHz to `kMax`; `none` when the fuel runs out first -/
def marikoStepLoop (c : Config) (freqs : List ℕ) (kMax : ℕ) : ℕ → ℕ → List ℕ → Option (List ℕ)
  | 0, _, _ => none
  | fuel + 1, f, hz =>
    if f ≤ kMax ∧ hz.length < HOCCLK_FREQ_LIST_MAX then
      let kept := if f % 76800000 ≠ 0 then c.getConfigValue .marikoMiddleFreqs ≠ 0 else f ∈ freqs
      marikoStepLoop c freqs kMax fuel ((f + 38400000) % 2 ^ 32) (if kept then hz ++ [f] else hz)
    else some hz

/-- `RefreshFreqTableRow` on the rates PCV reports -/
def refreshFreqTableRow (soc : HocClkSocType) (c : Config) (module : HocClkModule) (freqs : List ℕ) (fuel : ℕ) :
    Option (List ℕ) :=
  if module = .gpu ∧ soc = .mariko then do
    let kMax := marikoMiddleMax freqs
    let hz ← marikoStepLoop c freqs kMax fuel 76800000 []
    let above := freqs.filter fun f => kMax < f && isAssignableHz module f
    some (hz ++ above.take (HOCCLK_FREQ_LIST_MAX - hz.length))
  else
    some (freqs.filter fun f =>
      isAssignableHz module f && !(decide (module = .gpu ∧ soc = .erista) && eristaGpuSkipped c f))

/-! ## Lemmas -/

variable {t : FreqTable}

theorem getNearestHz_mem (t : FreqTable) (inHz maxHz : ℕ) : getNearestHz t inHz maxHz ∈ t.list :=
  scan_mem _ _ _

theorem tableHz_mem (t : FreqTable) (targetHz : ℕ) : tableHz t targetHz ∈ t.list := scan_mem _ _ _

/-- the first entry that reaches a frequency, else the last one -/
def FreqTable.nextEntry (t : FreqTable) (hz : ℕ) : ℕ := (t.list.find? fun e => decide (hz ≤ e)).getD t.last

theorem tableHz_eq_nextEntry (t : FreqTable) (hz : ℕ) : tableHz t hz = t.nextEntry hz := ceil_eq_find hz t.first t.rest

theorem getElem?_tableIndexForHz (t : FreqTable) (hz : ℕ) : t.list[tableIndexForHz t hz]? = some (tableHz t hz) := by
  rw [tableHz_eq_nextEntry, FreqTable.nextEntry, tableIndexForHz]
  cases hfind : t.list.findIdx? fun e => decide (hz ≤ e) with
  | none =>
    have hnone : (t.list.find? fun e => decide (hz ≤ e)) = none := by
      rw [List.find?_eq_none]
      simpa [List.findIdx?_eq_none_iff] using hfind
    rw [hnone, Option.getD_none, Option.getD_none]
    exact (List.getLast?_eq_getElem? ..).symm.trans (List.getLast?_eq_some_getLast _)
  | some i =>
    obtain ⟨hi, hstop, hbefore⟩ := List.findIdx?_eq_some_iff_getElem.1 hfind
    have hsome : (t.list.find? fun e => decide (hz ≤ e)) = some t.list[i] := by
      rw [List.find?_eq_some_iff_getElem]
      exact ⟨hstop, i, hi, rfl, fun j hj => by simpa using hbefore j hj⟩
    rw [hsome, Option.getD_some, Option.getD_some]
    exact List.getElem?_eq_getElem hi

/-- the rounded frequency exceeds the cap exactly when the target rounds up across the step over the cap -/
theorem getNearestHz_le_iff (ht : t.Ascending) {inHz maxHz : ℕ} (hmax : 0 < maxHz) (hfirst : t.first ≤ maxHz) :
    getNearestHz t inHz maxHz ≤ maxHz ↔
      ∀ l h, [l, h] <:+: t.list → l < maxHz → maxHz < h → inHz ≤ (l + h) / 2 := by
  rw [getNearestHz, scan_le_iff ?_ ht hfirst]
  · refine forall_congr' fun l => forall_congr' fun h => forall_congr' fun hlh => ?_
    simp only [Bool.or_eq_true, decide_eq_true_eq]
    constructor
    · intro hstop hl hh
      rcases hstop hl.le hh with hcap | hmid
      · exact absurd hl (not_lt.2 hcap.2)
      · exact hmid
    · intro hmid hl hh
      rcases hl.lt_or_eq with hl | rfl
      · exact Or.inr (hmid hl hh)
      · exact Or.inl ⟨hmax, le_refl _⟩
  · intro x y x' y' hx hy
    simp only [Bool.or_eq_true, decide_eq_true_eq]
    rintro (hcap | hmid)
    · exact Or.inl ⟨hcap.1, hcap.2.trans hx⟩
    · exact Or.inr (hmid.trans (by omega))

theorem tableHz_le_iff (ht : t.Ascending) {targetHz c : ℕ} :
    tableHz t targetHz ≤ c ↔ (∃ e ∈ t.list, targetHz ≤ e ∧ e ≤ c) ∨ t.last ≤ c := ceil_le_iff ht

theorem first_le_of_entry (ht : t.Ascending) {c : ℕ} (h : ∃ e ∈ t.list, e ≤ c) : t.first ≤ c := by
  obtain ⟨e, he, hec⟩ := h
  rcases List.mem_cons.1 he with rfl | he
  · exact hec
  · exact ((List.pairwise_cons.1 ht).1 e he).trans hec

/-! ## The governor's target -/

theorem schedutilTargetHz_mono {util util' : ℕ} (h : util ≤ util') (tableMaxHz : ℕ) :
    schedutilTargetHz util tableMaxHz ≤ schedutilTargetHz util' tableMaxHz := by
  unfold schedutilTargetHz
  gcongr

/-- from a load of `STEP_UTIL` on the target is the maximum -/
theorem schedutilTargetHz_full {util : ℕ} (h : STEP_UTIL ≤ util) (tableMaxHz : ℕ) :
    schedutilTargetHz util tableMaxHz = tableMaxHz := by
  unfold schedutilTargetHz
  apply min_eq_right
  rw [Nat.le_div_iff_mul_le (by decide)]
  exact Nat.mul_le_mul_left _ h

/-- a lower target rounds up to no higher an entry -/
theorem tableHz_mono (ht : t.Ascending) {hz hz' : ℕ} (h : hz ≤ hz') : tableHz t hz ≤ tableHz t hz' := by
  refine scan_le_scan (v := id) ht fun x _ hstop => ?_
  simp only [decide_eq_true_eq] at hstop ⊢
  exact h.trans hstop

theorem le_last_of_mem (ht : t.Ascending) {e : ℕ} (he : e ∈ t.list) : e ≤ t.last := le_last ht he

theorem tableHz_last (ht : t.Ascending) : tableHz t t.last = t.last := by
  apply le_antisymm (le_last_of_mem ht (tableHz_mem t _))
  rcases le_ceil_or_last t.last t.first t.rest with h | h
  · exact h
  · exact h.ge

/-! ## The nearest entry -/

/-- rounding as a scan by midpoints: no 64-bit sum of two entries is truncated before it is halved -/
theorem getNearestHz_eq_scan (t : FreqTable) (inHz maxHz : ℕ) : getNearestHz t inHz maxHz =
    scan (fun f g => decide (0 < maxHz ∧ maxHz ≤ f) || decide ((inHz : ℤ) + inHz ≤ (f : ℤ) + g)) t.first t.rest := by
  rw [getNearestHz]
  congr 1
  funext f g
  congr 2
  rw [eq_iff_iff]
  omega

theorem getNearestHz_upTo (ht : t.list.Pairwise (· < ·)) (inHz maxHz : ℕ) :
    IsNearest ((↑) : ℕ → ℤ) (upTo ((↑) : ℕ → ℤ) (fun f => decide (0 < maxHz ∧ maxHz ≤ f)) t.list) inHz
      (getNearestHz t inHz maxHz) := by
  rw [getNearestHz_eq_scan]
  exact scan_isNearest (ht.imp Int.ofNat_lt.2)

theorem getNearestHz_uncapped (ht : t.list.Pairwise (· < ·)) (inHz : ℕ) :
    IsNearest ((↑) : ℕ → ℤ) {e | e ∈ t.list} inHz (getNearestHz t inHz 0) := by
  have hall : upTo ((↑) : ℕ → ℤ) (fun f => decide (0 < 0 ∧ 0 ≤ f)) t.list = {e | e ∈ t.list} := by
    ext e
    simp [upTo]
  rw [← hall]
  exact getNearestHz_upTo ht inHz 0

/-- a cap that is an entry leaves the entries up to it -/
theorem getNearestHz_capped (ht : t.list.Pairwise (· < ·)) {maxHz : ℕ} (hmax : maxHz ∈ t.list) (hpos : 0 < maxHz)
    (inHz : ℕ) : IsNearest ((↑) : ℕ → ℤ) {e | e ∈ t.list ∧ e ≤ maxHz} inHz (getNearestHz t inHz maxHz) := by
  have hupTo : upTo ((↑) : ℕ → ℤ) (fun f => decide (0 < maxHz ∧ maxHz ≤ f)) t.list =
      {e | e ∈ t.list ∧ e ≤ maxHz} := by
    ext e
    simp only [upTo, Set.mem_ofPred_eq, Nat.cast_lt, hpos, true_and, decide_eq_false_iff_not, not_le]
    refine and_congr_right fun _ => ⟨fun hbelow => ?_, fun he f _ hfe => hfe.trans_le he⟩
    by_contra hlt
    exact absurd (hbelow maxHz hmax (not_le.1 hlt)) (lt_irrefl _)
  rw [← hupTo]
  exact getNearestHz_upTo ht inHz maxHz

/-- **rounding answers the nearest entry**, the lower one of two that are equally near -/
theorem getNearestHz_nearest (ht : t.list.Pairwise (· < ·)) :
    (∀ inHz : ℕ, IsNearest ((↑) : ℕ → ℤ) {e | e ∈ t.list} inHz (getNearestHz t inHz 0)) ∧
    (∀ e ∈ t.list, getNearestHz t e 0 = e) ∧
    Monotone (fun inHz => getNearestHz t inHz 0) ∧
    (∀ inHz, getNearestHz t (getNearestHz t inHz 0) 0 = getNearestHz t inHz 0) ∧
    ∀ maxHz ∈ t.list, 0 < maxHz → ∀ inHz : ℕ,
      IsNearest ((↑) : ℕ → ℤ) {e | e ∈ t.list ∧ e ≤ maxHz} inHz (getNearestHz t inHz maxHz) := by
  have hentry : ∀ e ∈ t.list, getNearestHz t e 0 = e := fun e he =>
    Int.ofNat.inj ((getNearestHz_uncapped ht e).value_of_mem he)
  have hmono : Monotone (fun inHz => getNearestHz t inHz 0) := fun x y hxy =>
    Int.ofNat_le.1 ((getNearestHz_uncapped ht x).value_mono (getNearestHz_uncapped ht y) (Int.ofNat_le.2 hxy))
  exact ⟨getNearestHz_uncapped ht, hentry, hmono, fun inHz => hentry _ (getNearestHz_mem t inHz 0),
    fun maxHz hmax hpos => getNearestHz_capped ht hmax hpos⟩

theorem getNearestHz_nearest_gpu : IsNearest ((↑) : ℕ → ℤ) {e | e ∈ [76800000, 153600000, 230400000] ∧ e ≤ 153600000}
    (115200000 : ℕ) (getNearestHz ⟨76800000, [153600000, 230400000]⟩ 115200000 153600000) :=
  (getNearestHz_nearest (t := ⟨76800000, [153600000, 230400000]⟩) (by decide)).2.2.2.2 153600000 (by decide) (by decide)
    115200000

end RyazhaClk
