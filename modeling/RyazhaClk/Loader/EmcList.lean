/-
`MtcGenerateFreqTables`: the list of memory frequencies of an overclock, the stock rates followed by the steps of the
selected mode up to `marikoEmcMaxClock`, the maximum itself behind them, and everything cut to 31 entries.

- `stepLoop_eq`: the step loop returns after the first step over the maximum.
- `mtcGenerateFreqTables_spec`: for an overclock up to 3.5 GHz the generator returns, and its list is an ascending list
  closed by the maximum and cut to 31 entries.
- `EmcListSpec.getLast?_iff`: the maximum is the last entry unless more than 31 entries were generated, which only the
  66 MHz steps do, for a maximum over 3466 MHz.
-/
import RyazhaClk.Lib.Ascending
import RyazhaClk.Loader.CustomizeTable

namespace RyazhaClk.Loader

open Ascending

/-! ## The generator -/

def emcClkOSLimit : ℕ := 1600000

def emcListDefault : List ℕ := [204000, 1331200, 1600000]

def jedecFreqs : List ℕ := [1866000, 1996000, 2133000, 2400000, 2666000, 2933000, 3200000]

def stepFreqs133 : List ℕ :=
  [1733000, 1866000, 2000000, 2133000, 2266000, 2400000, 2533000, 2666000, 2800000, 2933000, 3066000, 3200000, 3333000,
    3466000]

/-- `newEmcList.resize(std::min(newEmcList.size(), DvfsTableEntryLimit))` -/
def resizeToLimit (list : List ℕ) : List ℕ :=
  list.take (min list.length dvfsTableEntryLimit)

/-- the frequencies of a fixed list up to the maximum -/
def mtcGenerateFromList (freqs : List ℕ) (marikoEmcMaxClock : ℕ) (newEmcList : List ℕ) : List ℕ :=
  resizeToLimit (closeAt marikoEmcMaxClock (newEmcList ++ freqs.takeWhile (· ≤ marikoEmcMaxClock)))

def mtcGenerateJedecTable : ℕ → List ℕ → List ℕ := mtcGenerateFromList jedecFreqs

def mtcGenerate133StepTable : ℕ → List ℕ → List ℕ := mtcGenerateFromList stepFreqs133

/-- `newFreq` of a step, in 32-bit arithmetic -/
def stepFreq (stepRate stepIndex : ℕ) : ℕ :=
  (emcClkOSLimit + stepIndex * stepRate) % 2 ^ 32 / 1000 * 1000

/-- `none`: the 32-bit step index comes round without a frequency over the maximum, so the loop never ends -/
def stepLoop (stepRate marikoEmcMaxClock : ℕ) : ℕ → ℕ → List ℕ → Option (List ℕ)
  | 0, _, _ => none
  | fuel + 1, stepIndex, newEmcList =>
    if stepFreq stepRate stepIndex > marikoEmcMaxClock then some (closeAt marikoEmcMaxClock newEmcList)
    else stepLoop stepRate marikoEmcMaxClock fuel ((stepIndex + 1) % 2 ^ 32) (newEmcList ++ [stepFreq stepRate stepIndex])

variable (C : CustomizeTable)

/-- `stepRate` of the two stepping modes; any other mode steps like the first -/
def stepRateOf (stepMode : ℕ) : ℕ := if stepMode = StepMode_100MHz then 100000 else 66667

/-- `newEmcList` starts out empty and stays empty without a memory overclock -/
def mtcGenerateFreqTables : Option (List ℕ) :=
  if C.marikoEmcMaxClock ≤ emcClkOSLimit then some []
  else if C.stepMode = StepMode_Jedec then some (mtcGenerateJedecTable C.marikoEmcMaxClock emcListDefault)
  else if C.stepMode = StepMode_133MHz then some (mtcGenerate133StepTable C.marikoEmcMaxClock emcListDefault)
  else (stepLoop (stepRateOf C.stepMode) C.marikoEmcMaxClock (2 ^ 32) 1 emcListDefault).map resizeToLimit

/-! ## The step loop -/

theorem resizeToLimit_eq (list : List ℕ) : resizeToLimit list = list.take dvfsTableEntryLimit := by
  rw [resizeToLimit]
  rcases le_total list.length dvfsTableEntryLimit with h | h
  · rw [min_eq_left h, List.take_length, List.take_of_length_le h]
  · rw [min_eq_right h]

/-- the steps numbered `i`, `i + 1`, …, `i + k - 1` -/
def steps (stepRate i k : ℕ) : List ℕ := (List.range' i k).map (stepFreq stepRate)

theorem stepLoop_eq {stepRate m k : ℕ} (fuel i : ℕ) (list : List ℕ) (hfuel : k < fuel) (hindex : i + k < 2 ^ 32)
    (hle : ∀ j, i ≤ j → j < i + k → stepFreq stepRate j ≤ m) (hover : m < stepFreq stepRate (i + k)) :
    stepLoop stepRate m fuel i list = some (closeAt m (list ++ steps stepRate i k)) := by
  induction k generalizing fuel i list with
  | zero =>
    obtain ⟨fuel, rfl⟩ := Nat.exists_eq_succ_of_ne_zero (Nat.ne_of_gt hfuel)
    rw [stepLoop, if_pos (by simpa using hover)]
    simp [steps]
  | succ k ih =>
    obtain ⟨fuel, rfl⟩ := Nat.exists_eq_succ_of_ne_zero (Nat.ne_of_gt (Nat.zero_lt_of_lt hfuel))
    have hstep : ¬ stepFreq stepRate i > m := not_lt.2 (hle i le_rfl (by omega))
    have hnext : (i + 1) % 2 ^ 32 = i + 1 := Nat.mod_eq_of_lt (by omega)
    have hrest := ih fuel (i + 1) (list ++ [stepFreq stepRate i]) (by omega) (by omega)
      (fun j h1 h2 => hle j (by omega) (by omega)) (by rwa [show i + 1 + k = i + (k + 1) by omega])
    rw [stepLoop, if_neg hstep, hnext, hrest]
    simp [steps, List.range'_succ]

/-- steps of the two rates below 3.5 GHz: no overflow, and each is 66 MHz over the one before -/
theorem stepFreq_lt {stepRate i j : ℕ} (hrate : 1000 ≤ stepRate) (hj : emcClkOSLimit + j * stepRate < 2 ^ 32) (h : i < j) :
    stepFreq stepRate i < stepFreq stepRate j := by
  have hmul : i * stepRate + stepRate ≤ j * stepRate := by
    have hmono := Nat.mul_le_mul_right stepRate (Nat.succ_le_of_lt h)
    rwa [Nat.succ_mul] at hmono
  unfold stepFreq
  rw [Nat.mod_eq_of_lt hj, Nat.mod_eq_of_lt (by omega)]
  omega

theorem steps_pairwise {stepRate i k : ℕ} (hrate : 1000 ≤ stepRate)
    (hk : emcClkOSLimit + (i + k) * stepRate < 2 ^ 32) : (steps stepRate i k).Pairwise (· < ·) := by
  unfold steps
  rw [List.pairwise_map]
  apply (List.pairwise_lt_range' (s := i) (n := k)).imp_of_mem
  intro a b ha hb hab
  have hb' : b < i + k := (List.mem_range'_1.1 hb).2
  apply stepFreq_lt hrate _ hab
  have hmono := Nat.mul_le_mul_right stepRate hb'.le
  omega

/-- the number of steps up to `m`: the next one is over it -/
theorem exists_steps {stepRate m n : ℕ} (hn : m < stepFreq stepRate (1 + n)) :
    ∃ k ≤ n, (∀ j, 1 ≤ j → j < 1 + k → stepFreq stepRate j ≤ m) ∧ m < stepFreq stepRate (1 + k) := by
  have hex : ∃ k, m < stepFreq stepRate (1 + k) := ⟨n, hn⟩
  refine ⟨Nat.find hex, Nat.find_min' hex hn, ?_, Nat.find_spec hex⟩
  intro j h1 hj
  have hmin := Nat.find_min hex (m := j - 1) (by omega)
  rw [not_lt, Nat.add_sub_cancel' h1] at hmin
  exact hmin

/-! ## The list -/

/-- the default rates and the frequencies generated behind them, before the maximum closes the list -/
structure Grown (m : ℕ) (grown : List ℕ) : Prop where
  default : emcListDefault <+: grown
  pairwise : grown.Pairwise (· < ·)
  le : ∀ f ∈ grown, f ≤ m

/-- the default rates in front of an ascending list of frequencies over the OS limit -/
theorem grown_append {m : ℕ} {freqs : List ℕ} (hm : emcClkOSLimit < m) (hfreqs : freqs.Pairwise (· < ·))
    (hover : ∀ f ∈ freqs, emcClkOSLimit < f) (hle : ∀ f ∈ freqs, f ≤ m) : Grown m (emcListDefault ++ freqs) := by
  have hdefault : ∀ d ∈ emcListDefault, d ≤ emcClkOSLimit := by decide
  refine ⟨List.prefix_append _ _, ?_, ?_⟩
  · rw [List.pairwise_append]
    refine ⟨by decide, hfreqs, ?_⟩
    intro d hd f hf
    exact lt_of_le_of_lt (hdefault d hd) (hover f hf)
  · intro f hf
    rcases List.mem_append.1 hf with hd | hf
    · exact (hdefault f hd).trans hm.le
    · exact hle f hf

theorem grown_takeWhile {m : ℕ} {freqs : List ℕ} (hm : emcClkOSLimit < m) (hfreqs : freqs.Pairwise (· < ·))
    (hover : ∀ f ∈ freqs, emcClkOSLimit < f) : Grown m (emcListDefault ++ freqs.takeWhile (· ≤ m)) := by
  have hsub := (List.takeWhile_prefix (l := freqs) (· ≤ m)).sublist
  apply grown_append hm (hfreqs.sublist hsub)
  · intro f hf
    exact hover f (hsub.subset hf)
  · intro f hf
    simpa using List.mem_takeWhile_imp hf

theorem grown_steps {m stepRate k : ℕ} (hm : emcClkOSLimit < m) (hrate : 1000 ≤ stepRate)
    (hk : emcClkOSLimit + (1 + k) * stepRate < 2 ^ 32) (hle : ∀ j, 1 ≤ j → j < 1 + k → stepFreq stepRate j ≤ m) :
    Grown m (emcListDefault ++ steps stepRate 1 k) := by
  have hmem : ∀ f ∈ steps stepRate 1 k, ∃ j, 1 ≤ j ∧ j < 1 + k ∧ stepFreq stepRate j = f := by
    intro f hf
    obtain ⟨j, hj, rfl⟩ := List.mem_map.1 hf
    exact ⟨j, (List.mem_range'_1.1 hj).1, (List.mem_range'_1.1 hj).2, rfl⟩
  apply grown_append hm (steps_pairwise hrate hk)
  · intro f hf
    obtain ⟨j, h1, hj, rfl⟩ := hmem f hf
    have hmono := Nat.mul_le_mul_right stepRate hj.le
    have hfirst := stepFreq_lt (i := 0) hrate (by omega : emcClkOSLimit + j * stepRate < 2 ^ 32) h1
    have hzero : stepFreq stepRate 0 = emcClkOSLimit := by
      rw [stepFreq, Nat.zero_mul]
      rfl
    rwa [hzero] at hfirst
  · intro f hf
    obtain ⟨j, h1, hj, rfl⟩ := hmem f hf
    exact hle j h1 hj

/-- the modes and maxima whose list ends within the limit -/
def EmcListFits : Prop :=
  C.stepMode = StepMode_100MHz ∨ C.stepMode = StepMode_Jedec ∨ C.stepMode = StepMode_133MHz ∨
    C.marikoEmcMaxClock ≤ 3466000

/-- what the generator returns for an overclock up to 3.5 GHz -/
def EmcListSpec (list : List ℕ) : Prop :=
  ∃ grown, Grown C.marikoEmcMaxClock grown ∧
    list = (closeAt C.marikoEmcMaxClock grown).take dvfsTableEntryLimit ∧
    ((closeAt C.marikoEmcMaxClock grown).length ≤ dvfsTableEntryLimit ↔ EmcListFits C)

theorem emcListSpec_fromList {freqs : List ℕ} (hm : emcClkOSLimit < C.marikoEmcMaxClock)
    (hfreqs : freqs.Pairwise (· < ·)) (hover : ∀ f ∈ freqs, emcClkOSLimit < f) (hlen : freqs.length ≤ 27)
    (hfits : EmcListFits C) : EmcListSpec C (mtcGenerateFromList freqs C.marikoEmcMaxClock emcListDefault) := by
  refine ⟨_, grown_takeWhile hm hfreqs hover, resizeToLimit_eq _, iff_of_true ?_ hfits⟩
  have hshort := (List.takeWhile_prefix (l := freqs) (· ≤ C.marikoEmcMaxClock)).length_le
  apply length_closeAt_le.trans
  rw [List.length_append]
  exact Nat.succ_le_succ (Nat.add_le_add_left (hshort.trans hlen) 3)

theorem emcListSpec_step100 (hm : emcClkOSLimit < C.marikoEmcMaxClock) (hmax : C.marikoEmcMaxClock ≤ 3500000)
    (hmode : C.stepMode = StepMode_100MHz) :
    ∃ list, (stepLoop 100000 C.marikoEmcMaxClock (2 ^ 32) 1 emcListDefault).map resizeToLimit = some list ∧
      EmcListSpec C list := by
  have h20 : stepFreq 100000 (1 + 19) = 3600000 := by decide
  have hfar : C.marikoEmcMaxClock < stepFreq 100000 (1 + 19) := by omega
  obtain ⟨k, hk, hle, hover⟩ := exists_steps hfar
  have hloop := stepLoop_eq (2 ^ 32) 1 emcListDefault (by omega) (by omega) hle hover
  refine ⟨_, by rw [hloop, Option.map_some, resizeToLimit_eq], _,
    grown_steps hm (by decide) (by unfold emcClkOSLimit; omega) hle, rfl, iff_of_true ?_ (Or.inl hmode)⟩
  apply length_closeAt_le.trans
  rw [List.length_append, steps, List.length_map, List.length_range']
  exact Nat.succ_le_succ ((Nat.add_le_add_left hk 3).trans (by decide))

/-- the 66 MHz steps fill the list: the 28th is its 31st entry -/
theorem emcListSpec_step66 (hm : emcClkOSLimit < C.marikoEmcMaxClock) (hmax : C.marikoEmcMaxClock ≤ 3500000)
    (h100 : C.stepMode ≠ StepMode_100MHz) (hjedec : C.stepMode ≠ StepMode_Jedec) (h133 : C.stepMode ≠ StepMode_133MHz) :
    ∃ list, (stepLoop 66667 C.marikoEmcMaxClock (2 ^ 32) 1 emcListDefault).map resizeToLimit = some list ∧
      EmcListSpec C list := by
  have h28 : stepFreq 66667 28 = 3466000 := by decide
  have h29 : stepFreq 66667 (1 + 28) = 3533000 := by decide
  have hfar : C.marikoEmcMaxClock < stepFreq 66667 (1 + 28) := by omega
  obtain ⟨k, hk, hle, hover⟩ := exists_steps hfar
  have hloop := stepLoop_eq (2 ^ 32) 1 emcListDefault (by omega) (by omega) hle hover
  have hgrown : Grown C.marikoEmcMaxClock (emcListDefault ++ steps 66667 1 k) :=
    grown_steps hm (by decide) (by unfold emcClkOSLimit; omega) hle
  refine ⟨_, by rw [hloop, Option.map_some, resizeToLimit_eq], _, hgrown, rfl, ?_⟩
  have hfits : EmcListFits C ↔ C.marikoEmcMaxClock ≤ 3466000 := by
    simp only [EmcListFits, h100, hjedec, h133, false_or]
  have hlen : (emcListDefault ++ steps 66667 1 k).length = 3 + k := by
    rw [List.length_append, steps, List.length_map, List.length_range']
    rfl
  rw [hfits]
  rcases Nat.lt_or_ge k 28 with hlt | hge
  · -- at most 27 steps, so the 28th is over the maximum
    have hclosed := length_closeAt_le (m := C.marikoEmcMaxClock) (l := emcListDefault ++ steps 66667 1 k)
    have hnext : C.marikoEmcMaxClock < 3466000 := by
      rcases Nat.lt_or_ge (1 + k) 28 with hk' | hk'
      · have hmono := @stepFreq_lt 66667 (1 + k) 28 (by decide) (by decide) hk'
        omega
      · rw [show 1 + k = 28 by omega, h28] at hover
        exact hover
    exact iff_of_true (hclosed.trans (by rw [hlen]; unfold dvfsTableEntryLimit dvfsTableEntryCount; omega)) hnext.le
  · -- 28 steps: only a maximum equal to the last one adds nothing
    have hk28 : k = 28 := Nat.le_antisymm hk hge
    subst hk28
    have hlast : (emcListDefault ++ steps 66667 1 28).getLast? = some 3466000 := by decide
    have hge28 : 3466000 ≤ C.marikoEmcMaxClock := by
      have h := hle 28 (by decide) (by decide)
      rwa [h28] at h
    unfold closeAt
    rw [hlast]
    by_cases heq : C.marikoEmcMaxClock = 3466000
    · rw [heq]
      decide
    · rw [if_pos (by simpa using fun h => heq h.symm)]
      rw [List.length_append, hlen, List.length_singleton]
      exact iff_of_false (by decide) (by omega)

theorem mtcGenerateFreqTables_spec (hm : emcClkOSLimit < C.marikoEmcMaxClock) (hmax : C.marikoEmcMaxClock ≤ 3500000) :
    ∃ list, mtcGenerateFreqTables C = some list ∧ EmcListSpec C list := by
  rw [mtcGenerateFreqTables, if_neg (not_le.2 hm)]
  by_cases hjedec : C.stepMode = StepMode_Jedec
  · rw [if_pos hjedec]
    exact ⟨_, rfl, emcListSpec_fromList C hm (by decide) (by decide) (by decide) (Or.inr (Or.inl hjedec))⟩
  · rw [if_neg hjedec]
    by_cases h133 : C.stepMode = StepMode_133MHz
    · rw [if_pos h133]
      exact ⟨_, rfl, emcListSpec_fromList C hm (by decide) (by decide) (by decide) (Or.inr (Or.inr (Or.inl h133)))⟩
    · rw [if_neg h133]
      by_cases h100 : C.stepMode = StepMode_100MHz
      · rw [stepRateOf, if_pos h100]
        exact emcListSpec_step100 C hm hmax h100
      · rw [stepRateOf, if_neg h100]
        exact emcListSpec_step66 C hm hmax h100 hjedec h133

/-! ## What the patches use of it -/

variable {C} {list : List ℕ}

theorem EmcListSpec.pairwise (h : EmcListSpec C list) : list.Pairwise (· < ·) := by
  obtain ⟨grown, hgrown, rfl, -⟩ := h
  exact (closeAt_pairwise hgrown.pairwise hgrown.le).sublist (List.take_sublist _ _)

theorem EmcListSpec.length_le (h : EmcListSpec C list) : list.length ≤ dvfsTableEntryLimit := by
  obtain ⟨grown, -, rfl, -⟩ := h
  exact List.length_take_le _ _

theorem EmcListSpec.default (h : EmcListSpec C list) : emcListDefault <+: list := by
  obtain ⟨grown, hgrown, rfl, -⟩ := h
  apply List.prefix_take_iff.2
  exact ⟨hgrown.default.trans prefix_closeAt, by decide⟩

/-- **the maximum is the last generated frequency exactly when the list fits** -/
theorem EmcListSpec.getLast?_iff (h : EmcListSpec C list) :
    list.getLast? = some C.marikoEmcMaxClock ↔ EmcListFits C := by
  obtain ⟨grown, hgrown, rfl, hfits⟩ := h
  rw [getLast?_take_closeAt_iff hgrown.pairwise hgrown.le, hfits]

end RyazhaClk.Loader
