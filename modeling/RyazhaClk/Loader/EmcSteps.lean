/-
What the generated list of memory frequencies holds: every step of the selected mode up to `marikoEmcMaxClock`.

- `mem_of_isStepFreq`: none of the generators loses a step to the cut at 31 entries, for no mode are there more than 28.
- `mtcGenerateFreqTables_complete`: for every overclock up to 3.5 GHz the generator returns an ascending list of at most
  31 frequencies up to the maximum, the stock rates first, with all the steps in it.
-/
import RyazhaClk.Loader.EmcList
import RyazhaClk.Loader.CvbTables

namespace RyazhaClk.Loader

open Ascending

/-! ## The steps of a mode -/

/-- the grid of a stepping mode, rounded down to 1 MHz (frequencies in kHz), or the mode's fixed list -/
def IsStepFreq (stepMode f : ℕ) : Prop :=
  if stepMode = StepMode_Jedec then f ∈ jedecFreqs
  else if stepMode = StepMode_133MHz then f ∈ stepFreqs133
  else ∃ k, f = (emcClkOSLimit + k * stepRateOf stepMode) / 1000 * 1000

/-- on the grid, 32 bits are enough for every step up to 3.5 GHz -/
theorem exists_stepFreq {stepRate k m : ℕ} (hm : m ≤ 3500000)
    (hle : (emcClkOSLimit + k * stepRate) / 1000 * 1000 ≤ m) :
    emcClkOSLimit + k * stepRate < 2 ^ 32 ∧
      stepFreq stepRate k = (emcClkOSLimit + k * stepRate) / 1000 * 1000 := by
  have hlt : emcClkOSLimit + k * stepRate < 2 ^ 32 := by omega
  exact ⟨hlt, by rw [stepFreq, Nat.mod_eq_of_lt hlt]⟩

/-- a step up to the maximum is one of the `n` the loop appends, when the next one is over the maximum -/
theorem mem_steps {stepRate k m n : ℕ} (hrate : 1000 ≤ stepRate) (hm : m ≤ 3500000)
    (hover : m < stepFreq stepRate (1 + n))
    (habove : emcClkOSLimit < (emcClkOSLimit + k * stepRate) / 1000 * 1000)
    (hle : (emcClkOSLimit + k * stepRate) / 1000 * 1000 ≤ m) :
    (emcClkOSLimit + k * stepRate) / 1000 * 1000 ∈ steps stepRate 1 n := by
  obtain ⟨hlt, hfreq⟩ := exists_stepFreq hm hle
  have hpos : 1 ≤ k := by
    rcases Nat.eq_zero_or_pos k with rfl | hk
    · simp [emcClkOSLimit] at habove
    · exact hk
  have hk : k < 1 + n := by
    by_contra hge
    rcases Nat.lt_or_eq_of_le (not_lt.1 hge) with hbefore | heq
    · have hmono := stepFreq_lt hrate hlt hbefore
      omega
    · rw [heq] at hover
      omega
  rw [← hfreq]
  exact List.mem_map.2 ⟨k, List.mem_range'_1.2 ⟨hpos, hk⟩, rfl⟩

variable {C : CustomizeTable}

/-! ## No step is cut off -/

theorem mem_fromList {freqs : List ℕ} {m f : ℕ} (hfreqs : freqs.Pairwise (· < ·)) (hlen : freqs.length ≤ 28)
    (hf : f ∈ freqs) (hle : f ≤ m) : f ∈ mtcGenerateFromList freqs m emcListDefault := by
  have hshort := (List.takeWhile_prefix (l := freqs) (· ≤ m)).length_le
  rw [mtcGenerateFromList, resizeToLimit_eq]
  apply mem_take_closeAt
  · exact List.mem_append_right _ (mem_takeWhile hfreqs hf hle)
  · rw [List.length_append]
    exact Nat.add_le_add_left (hshort.trans hlen) 3

/-- the loop appends at most 28 steps: the 29th of the smaller rate is over 3.5 GHz -/
theorem mem_stepLoop {stepRate m k : ℕ} {list : List ℕ} (hrate : 1000 ≤ stepRate) (hm : m ≤ 3500000)
    (hfar : m < stepFreq stepRate (1 + 28))
    (hloop : (stepLoop stepRate m (2 ^ 32) 1 emcListDefault).map resizeToLimit = some list)
    (habove : emcClkOSLimit < (emcClkOSLimit + k * stepRate) / 1000 * 1000)
    (hle : (emcClkOSLimit + k * stepRate) / 1000 * 1000 ≤ m) :
    (emcClkOSLimit + k * stepRate) / 1000 * 1000 ∈ list := by
  obtain ⟨n, hn, hsteps, hover⟩ := exists_steps hfar
  rw [stepLoop_eq (2 ^ 32) 1 emcListDefault (by omega) (by omega) hsteps hover, Option.map_some] at hloop
  rw [← Option.some.inj hloop, resizeToLimit_eq]
  apply mem_take_closeAt
  · exact List.mem_append_right _ (mem_steps hrate hm hover habove hle)
  · rw [List.length_append, steps, List.length_map, List.length_range']
    exact Nat.add_le_add_left hn 3

theorem mem_of_isStepFreq {list : List ℕ} {f : ℕ} (hm : emcClkOSLimit < C.marikoEmcMaxClock)
    (hmax : C.marikoEmcMaxClock ≤ 3500000) (hlist : mtcGenerateFreqTables C = some list)
    (hf : IsStepFreq C.stepMode f) (habove : emcClkOSLimit < f) (hle : f ≤ C.marikoEmcMaxClock) : f ∈ list := by
  rw [mtcGenerateFreqTables, if_neg (not_le.2 hm)] at hlist
  unfold IsStepFreq at hf
  by_cases hjedec : C.stepMode = StepMode_Jedec
  · rw [if_pos hjedec] at hlist hf
    rw [← Option.some.inj hlist]
    exact mem_fromList (by decide) (by decide) hf hle
  · rw [if_neg hjedec] at hlist hf
    by_cases h133 : C.stepMode = StepMode_133MHz
    · rw [if_pos h133] at hlist hf
      rw [← Option.some.inj hlist]
      exact mem_fromList (by decide) (by decide) hf hle
    · rw [if_neg h133] at hlist hf
      obtain ⟨k, rfl⟩ := hf
      have hrates : stepRateOf C.stepMode = 100000 ∨ stepRateOf C.stepMode = 66667 := by
        unfold stepRateOf
        by_cases h100 : C.stepMode = StepMode_100MHz <;> simp [h100]
      have hrate : 1000 ≤ stepRateOf C.stepMode := by
        rcases hrates with h | h <;> omega
      have hfar : C.marikoEmcMaxClock < stepFreq (stepRateOf C.stepMode) (1 + 28) := by
        have h100 : stepFreq 100000 (1 + 28) = 4500000 := by decide
        have h66 : stepFreq 66667 (1 + 28) = 3533000 := by decide
        rcases hrates with h | h
        · rw [h, h100]
          omega
        · rw [h, h66]
          omega
      exact mem_stepLoop hrate hmax hfar hlist habove hle

/-! ## The whole list -/

theorem EmcListSpec.le {list : List ℕ} (h : EmcListSpec C list) : ∀ f ∈ list, f ≤ C.marikoEmcMaxClock := by
  obtain ⟨grown, hgrown, rfl, -⟩ := h
  intro f hf
  exact le_of_mem_closeAt hgrown.le (List.mem_of_mem_take hf)

/-- **the generated list is ascending, at most 31 entries long, and has every step up to the maximum** -/
theorem mtcGenerateFreqTables_complete (C : CustomizeTable) (hm : 1600000 < C.marikoEmcMaxClock)
    (hmax : C.marikoEmcMaxClock ≤ 3500000) :
    ∃ list, mtcGenerateFreqTables C = some list ∧ list.Pairwise (· < ·) ∧ [204000, 1331200, 1600000] <+: list ∧
      list.length ≤ 31 ∧ (∀ f ∈ list, f ≤ C.marikoEmcMaxClock) ∧
      ∀ f, IsStepFreq C.stepMode f → 1600000 < f → f ≤ C.marikoEmcMaxClock → f ∈ list := by
  obtain ⟨list, hlist, hspec⟩ := mtcGenerateFreqTables_spec C hm hmax
  refine ⟨list, hlist, hspec.pairwise, hspec.default, hspec.length_le, hspec.le, ?_⟩
  intro f hf habove hle
  exact mem_of_isStepFreq hm hmax hlist hf habove hle

/-- the eighth 66 MHz step is the maximum itself -/
theorem mtcGenerateFreqTables_complete_2133 :
    ∃ list, mtcGenerateFreqTables sampleCustomize = some list ∧ list.Pairwise (· < ·) ∧
      [204000, 1331200, 1600000] <+: list ∧ list.length ≤ 31 ∧ (∀ f ∈ list, f ≤ 2133000) ∧
      ∀ f, IsStepFreq StepMode_66MHz f → 1600000 < f → f ≤ 2133000 → f ∈ list :=
  mtcGenerateFreqTables_complete sampleCustomize (by decide) (by decide)

end RyazhaClk.Loader
