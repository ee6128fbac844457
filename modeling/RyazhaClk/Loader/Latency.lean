/-
The latencies of a memory rate on Mariko and the register byte they are encoded in (`HandleLatency`, `CalculateMrw2`). The
configuration has four thresholds for each of the two latencies, and a zero is a threshold that is not set.

- `handleLatency_chosen`: a latency is the one of the first threshold the rate does not exceed, of the last threshold if
  it exceeds them all, or automatic if none is set.
- `StepChosen.mono`: a higher rate never has a lower latency, in whatever order the thresholds are.
- `decodeMrw2_calculateMrw2`: the byte decodes to the latencies.
- `latencies_mrw2`: all of it, for every configuration and every rate above the OS limit.
-/
import RyazhaClk.Loader.Timings

namespace RyazhaClk.Loader

/-! ## The byte -/

def rlMapDBI : List ℕ := [6, 12, 16, 22, 28, 32, 36, 40]

def wlMapSetA : List ℕ := [4, 6, 8, 10, 12, 14, 16, 18]

/-- the index of a latency in its map, 0 if it is not there -/
def latencyIndex (map : List ℕ) (latency : ℕ) : ℕ := (map.findIdx? (· = latency)).getD 0

/-- `CalculateMrw2`; bit 6 selects write set A -/
def calculateMrw2 (RL WL : ℕ) : BitVec 8 :=
  (BitVec.ofNat 8 (latencyIndex rlMapDBI RL) &&& 7#8) ||| ((BitVec.ofNat 8 (latencyIndex wlMapSetA WL) &&& 7#8) <<< 3) |||
    ((0#8 &&& 1#8) <<< 6)

/-- the latencies a memory reads from the byte: the read map with DBI, and write set A if bit 6 is clear -/
def decodeMrw2 (mrw2 : BitVec 8) : Option (ℕ × ℕ) :=
  if mrw2.getLsbD 6 then none
  else do return (← rlMapDBI[(mrw2 &&& 7#8).toNat]?, ← wlMapSetA[((mrw2 >>> 3) &&& 7#8).toNat]?)

def readLatencies : List ℕ := [28, 32, 36, 40]

def writeLatencies : List ℕ := [12, 14, 16, 18]

theorem decodeMrw2_calculateMrw2 {RL WL : ℕ} (hRL : RL ∈ readLatencies) (hWL : WL ∈ writeLatencies) :
    decodeMrw2 (calculateMrw2 RL WL) = some (RL, WL) := by
  have hall : ∀ RL ∈ readLatencies, ∀ WL ∈ writeLatencies, decodeMrw2 (calculateMrw2 RL WL) = some (RL, WL) := by decide
  exact hall RL hRL WL hWL

/-! ## The step of a rate -/

variable {latencyArray : Vector ℕ 4} {freq freq' : ℕ}

/-- the index whose latency a rate gets -/
inductive StepChosen (latencyArray : Vector ℕ 4) (freq : ℕ) : ℕ → Prop where
  | first (i : ℕ) (hi : i < 4) (hset : latencyArray.toList.getD i 0 ≠ 0) (hreach : freq ≤ latencyArray.toList.getD i 0)
      (hbefore : ∀ j < i, latencyArray.toList.getD j 0 = 0 ∨ latencyArray.toList.getD j 0 < freq) :
      StepChosen latencyArray freq i
  | last (i : ℕ) (hi : i < 4) (hset : latencyArray.toList.getD i 0 ≠ 0)
      (hover : ∀ j < 4, latencyArray.toList.getD j 0 = 0 ∨ latencyArray.toList.getD j 0 < freq)
      (hbehind : ∀ j, i < j → j < 4 → latencyArray.toList.getD j 0 = 0) : StepChosen latencyArray freq i
  | auto (hunset : ∀ j < 4, latencyArray.toList.getD j 0 = 0) :
      StepChosen latencyArray freq (if freq ≤ 1866000 then 2 else 3)

theorem StepChosen.lt {i : ℕ} (h : StepChosen latencyArray freq i) : i < 4 := by
  cases h with
  | first _ hi => exact hi
  | last _ hi => exact hi
  | auto => split_ifs <;> decide

/-- **a higher rate has no lower step** -/
theorem StepChosen.mono {i j : ℕ} (hfreq : freq ≤ freq') (h : StepChosen latencyArray freq i)
    (h' : StepChosen latencyArray freq' j) : i ≤ j := by
  cases h with
  | first _ hi hset hreach hbefore =>
    cases h' with
    | first _ hj hset' hreach' hbefore' =>
      by_contra hlt
      rcases hbefore j (not_le.1 hlt) with h0 | hbelow
      · exact hset' h0
      · omega
    | last _ hj hset' hover hbehind =>
      by_contra hlt
      exact hset (hbehind i (not_le.1 hlt) hi)
    | auto hunset => exact absurd (hunset i hi) hset
  | last _ hi hset hover hbehind =>
    cases h' with
    | first _ hj hset' hreach' hbefore' =>
      rcases hover j hj with h0 | hbelow
      · exact absurd h0 hset'
      · omega
    | last _ hj hset' hover' hbehind' =>
      by_contra hlt
      exact hset (hbehind' i (not_le.1 hlt) hi)
    | auto hunset => exact absurd (hunset i hi) hset
  | auto hunset =>
    cases h' with
    | first _ hj hset' hreach' hbefore' => exact absurd (hunset j hj) hset'
    | last _ hj hset' hover' hbehind' => exact absurd (hunset j hj) hset'
    | auto => split_ifs <;> omega

theorem switchLatency_chosen {latency latencyStep m : ℕ} (hm : m < 4) (hset : latencyArray.toList.getD m 0 ≠ 0)
    (hbehind : ∀ i, m < i → i < 4 → latencyArray.toList.getD i 0 = 0) :
    ∃ i, StepChosen latencyArray freq i ∧
      switchLatency freq latency latencyArray m latencyStep = latency + i * latencyStep := by
  unfold switchLatency
  cases hfind : (List.range (m + 1)).find? fun i =>
      latencyArray.toList.getD i 0 ≠ 0 ∧ freq ≤ latencyArray.toList.getD i 0 with
  | some i =>
    obtain ⟨hi, him, hbefore⟩ := List.find?_range_eq_some.1 hfind
    rw [decide_eq_true_eq] at hi
    refine ⟨i, .first i (by have := List.mem_range.1 him; omega) hi.1 hi.2 ?_, rfl⟩
    intro j hj
    have hnot := hbefore j hj
    simp only [Bool.not_eq_true', decide_eq_false_iff_not, not_and, not_le] at hnot
    exact or_iff_not_imp_left.2 hnot
  | none =>
    refine ⟨m, .last m hm hset ?_ hbehind, rfl⟩
    intro j hj
    by_cases hjm : j ≤ m
    · have hnot := List.find?_eq_none.1 hfind j (List.mem_range.2 (by omega))
      simp only [decide_eq_true_eq, not_and, not_le] at hnot
      exact or_iff_not_imp_left.2 hnot
    · exact Or.inl (hbehind j (not_le.1 hjm) hj)

/-- the latency of a rate, by its step -/
theorem handleLatency_chosen {latency latencyStep : ℕ} (hfreq : emcClkOSLimit < freq) :
    ∃ i, StepChosen latencyArray freq i ∧
      handleLatency freq latency latencyArray latencyStep = latency + i * latencyStep := by
  unfold handleLatency getMaxLatencyIndex
  rcases foldl_last (fun i => latencyArray.toList.getD i 0 ≠ 0) 4 with ⟨hall, hfold⟩ | ⟨m, hm, hset, habove, hfold⟩
  · rw [hfold]
    refine ⟨_, .auto fun j hj => not_not.1 (hall j hj), ?_⟩
    unfold emcClkOSLimit at hfreq
    change autoLatency latency freq latencyStep = _
    unfold autoLatency
    split_ifs <;> omega
  · rw [hfold]
    exact switchLatency_chosen hm hset fun i hi h4 => not_not.1 (habove i hi h4)

/-! ## Both latencies -/

theorem RL_chosen (C : CustomizeTable) (hfreq : emcClkOSLimit < freq) :
    ∃ i, StepChosen C.readLatency freq i ∧ RL C freq = 28 + 4 * i := by
  obtain ⟨i, hi, hRL⟩ := handleLatency_chosen hfreq
  exact ⟨i, hi, hRL.trans (by rw [RL_1331, Nat.mul_comm])⟩

theorem WL_chosen (C : CustomizeTable) (hfreq : emcClkOSLimit < freq) :
    ∃ i, StepChosen C.writeLatency freq i ∧ WL C freq = 12 + 2 * i := by
  obtain ⟨i, hi, hWL⟩ := handleLatency_chosen hfreq
  exact ⟨i, hi, hWL.trans (by rw [WL_1331, Nat.mul_comm])⟩

theorem readLatencies_mem {i : ℕ} (hi : i < 4) : 28 + 4 * i ∈ readLatencies := by
  interval_cases i <;> decide

theorem writeLatencies_mem {i : ℕ} (hi : i < 4) : 12 + 2 * i ∈ writeLatencies := by
  interval_cases i <;> decide

/-- what the latency step makes of a rate -/
structure LatenciesChosen (C : CustomizeTable) (freq : ℕ) : Prop where
  read : ∃ i, StepChosen C.readLatency freq i ∧ RL C freq = 28 + 4 * i
  write : ∃ i, StepChosen C.writeLatency freq i ∧ WL C freq = 12 + 2 * i
  read_mem : RL C freq ∈ readLatencies
  write_mem : WL C freq ∈ writeLatencies
  mrw2 : decodeMrw2 (calculateMrw2 (RL C freq) (WL C freq)) = some (RL C freq, WL C freq)

theorem latenciesChosen (C : CustomizeTable) (hfreq : emcClkOSLimit < freq) : LatenciesChosen C freq := by
  obtain ⟨i, hi, hRL⟩ := RL_chosen C hfreq
  obtain ⟨j, hj, hWL⟩ := WL_chosen C hfreq
  have hread : RL C freq ∈ readLatencies := hRL ▸ readLatencies_mem hi.lt
  have hwrite : WL C freq ∈ writeLatencies := hWL ▸ writeLatencies_mem hj.lt
  exact ⟨⟨i, hi, hRL⟩, ⟨j, hj, hWL⟩, hread, hwrite, decodeMrw2_calculateMrw2 hread hwrite⟩

/-- **the latencies of every rate above the OS limit and their byte; a higher rate has no lower ones** -/
theorem latencies_mrw2 (C : CustomizeTable) (hfreq : emcClkOSLimit < freq) :
    LatenciesChosen C freq ∧ ∀ freq' ≥ freq, RL C freq ≤ RL C freq' ∧ WL C freq ≤ WL C freq' := by
  refine ⟨latenciesChosen C hfreq, ?_⟩
  intro freq' hle
  obtain ⟨i, hi, hRL⟩ := RL_chosen C hfreq
  obtain ⟨j, hj, hWL⟩ := WL_chosen C hfreq
  obtain ⟨i', hi', hRL'⟩ := RL_chosen C (hfreq.trans_le hle)
  obtain ⟨j', hj', hWL'⟩ := WL_chosen C (hfreq.trans_le hle)
  have hread := hi.mono hle hi'
  have hwrite := hj.mono hle hj'
  omega

/-- thresholds out of order and with a gap, and none at all -/
def gapCustomize : CustomizeTable := { sampleCustomize with readLatency := #v[0, 2400000, 0, 2133000] }

theorem gapCustomize_latencies : LatenciesChosen gapCustomize 2200000 ∧
    ∀ freq' ≥ 2200000, RL gapCustomize 2200000 ≤ RL gapCustomize freq' ∧ WL gapCustomize 2200000 ≤ WL gapCustomize freq' :=
  latencies_mrw2 gapCustomize (by decide)

end RyazhaClk.Loader
