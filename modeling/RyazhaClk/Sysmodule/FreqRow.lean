/-
The rows of the frequency table (`RefreshFreqTableRow`). For the GPU of Mariko the row is rebuilt on a grid of 38.4 MHz
up to a top, and the listed rates above the top follow; every other row is the list without some of its rates.

- `gridTop_iff`: the top, from the list alone.
- `marikoStepLoop_eq`: the grid loop keeps the first 48 of the rates it is to keep, where it ends.
- `refreshRow_iff`: a row has every listed rate exactly when the list fits the grid.
- `middleRow_backed_iff`: every rate of a row with middle frequencies has a PCV rate to stand on exactly when the rates it
  is rounded to are listed.
-/
import RyazhaClk.Lib.Ascending
import RyazhaClk.Sysmodule.Board
import RyazhaClk.Sysmodule.FreqTable

namespace RyazhaClk

open Ascending

variable {freqs : List ℕ} {m : ℕ}

/-! ## The top of the grid -/

/-- `freqs[i] + kStep` -/
def stepUp (f : ℕ) : ℕ := (f + 38400000) % 2 ^ 32

/-- the top of the last pair of rates one step apart -/
def PairTop (freqs : List ℕ) (m : ℕ) : Prop :=
  m ∈ freqs ∧ m ≠ 0 ∧ ∃ f ∈ freqs, m = stepUp f ∧ ∀ g ∈ freqs, stepUp g ∈ freqs → g ≤ f

/-- the largest rate if there is no such pair -/
def GridTop (freqs : List ℕ) (m : ℕ) : Prop :=
  PairTop freqs m ∨ (∀ top, ¬ PairTop freqs top) ∧ IsGreatest {f | f ∈ freqs} m

theorem foldl_last_of {α β : Type} (p : α → Prop) [DecidablePred p] (g : α → β) (l : List α) (b : β) :
    l.foldl (fun k a => if p a then g a else k) b = ((l.filter p).getLast?.map g).getD b := by
  induction l using List.reverseRecOn with
  | nil => rfl
  | append_singleton l a ih =>
    rw [List.foldl_append, List.foldl_cons, List.foldl_nil, List.filter_append]
    by_cases ha : p a
    · simp [ha]
    · simp [ha, ih]

theorem foldl_max_isGreatest (hlist : freqs.Pairwise (· < ·)) (hne : freqs ≠ []) :
    IsGreatest {f | f ∈ freqs} (freqs.foldl max 0) := by
  rcases List.eq_nil_or_concat freqs with rfl | ⟨init, x, rfl⟩
  · exact absurd rfl hne
  · rw [List.concat_eq_append] at hlist ⊢
    have hall : ∀ y ∈ init, y ≤ x := fun y hy => ((List.pairwise_append.1 hlist).2.2 y hy x (by simp)).le
    have hfold : init.foldl max 0 ≤ x := by
      rw [← not_lt, lt_foldl_max]
      rintro (h0 | ⟨y, hy, hxy⟩)
      · exact absurd h0 (Nat.not_lt_zero x)
      · exact absurd (hall y hy) (not_le.2 hxy)
    rw [List.foldl_append, List.foldl_cons, List.foldl_nil, max_eq_right hfold]
    exact isGreatest_getLast? hlist (by simp)

theorem marikoMiddleMax_eq (freqs : List ℕ) : marikoMiddleMax freqs =
    if ((freqs.filter fun f => stepUp f ∈ freqs).getLast?.map stepUp).getD 0 = 0 then freqs.foldl max 0
    else ((freqs.filter fun f => stepUp f ∈ freqs).getLast?.map stepUp).getD 0 := by
  rw [← foldl_last_of (fun f => stepUp f ∈ freqs) stepUp freqs 0]
  rfl

theorem gridTop_iff_of_none (hlist : freqs.Pairwise (· < ·)) (hne : freqs ≠ []) (hno : ∀ top, ¬ PairTop freqs top) :
    GridTop freqs m ↔ freqs.foldl max 0 = m := by
  have hgreatest := foldl_max_isGreatest hlist hne
  rw [GridTop, or_iff_right (hno m), and_iff_right hno]
  exact ⟨hgreatest.unique, fun h => h ▸ hgreatest⟩

/-- the last of the lower rates of the pairs, as the filter finds it -/
theorem last_pair {f : ℕ} (hlist : freqs.Pairwise (· < ·))
    (hlast : (freqs.filter fun f => stepUp f ∈ freqs).getLast? = some f) :
    f ∈ freqs ∧ stepUp f ∈ freqs ∧ ∀ g ∈ freqs, stepUp g ∈ freqs → g ≤ f := by
  obtain ⟨hf, hupper⟩ := isGreatest_getLast? (hlist.sublist List.filter_sublist) hlast
  obtain ⟨hmem, hpair⟩ := List.mem_filter.1 hf
  refine ⟨hmem, by simpa using hpair, fun g hg hgpair => ?_⟩
  exact hupper (List.mem_filter.2 ⟨hg, by simpa using hgpair⟩)

/-- **the top, from the list alone** -/
theorem gridTop_iff (hlist : freqs.Pairwise (· < ·)) (hne : freqs ≠ []) : GridTop freqs m ↔ marikoMiddleMax freqs = m := by
  rw [marikoMiddleMax_eq]
  cases hlast : (freqs.filter fun f => stepUp f ∈ freqs).getLast? with
  | none =>
    apply gridTop_iff_of_none hlist hne
    rintro top ⟨htop, -, f, hf, hstep, -⟩
    rw [hstep] at htop
    rw [List.getLast?_eq_none_iff, List.filter_eq_nil_iff] at hlast
    exact hlast f hf (by simpa using htop)
  | some f =>
    obtain ⟨hmem, hpair, hupper⟩ := last_pair hlist hlast
    have htop : ∀ top, PairTop freqs top → top = stepUp f := by
      rintro top ⟨htop, -, g, hg, hstep, hgupper⟩
      rw [hstep] at htop
      rw [hstep, le_antisymm (hupper g hg htop) (hgupper f hmem hpair)]
    rw [Option.map_some, Option.getD_some]
    by_cases h0 : stepUp f = 0
    · rw [if_pos h0]
      exact gridTop_iff_of_none hlist hne fun top h => h.2.1 ((htop top h).trans h0)
    · have hpairTop : PairTop freqs (stepUp f) := ⟨hpair, h0, f, hmem, rfl, hupper⟩
      rw [if_neg h0, GridTop, or_iff_left fun h => h.1 _ hpairTop]
      exact ⟨fun h => (htop m h).symm, fun h => h ▸ hpairTop⟩

/-! ## The grid loop -/

variable {c : Config}

/-- what the loop keeps: an odd multiple with the option, an even one that is listed -/
def GridKept (c : Config) (freqs : List ℕ) (f : ℕ) : Prop :=
  if f % 76800000 ≠ 0 then c.getConfigValue .marikoMiddleFreqs ≠ 0 else f ∈ freqs

instance (c : Config) (freqs : List ℕ) (f : ℕ) : Decidable (GridKept c freqs f) := by
  unfold GridKept
  infer_instance

theorem marikoStepLoop_succ (fuel f : ℕ) (hz : List ℕ) : marikoStepLoop c freqs m (fuel + 1) f hz =
    if f ≤ m ∧ hz.length < HOCCLK_FREQ_LIST_MAX then
      marikoStepLoop c freqs m fuel (stepUp f) (if GridKept c freqs f then hz ++ [f] else hz)
    else some hz := by
  rw [marikoStepLoop]
  unfold GridKept stepUp
  congr 2

/-- the rates kept below index `k` of the grid -/
def keptBefore (c : Config) (freqs : List ℕ) (k : ℕ) : List ℕ :=
  ((List.range' 2 (k - 2)).map (38400000 * ·)).filter (GridKept c freqs ·)

theorem keptBefore_succ {k : ℕ} (hk : 2 ≤ k) : keptBefore c freqs (k + 1) =
    if GridKept c freqs (38400000 * k) then keptBefore c freqs k ++ [38400000 * k] else keptBefore c freqs k := by
  have hrange : List.range' 2 (k + 1 - 2) = List.range' 2 (k - 2) ++ [k] := by
    rw [show k + 1 - 2 = k - 2 + 1 by omega, List.range'_concat, one_mul, Nat.add_sub_cancel' hk]
  unfold keptBefore
  rw [hrange, List.map_append, List.filter_append]
  by_cases h : GridKept c freqs (38400000 * k)
  · simp [h]
  · simp [h]

theorem mem_keptBefore {k f : ℕ} :
    f ∈ keptBefore c freqs k ↔ ∃ j, 2 ≤ j ∧ j < k ∧ f = 38400000 * j ∧ GridKept c freqs f := by
  unfold keptBefore
  simp only [List.mem_filter, List.mem_map, List.mem_range'_1, decide_eq_true_eq]
  constructor
  · rintro ⟨⟨j, hj, rfl⟩, hkept⟩
    exact ⟨j, hj.1, by omega, rfl, hkept⟩
  · rintro ⟨j, h2, hjk, rfl, hkept⟩
    exact ⟨⟨j, ⟨h2, by omega⟩, rfl⟩, hkept⟩

theorem keptBefore_pairwise (c : Config) (freqs : List ℕ) (k : ℕ) : (keptBefore c freqs k).Pairwise (· < ·) := by
  apply List.Pairwise.sublist List.filter_sublist
  rw [List.pairwise_map]
  exact (List.pairwise_lt_range' 1).imp fun h => by omega

theorem keptBefore_prefix (c : Config) (freqs : List ℕ) {j k : ℕ} (h : j ≤ k) :
    keptBefore c freqs j <+: keptBefore c freqs k := by
  have hrange : List.range' 2 (j - 2) <+: List.range' 2 (k - 2) := by
    refine ⟨List.range' (2 + (j - 2)) (k - 2 - (j - 2)), ?_⟩
    rw [List.range'_append_1]
    congr 1
    omega
  exact (hrange.map _).filter _

/-- with the option every other rate of the grid is kept -/
theorem length_keptBefore (freqs : List ℕ) (hmiddle : c.getConfigValue .marikoMiddleFreqs ≠ 0) {k : ℕ} (hk : 2 ≤ k) :
    (k - 2) / 2 ≤ (keptBefore c freqs k).length := by
  induction k, hk using Nat.le_induction with
  | base => exact Nat.zero_le _
  | succ k hk ih =>
    rw [keptBefore_succ hk]
    by_cases hodd : k % 2 = 1
    · have hkept : GridKept c freqs (38400000 * k) := by
        rw [GridKept, if_pos (by omega)]
        exact hmiddle
      rw [if_pos hkept, List.length_append, List.length_singleton]
      omega
    · split_ifs
      · rw [List.length_append, List.length_singleton]
        omega
      · omega

/-- the first index behind the top -/
def topIndex (m : ℕ) : ℕ := max 2 (m / 38400000 + 1)

/-- the loop does not wrap around before it ends -/
def NoWrap (c : Config) (freqs : List ℕ) (m : ℕ) : Prop :=
  ∀ k, 38400000 * k ≤ m → (keptBefore c freqs k).length < HOCCLK_FREQ_LIST_MAX → 38400000 * (k + 1) < 2 ^ 32

theorem noWrap_of_lt (h : m < 38400000 * 111) : NoWrap c freqs m := by
  intro k hk _
  omega

theorem noWrap_of_middle (hmiddle : c.getConfigValue .marikoMiddleFreqs ≠ 0) : NoWrap c freqs m := by
  intro k _ hlen
  by_cases hk : 2 ≤ k
  · have := length_keptBefore freqs hmiddle hk
    unfold HOCCLK_FREQ_LIST_MAX at hlen
    omega
  · omega

/-- the loop from index `k` on, which is the `n`th before the end -/
theorem marikoStepLoop_from (hwrap : NoWrap c freqs m) {n k fuel : ℕ} (hk : 2 ≤ k) (hn : k + n = topIndex m)
    (hfuel : n < fuel) (hlen : (keptBefore c freqs k).length ≤ HOCCLK_FREQ_LIST_MAX) :
    marikoStepLoop c freqs m fuel (38400000 * k) (keptBefore c freqs k) =
      some ((keptBefore c freqs (topIndex m)).take HOCCLK_FREQ_LIST_MAX) := by
  unfold topIndex at hn ⊢
  induction n generalizing k fuel with
  | zero =>
    obtain ⟨fuel, rfl⟩ : ∃ f, fuel = f + 1 := ⟨fuel - 1, by omega⟩
    rw [Nat.add_zero] at hn
    rw [← hn, List.take_of_length_le hlen, marikoStepLoop, if_neg (by omega)]
  | succ n ih =>
    obtain ⟨fuel, rfl⟩ : ∃ f, fuel = f + 1 := ⟨fuel - 1, by omega⟩
    rw [marikoStepLoop_succ]
    by_cases hfull : (keptBefore c freqs k).length < HOCCLK_FREQ_LIST_MAX
    · have hstep : stepUp (38400000 * k) = 38400000 * (k + 1) := Nat.mod_eq_of_lt (hwrap k (by omega) hfull)
      have hlen' : (keptBefore c freqs (k + 1)).length ≤ HOCCLK_FREQ_LIST_MAX := by
        rw [keptBefore_succ hk]
        split_ifs
        · rw [List.length_append, List.length_singleton]
          omega
        · exact hlen
      rw [if_pos ⟨by omega, hfull⟩, hstep, ← keptBefore_succ hk]
      exact ih (by omega) (by omega) (by omega) hlen'
    · -- full: the rest of the grid is cut off
      have hprefix := keptBefore_prefix c freqs (show k ≤ max 2 (m / 38400000 + 1) by omega)
      have hlength : (keptBefore c freqs k).length = HOCCLK_FREQ_LIST_MAX := by omega
      rw [if_neg (by tauto), ← hlength, ← List.prefix_iff_eq_take.1 hprefix]

/-- **the loop keeps the first 48 of the rates it is to keep** -/
theorem marikoStepLoop_eq (hwrap : NoWrap c freqs m) {fuel : ℕ} (hfuel : topIndex m ≤ fuel) :
    marikoStepLoop c freqs m fuel 76800000 [] = some ((keptBefore c freqs (topIndex m)).take HOCCLK_FREQ_LIST_MAX) := by
  have htop : 2 ≤ topIndex m := le_max_left _ _
  exact marikoStepLoop_from hwrap (n := topIndex m - 2) le_rfl (by omega) (by omega) (Nat.zero_le _)

/-- in any run that ends the loop has added only rates it is to keep -/
theorem kept_of_marikoStepLoop {fuel f : ℕ} {hz result : List ℕ} (h : marikoStepLoop c freqs m fuel f hz = some result)
    {g : ℕ} (hg : g ∈ result) : g ∈ hz ∨ GridKept c freqs g := by
  induction fuel generalizing f hz with
  | zero => exact absurd h (by simp [marikoStepLoop])
  | succ fuel ih =>
    rw [marikoStepLoop_succ] at h
    by_cases hgo : f ≤ m ∧ hz.length < HOCCLK_FREQ_LIST_MAX
    · rw [if_pos hgo] at h
      rcases ih h with hmem | hkept
      · by_cases hk : GridKept c freqs f
        · rw [if_pos hk, List.mem_append, List.mem_singleton] at hmem
          rcases hmem with hmem | rfl
          · exact Or.inl hmem
          · exact Or.inr hk
        · rw [if_neg hk] at hmem
          exact Or.inl hmem
      · exact Or.inr hkept
    · rw [if_neg hgo, Option.some.injEq] at h
      exact Or.inl (h ▸ hg)

/-! ## The row of the GPU of Mariko -/

/-- the row without the cut at 48 rates -/
def marikoRow (c : Config) (freqs : List ℕ) (m : ℕ) : List ℕ :=
  keptBefore c freqs (topIndex m) ++ freqs.filter (m < ·)

theorem mem_marikoRow {f : ℕ} : f ∈ marikoRow c freqs m ↔
    (76800000 ≤ f ∧ f ≤ m ∧ f % 38400000 = 0 ∧ GridKept c freqs f) ∨ m < f ∧ f ∈ freqs := by
  rw [marikoRow, List.mem_append, mem_keptBefore, List.mem_filter, decide_eq_true_eq, and_comm (a := f ∈ freqs)]
  apply or_congr_left
  unfold topIndex
  constructor
  · rintro ⟨j, h2, hj, rfl, hkept⟩
    exact ⟨by omega, by omega, by omega, hkept⟩
  · rintro ⟨hlow, htop, hgrid, hkept⟩
    exact ⟨f / 38400000, by omega, by omega, by omega, hkept⟩

theorem marikoRow_pairwise (hlist : freqs.Pairwise (· < ·)) : (marikoRow c freqs m).Pairwise (· < ·) := by
  refine List.pairwise_append.2 ⟨keptBefore_pairwise c freqs _, hlist.sublist List.filter_sublist, ?_⟩
  intro f hf g hg
  obtain ⟨j, hj2, hj, rfl, -⟩ := mem_keptBefore.1 hf
  have hmg : m < g := by simpa using (List.mem_filter.1 hg).2
  unfold topIndex at hj
  omega

theorem refreshRow_mariko (hwrap : NoWrap c freqs (marikoMiddleMax freqs)) {fuel : ℕ}
    (hfuel : topIndex (marikoMiddleMax freqs) ≤ fuel) : refreshFreqTableRow .mariko c .gpu freqs fuel =
      some ((marikoRow c freqs (marikoMiddleMax freqs)).take HOCCLK_FREQ_LIST_MAX) := by
  have habove : (freqs.filter fun f => decide (marikoMiddleMax freqs < f) && isAssignableHz .gpu f) =
      freqs.filter (marikoMiddleMax freqs < ·) := by simp [isAssignableHz]
  rw [refreshFreqTableRow, if_pos ⟨rfl, rfl⟩]
  simp only [marikoStepLoop_eq hwrap hfuel, habove, Option.bind_eq_bind, Option.bind_some]
  rw [marikoRow, List.take_append, List.length_take]
  congr 3
  omega

/-- a listed rate of a row is above the top or one the grid loop keeps -/
theorem kept_of_refreshRow {fuel : ℕ} {table : List ℕ} (h : refreshFreqTableRow .mariko c .gpu freqs fuel = some table)
    {f : ℕ} (hf : f ∈ table) : marikoMiddleMax freqs < f ∨ GridKept c freqs f := by
  rw [refreshFreqTableRow, if_pos ⟨rfl, rfl⟩, Option.bind_eq_bind, Option.bind_eq_some_iff] at h
  obtain ⟨hz, hloop, htable⟩ := h
  rw [Option.some.injEq] at htable
  subst htable
  rcases List.mem_append.1 hf with hf | hf
  · rcases kept_of_marikoStepLoop hloop hf with hnil | hkept
    · exact absurd hnil List.not_mem_nil
    · exact Or.inr hkept
  · have habove := (List.mem_filter.1 (List.mem_of_mem_take hf)).2
    rw [Bool.and_eq_true, decide_eq_true_eq] at habove
    exact Or.inl habove.1

/-- the rates of a row with middle frequencies before the cut: the odd multiples of 38.4 MHz and the listed even ones up
to the top, and what is listed above -/
def MiddleCandidate (freqs : List ℕ) (m f : ℕ) : Prop :=
  (76800000 ≤ f ∧ f ≤ m ∧ (f % 76800000 = 38400000 ∨ f % 76800000 = 0 ∧ f ∈ freqs)) ∨ m < f ∧ f ∈ freqs

theorem mem_marikoRow_middle (hmiddle : c.getConfigValue .marikoMiddleFreqs ≠ 0) {f : ℕ} :
    f ∈ marikoRow c freqs m ↔ MiddleCandidate freqs m f := by
  rw [mem_marikoRow, MiddleCandidate]
  refine or_congr_left (and_congr_right fun _ => and_congr_right fun _ => ?_)
  unfold GridKept
  by_cases heven : f % 76800000 = 0
  · have hgrid : f % 38400000 = 0 := by omega
    simp [heven, hgrid]
  · have hgrid : f % 38400000 = 0 ↔ f % 76800000 = 38400000 := by omega
    simp [heven, hgrid, hmiddle]

theorem ncard_middleCandidate (hlist : freqs.Pairwise (· < ·)) (hmiddle : c.getConfigValue .marikoMiddleFreqs ≠ 0) :
    {f | MiddleCandidate freqs m f}.ncard = (marikoRow c freqs m).length := by
  rw [← ncard_mem (marikoRow_pairwise hlist)]
  congr 1
  ext f
  exact (mem_marikoRow_middle hmiddle).symm

/-! ## Which lists a row has in full -/

/-- what the menu and the governor expect of a row -/
structure RowOk (soc : HocClkSocType) (c : Config) (module : HocClkModule) (freqs table : List ℕ) : Prop where
  ascending : table.Pairwise (· < ·)
  length_le : table.length ≤ HOCCLK_FREQ_LIST_MAX
  complete : ∀ f ∈ freqs, 76800000 ≤ f → isAssignableHz module f = true →
    ¬ (module = .gpu ∧ soc = .erista ∧ eristaGpuSkipped c f = true) → f ∈ table
  listed : ∀ f ∈ table, f ∉ freqs → module = .gpu ∧ soc = .mariko ∧ c.getConfigValue .marikoMiddleFreqs ≠ 0

/-- no listed rate up to the top is off the grid, and the middle frequencies leave room for all -/
structure FitsGrid (c : Config) (freqs : List ℕ) (m : ℕ) : Prop where
  onGrid : ∀ f ∈ freqs, 76800000 ≤ f → f ≤ m →
    f % 76800000 = 0 ∨ f % 76800000 = 38400000 ∧ c.getConfigValue .marikoMiddleFreqs ≠ 0
  room : c.getConfigValue .marikoMiddleFreqs ≠ 0 → {f | MiddleCandidate freqs m f}.ncard ≤ HOCCLK_FREQ_LIST_MAX

theorem GridTop.mem (h : GridTop freqs m) : m ∈ freqs := by
  rcases h with h | h
  · exact h.1
  · exact h.2.1

/-- a list that fits does not let the loop wrap around -/
theorem FitsGrid.noWrap (h : FitsGrid c freqs m) (hm : m ∈ freqs) (hu32 : m < 2 ^ 32) : NoWrap c freqs m := by
  by_cases hmiddle : c.getConfigValue .marikoMiddleFreqs ≠ 0
  · exact noWrap_of_middle hmiddle
  · apply noWrap_of_lt
    by_contra htop
    rcases h.onGrid m hm (by omega) le_rfl with heven | ⟨-, hodd⟩
    · omega
    · exact hmiddle hodd

theorem FitsGrid.length_le (h : FitsGrid c freqs m) (hlist : freqs.Pairwise (· < ·))
    (hlen : freqs.length ≤ HOCCLK_FREQ_LIST_MAX) : (marikoRow c freqs m).length ≤ HOCCLK_FREQ_LIST_MAX := by
  by_cases hmiddle : c.getConfigValue .marikoMiddleFreqs ≠ 0
  · rw [← ncard_middleCandidate hlist hmiddle]
    exact h.room hmiddle
  · have hsub : marikoRow c freqs m ⊆ freqs := by
      intro f hf
      rcases mem_marikoRow.1 hf with ⟨-, -, -, hkept⟩ | ⟨-, hf⟩
      · unfold GridKept at hkept
        split_ifs at hkept with hodd
        · exact absurd hkept hmiddle
        · exact hkept
      · exact hf
    have hnodup : (marikoRow c freqs m).Nodup := (marikoRow_pairwise hlist).imp ne_of_lt
    exact (hnodup.subperm hsub).length_le.trans hlen

theorem FitsGrid.rowOk (h : FitsGrid c freqs m) (hlist : freqs.Pairwise (· < ·))
    (hlen : freqs.length ≤ HOCCLK_FREQ_LIST_MAX) : RowOk .mariko c .gpu freqs (marikoRow c freqs m) where
  ascending := marikoRow_pairwise hlist
  length_le := h.length_le hlist hlen
  complete := by
    intro f hf hlow _ _
    rw [mem_marikoRow]
    by_cases habove : m < f
    · exact Or.inr ⟨habove, hf⟩
    · rcases h.onGrid f hf hlow (not_lt.1 habove) with heven | ⟨hodd, hmiddle⟩
      · refine Or.inl ⟨hlow, not_lt.1 habove, by omega, ?_⟩
        rw [GridKept, if_neg (not_not.2 heven)]
        exact hf
      · refine Or.inl ⟨hlow, not_lt.1 habove, by omega, ?_⟩
        rw [GridKept, if_pos (by omega)]
        exact hmiddle
  listed := by
    intro f hf hnot
    refine ⟨rfl, rfl, ?_⟩
    rcases mem_marikoRow.1 hf with ⟨-, -, -, hkept⟩ | ⟨-, hf⟩
    · unfold GridKept at hkept
      split_ifs at hkept with hodd
      · exact hkept
      · exact absurd hkept hnot
    · exact absurd hf hnot

theorem onGrid_of_rowOk {fuel : ℕ} {table : List ℕ} (hfuel : topIndex (marikoMiddleMax freqs) ≤ fuel)
    (htable : refreshFreqTableRow .mariko c .gpu freqs fuel = some table) (hok : RowOk .mariko c .gpu freqs table)
    {f : ℕ} (hf : f ∈ freqs) (hlow : 76800000 ≤ f) (htop : f ≤ marikoMiddleMax freqs) :
    f % 76800000 = 0 ∨ f % 76800000 = 38400000 ∧ c.getConfigValue .marikoMiddleFreqs ≠ 0 := by
  have hmem : f ∈ table := hok.complete f hf hlow rfl (by simp)
  have hkept : GridKept c freqs f := (kept_of_refreshRow htable hmem).resolve_left (not_lt.2 htop)
  by_cases heven : f % 76800000 = 0
  · exact Or.inl heven
  · rw [GridKept, if_pos heven] at hkept
    rw [refreshRow_mariko (noWrap_of_middle hkept) hfuel, Option.some.injEq] at htable
    subst htable
    rcases mem_marikoRow.1 (List.mem_of_mem_take hmem) with ⟨-, -, hgrid, -⟩ | ⟨habove, -⟩
    · exact Or.inr ⟨by omega, hkept⟩
    · exact absurd habove (not_lt.2 htop)

/-- a cut row loses its last rate, which is listed -/
theorem room_of_rowOk (hlist : freqs.Pairwise (· < ·)) (hlen : freqs.length ≤ HOCCLK_FREQ_LIST_MAX) (hm : m ∈ freqs)
    (hok : RowOk .mariko c .gpu freqs ((marikoRow c freqs m).take HOCCLK_FREQ_LIST_MAX)) :
    (marikoRow c freqs m).length ≤ HOCCLK_FREQ_LIST_MAX := by
  by_cases hlow : 76800000 ≤ m
  · have hrow : m ∈ marikoRow c freqs m := List.mem_of_mem_take (hok.complete m hm hlow rfl (by simp))
    apply length_le_of_mem_take (marikoRow_pairwise hlist)
    intro x hx
    obtain ⟨hmem, hgreatest⟩ := isGreatest_getLast? (marikoRow_pairwise hlist) hx
    have hmx : m ≤ x := hgreatest hrow
    have hlisted : x ∈ freqs := by
      rcases mem_marikoRow.1 hmem with ⟨-, hxm, -, -⟩ | ⟨-, hx⟩
      · rw [le_antisymm hxm hmx]
        exact hm
      · exact hx
    exact hok.complete x hlisted (hlow.trans hmx) rfl (by simp)
  · -- an empty grid
    have hempty : keptBefore c freqs (topIndex m) = [] := by
      have htop : topIndex m = 2 := by
        unfold topIndex
        omega
      rw [htop]
      rfl
    rw [marikoRow, hempty, List.nil_append]
    exact (List.length_filter_le _ _).trans hlen

theorem marikoRow_iff (hlist : freqs.Pairwise (· < ·)) (hlen : freqs.length ≤ HOCCLK_FREQ_LIST_MAX)
    (hu32 : ∀ f ∈ freqs, f < 2 ^ 32) (hm : m ∈ freqs) (hmax : marikoMiddleMax freqs = m) :
    (∃ n, ∀ fuel ≥ n, ∃ table, refreshFreqTableRow .mariko c .gpu freqs fuel = some table ∧
      RowOk .mariko c .gpu freqs table) ↔ FitsGrid c freqs m := by
  subst hmax
  constructor
  · rintro ⟨n, hn⟩
    obtain ⟨table, htable, hok⟩ := hn (max n (topIndex (marikoMiddleMax freqs))) (le_max_left _ _)
    refine ⟨fun f => onGrid_of_rowOk (le_max_right _ _) htable hok, fun hmiddle => ?_⟩
    rw [refreshRow_mariko (noWrap_of_middle hmiddle) (le_max_right _ _), Option.some.injEq] at htable
    subst htable
    rw [ncard_middleCandidate hlist hmiddle]
    exact room_of_rowOk hlist hlen hm hok
  · intro hfits
    refine ⟨topIndex (marikoMiddleMax freqs), fun fuel hfuel => ⟨marikoRow c freqs (marikoMiddleMax freqs), ?_, ?_⟩⟩
    · rw [refreshRow_mariko (hfits.noWrap hm (hu32 _ hm)) hfuel, List.take_of_length_le (hfits.length_le hlist hlen)]
    · exact hfits.rowOk hlist hlen

/-- every other row is the list without the rates the board is not to be given -/
theorem filteredRow_ok {soc : HocClkSocType} {module : HocClkModule} (hrow : ¬ (module = .gpu ∧ soc = .mariko))
    (hlist : freqs.Pairwise (· < ·)) (hlen : freqs.length ≤ HOCCLK_FREQ_LIST_MAX) (fuel : ℕ) :
    ∃ table, refreshFreqTableRow soc c module freqs fuel = some table ∧ RowOk soc c module freqs table := by
  refine ⟨_, if_neg hrow, hlist.sublist List.filter_sublist, (List.length_filter_le _ _).trans hlen, ?_, ?_⟩
  · intro f hf _ hassignable hskipped
    apply List.mem_filter.2 ⟨hf, _⟩
    rw [hassignable, Bool.true_and, Bool.not_eq_true']
    by_contra hskip
    apply hskipped
    simpa [and_assoc] using hskip
  · intro f hf hnot
    exact absurd (List.mem_of_mem_filter hf) hnot

/-- **which lists a row has in full** -/
theorem refreshRow_iff {soc : HocClkSocType} {module : HocClkModule} (hlist : freqs.Pairwise (· < ·))
    (hlen : freqs.length ≤ HOCCLK_FREQ_LIST_MAX) (hu32 : ∀ f ∈ freqs, f < 2 ^ 32) :
    (∃ n, ∀ fuel ≥ n, ∃ table, refreshFreqTableRow soc c module freqs fuel = some table ∧
      RowOk soc c module freqs table) ↔
    (module = .gpu ∧ soc = .mariko → ∀ m, GridTop freqs m → FitsGrid c freqs m) := by
  by_cases hrow : module = .gpu ∧ soc = .mariko
  · obtain ⟨rfl, rfl⟩ := hrow
    rw [imp_iff_right ⟨rfl, rfl⟩]
    by_cases hne : freqs = []
    · subst hne
      have hnone : ∀ m, ¬ GridTop [] m := fun m h => List.not_mem_nil h.mem
      refine iff_of_true ⟨1, fun fuel hfuel => ⟨[], ?_, ?_⟩⟩ fun m h => absurd h (hnone m)
      · obtain ⟨fuel, rfl⟩ : ∃ k, fuel = k + 1 := ⟨fuel - 1, by omega⟩
        simp [refreshFreqTableRow, marikoMiddleMax, marikoStepLoop]
      · exact ⟨List.Pairwise.nil, Nat.zero_le _, by simp, by simp⟩
    · have htop : GridTop freqs (marikoMiddleMax freqs) := (gridTop_iff hlist hne).2 rfl
      rw [marikoRow_iff hlist hlen hu32 htop.mem rfl]
      refine ⟨fun hfits m hm => ?_, fun h => h _ htop⟩
      rw [← (gridTop_iff hlist hne).1 hm]
      exact hfits
  · exact iff_of_true ⟨0, fun fuel _ => filteredRow_ok hrow hlist hlen fuel⟩ fun h => absurd h hrow

/-- multiples of 76.8 MHz alone -/
def pcvRates (n : ℕ) : List ℕ := (List.range n).map fun i => 76800000 + i * 76800000

theorem gridTop_pcvRates (h : GridTop (pcvRates 17) m) : m = 1305600000 := by
  rw [gridTop_iff (by decide) (by decide)] at h
  rw [← h]
  rfl

theorem refreshRow_pcvRates : ∃ n, ∀ fuel ≥ n, ∃ table,
    refreshFreqTableRow .mariko Config.initial .gpu (pcvRates 17) fuel = some table ∧
      RowOk .mariko Config.initial .gpu (pcvRates 17) table := by
  refine (refreshRow_iff (by decide) (by decide) (by decide)).2 fun _ m hm => ?_
  rw [gridTop_pcvRates hm]
  refine ⟨fun f hf _ _ => Or.inl ?_, fun hmiddle => absurd rfl hmiddle⟩
  revert f
  decide

/-- the GPU rates of an unmodified Mariko console -/
def marikoStockRates : List ℕ := pcvRates 16 ++ [1267200000]

/-- without middle frequencies the row of an unmodified console is without its top rate -/
theorem stockRow_incomplete : ¬ ∃ n, ∀ fuel ≥ n, ∃ table,
    refreshFreqTableRow .mariko Config.initial .gpu marikoStockRates fuel = some table ∧
      RowOk .mariko Config.initial .gpu marikoStockRates table := by
  rintro ⟨n, hn⟩
  obtain ⟨table, htable, hok⟩ := hn n le_rfl
  have hmem : 1267200000 ∈ table := hok.complete _ (by decide) (by decide) rfl (by simp)
  rcases kept_of_refreshRow htable hmem with habove | hkept
  · exact absurd habove (by decide)
  · exact absurd hkept (by decide)

/-! ## What stands behind a middle frequency -/

/-- the rate `SetHz` hands to PCV is listed and covers the frequency of the row -/
def Backed (freqs : List ℕ) (f : ℕ) : Prop :=
  ∀ hw : Hw, (hw.set .mariko .gpu f).gpuHz ∈ freqs ∧ f ≤ (hw.set .mariko .gpu f).gpuHz

theorem backed_iff_of_grid {f : ℕ} (hgrid : f % 38400000 = 0) : Backed freqs f ↔
    if f % 76800000 = 38400000 ∧ f < 1228800000 then f + 38400000 ∈ freqs else f ∈ freqs := by
  have hset : ∀ hw : Hw, (hw.set .mariko .gpu f).gpuHz =
      if f % 76800000 = 38400000 ∧ f < 1228800000 then f + 38400000 else f := by
    intro hw
    by_cases hodd : f % 76800000 = 38400000 ∧ f < 1228800000
    · have hgm20b : Hw.useGm20b .mariko f = true := by simp [Hw.useGm20b, hgrid, hodd.1, hodd.2]
      simp only [Hw.set, hgm20b, if_true, if_pos hodd]
      omega
    · have hgm20b : Hw.useGm20b .mariko f = false := by
        simp only [Hw.useGm20b, decide_eq_false_iff_not]
        omega
      simp only [Hw.set, hgm20b, if_neg hodd]
      rfl
  unfold Backed
  simp only [hset]
  split_ifs with hodd
  · exact ⟨fun h => (h ⟨0, 0, 0, 0, 0⟩).1, fun h _ => ⟨h, by omega⟩⟩
  · exact ⟨fun h => (h ⟨0, 0, 0, 0, 0⟩).1, fun h _ => ⟨h, le_rfl⟩⟩

/-- the rates of a row with middle frequencies: the candidates with fewer than 48 others below them -/
theorem mem_middleRow_iff (hlist : freqs.Pairwise (· < ·)) (hmiddle : c.getConfigValue .marikoMiddleFreqs ≠ 0) {f : ℕ} :
    f ∈ (marikoRow c freqs m).take HOCCLK_FREQ_LIST_MAX ↔ MiddleCandidate freqs m f ∧
      {g | MiddleCandidate freqs m g ∧ g < f}.ncard < HOCCLK_FREQ_LIST_MAX := by
  rw [mem_take_iff (marikoRow_pairwise hlist)]
  simp only [mem_marikoRow_middle hmiddle]

theorem backed_row_iff (hmiddle : c.getConfigValue .marikoMiddleFreqs ≠ 0) :
    (∃ n, ∀ fuel ≥ n, ∃ table, refreshFreqTableRow .mariko c .gpu freqs fuel = some table ∧
      ∀ f ∈ table, Backed freqs f) ↔
    ∀ f ∈ (marikoRow c freqs (marikoMiddleMax freqs)).take HOCCLK_FREQ_LIST_MAX, Backed freqs f := by
  constructor
  · rintro ⟨n, hn⟩
    obtain ⟨table, htable, hbacked⟩ := hn (max n (topIndex (marikoMiddleMax freqs))) (le_max_left _ _)
    rw [refreshRow_mariko (noWrap_of_middle hmiddle) (le_max_right _ _), Option.some.injEq] at htable
    exact htable ▸ hbacked
  · intro hbacked
    exact ⟨_, fun fuel hfuel => ⟨_, refreshRow_mariko (noWrap_of_middle hmiddle) hfuel, hbacked⟩⟩

/-- only the odd multiples of 38.4 MHz need something to stand on -/
theorem MiddleCandidate.backed_iff (hgrid : ∀ f ∈ freqs, f % 38400000 = 0) {f : ℕ} (hf : MiddleCandidate freqs m f) :
    Backed freqs f ↔ (f % 76800000 = 38400000 → if f < 1228800000 then f + 38400000 ∈ freqs else f ∈ freqs) := by
  have hf38 : f % 38400000 = 0 := by
    rcases hf with ⟨-, -, hodd | ⟨heven, -⟩⟩ | ⟨-, hlisted⟩
    · omega
    · omega
    · exact hgrid f hlisted
  rw [backed_iff_of_grid hf38]
  by_cases hodd : f % 76800000 = 38400000
  · simp only [hodd, true_and, true_implies]
  · have hlisted : f ∈ freqs := by
      rcases hf with ⟨-, -, hodd' | ⟨-, hlisted⟩⟩ | ⟨-, hlisted⟩
      · exact absurd hodd' hodd
      · exact hlisted
      · exact hlisted
    simp [hodd, hlisted]

/-- **a row with middle frequencies is backed when the rates to round to are listed** -/
theorem middleRow_backed_iff (hmiddle : c.getConfigValue .marikoMiddleFreqs ≠ 0) (hlist : freqs.Pairwise (· < ·))
    (hgrid : ∀ f ∈ freqs, f % 38400000 = 0) :
    (∃ n, ∀ fuel ≥ n, ∃ table, refreshFreqTableRow .mariko c .gpu freqs fuel = some table ∧
      ∀ f ∈ table, Backed freqs f) ↔
    ∀ m, GridTop freqs m → ∀ f, MiddleCandidate freqs m f →
      {g | MiddleCandidate freqs m g ∧ g < f}.ncard < HOCCLK_FREQ_LIST_MAX → f % 76800000 = 38400000 →
      if f < 1228800000 then f + 38400000 ∈ freqs else f ∈ freqs := by
  rw [backed_row_iff hmiddle]
  by_cases hne : freqs = []
  · subst hne
    have hnone : ∀ m, ¬ GridTop [] m := fun m h => List.not_mem_nil h.mem
    exact iff_of_true (fun f hf => absurd hf List.not_mem_nil) fun m hm => absurd hm (hnone m)
  · constructor
    · intro hbacked m hm f hf hrank
      rw [gridTop_iff hlist hne] at hm
      subst hm
      exact (hf.backed_iff hgrid).1 (hbacked f ((mem_middleRow_iff hlist hmiddle).2 ⟨hf, hrank⟩))
    · intro hlisted f hf
      obtain ⟨hf, hrank⟩ := (mem_middleRow_iff hlist hmiddle).1 hf
      exact (hf.backed_iff hgrid).2 (hlisted _ ((gridTop_iff hlist hne).2 rfl) f hf hrank)

def middleFreqsConfig : Config :=
  { Config.initial with configValues := fun k => if k = .marikoMiddleFreqs then 1 else hocclkDefaultConfigValue k }

theorem middleRow_backed_stock : ∃ n, ∀ fuel ≥ n, ∃ table,
    refreshFreqTableRow .mariko middleFreqsConfig .gpu (pcvRates 16) fuel = some table ∧
      ∀ f ∈ table, Backed (pcvRates 16) f := by
  refine (middleRow_backed_iff (by decide) (by decide) (by decide)).2 ?_
  intro m hm f hf _ hodd
  have hm : m = 1228800000 := by
    rw [gridTop_iff (by decide) (by decide)] at hm
    rw [← hm]
    rfl
  have habove : ∀ g ∈ pcvRates 16, g ≤ 1228800000 := by decide
  have hlisted : ∀ i < 15, 76800000 + (i + 1) * 76800000 ∈ pcvRates 16 := by decide
  rcases hf with ⟨hlow, htop, -⟩ | ⟨hmf, hf⟩
  · rw [if_pos (by omega), show f + 38400000 = 76800000 + ((f - 115200000) / 76800000 + 1) * 76800000 by omega]
    exact hlisted _ (by omega)
  · exact absurd (habove f hf) (by omega)

/-- past 1228.8 MHz a middle frequency is handed to PCV as it is -/
theorem middleRow_unbacked : ¬ ∃ n, ∀ fuel ≥ n, ∃ table,
    refreshFreqTableRow .mariko middleFreqsConfig .gpu (pcvRates 17) fuel = some table ∧
      ∀ f ∈ table, Backed (pcvRates 17) f := by
  rintro ⟨n, hn⟩
  obtain ⟨table, htable, hbacked⟩ := hn (max n (topIndex (marikoMiddleMax (pcvRates 17)))) (le_max_left _ _)
  rw [refreshRow_mariko (noWrap_of_middle (by decide)) (le_max_right _ _), Option.some.injEq] at htable
  subst htable
  have hlisted := ((hbacked 1267200000 (by decide)) ⟨0, 0, 0, 0, 0⟩).1
  exact absurd hlisted (by decide)

end RyazhaClk
