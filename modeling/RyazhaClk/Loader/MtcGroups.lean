/-
`MemFreqMtcTable` of Erista over all groups of memory tables. The clocks it installs are the three configured maxima,
which it sorts and clears of duplicates in place, so that the next group finds another array.

- `dropDuplicates_eq`, `tableShiftsOf_eq`: what a sorted array keeps, and the shift count that goes with it.
- `raisedClocks_dropDuplicates`: the array left behind keeps the same clocks.
- `memFreqMtcTable_group`: one group is shifted down by the number of clocks, and its last table copied for each.
- `memFreqMtcTable_groups`: every group of a run gets the same clocks, and its rates ascend.

The adjustment of a table to its rate is any one that sees the words of its own table (`AdjustsTable`).
-/
import RyazhaClk.Lib.Ascending
import RyazhaClk.Loader.MtcAdjust

namespace RyazhaClk.Loader.Erista

open Validated Records Ascending

/-! ## The clocks -/

/-- the distinct clocks above the OS limit, ascending -/
def raisedClocks (clocks : List ℕ) : List ℕ := (clocks.filter (emcClkOSLimit < ·)).dedup.mergeSort (· ≤ ·)

theorem mem_raisedClocks {clocks : List ℕ} {c : ℕ} : c ∈ raisedClocks clocks ↔ c ∈ clocks ∧ emcClkOSLimit < c := by
  simp [raisedClocks]

theorem raisedClocks_pairwise (clocks : List ℕ) : (raisedClocks clocks).Pairwise (· < ·) := by
  have hle : (raisedClocks clocks).Pairwise (· ≤ ·) := by
    simpa [raisedClocks] using List.pairwise_mergeSort' (· ≤ ·) (clocks.filter (emcClkOSLimit < ·)).dedup
  have hnodup : (raisedClocks clocks).Nodup :=
    (List.mergeSort_perm _ _).nodup_iff.2 (List.nodup_dedup (clocks.filter (emcClkOSLimit < ·)))
  exact (hle.and hnodup).imp fun h => lt_of_le_of_ne h.1 h.2

theorem eq_raisedClocks {clocks l : List ℕ} (hl : l.Pairwise (· < ·))
    (hmem : ∀ c, c ∈ l ↔ c ∈ clocks ∧ emcClkOSLimit < c) : l = raisedClocks clocks :=
  hl.eq_of_mem_iff (raisedClocks_pairwise clocks) fun c => (hmem c).trans mem_raisedClocks.symm

theorem lt_maxOfArr {x : ℕ} {clocks : List ℕ} : x < maxOfArr clocks ↔ ∃ c ∈ clocks, x < c := by
  simp [maxOfArr, lt_foldl_max]

/-- what is left of a sorted array with a last clock above the limit -/
theorem dropDuplicates_filter {clocks : List ℕ} (hsorted : clocks.Pairwise (· ≤ ·))
    (hlast : ∀ c ∈ clocks.getLast?, emcClkOSLimit < c) :
    (dropDuplicates clocks).filter (· ≠ 0) = (clocks.filter (emcClkOSLimit < ·)).dedup := by
  induction clocks with
  | nil => rfl
  | cons clock clocks ih =>
    rcases clocks with _ | ⟨next, clocks⟩
    · have h := hlast clock rfl
      simp [dropDuplicates, h, (Nat.zero_lt_of_lt h).ne']
    · obtain ⟨hhead, htail⟩ := List.pairwise_cons.1 hsorted
      have hrest := ih htail (by simpa using hlast)
      rw [dropDuplicates, List.filter_cons, hrest, List.filter_cons (x := clock)]
      by_cases hlimit : emcClkOSLimit < clock
      · rw [if_pos (show decide (emcClkOSLimit < clock) = true by simpa using hlimit)]
        by_cases hnext : clock = next
        · -- the duplicate in front is cleared
          have hmem : clock ∈ (next :: clocks).filter (emcClkOSLimit < ·) :=
            List.mem_filter.2 ⟨by simp [hnext], by simpa using hlimit⟩
          rw [List.dedup_cons_of_mem hmem, if_neg (by simp [hnext])]
        · have hmem : clock ∉ (next :: clocks).filter (emcClkOSLimit < ·) := by
            intro h
            have hle := hhead next List.mem_cons_self
            rcases List.mem_cons.1 (List.mem_filter.1 h).1 with heq | h
            · exact hnext heq
            · have := (List.pairwise_cons.1 htail).1 clock h
              omega
          rw [List.dedup_cons_of_notMem hmem, if_pos (by simpa [hnext, hlimit] using (Nat.zero_lt_of_lt hlimit).ne'),
            if_pos ⟨hnext, hlimit⟩]
      · have hskip : ¬ (clock ≠ next ∧ clock > emcClkOSLimit) := fun h => hlimit h.2
        rw [if_neg (by simp [hskip]), if_neg (by simpa using hlimit)]

theorem getLast?_sorted {clocks : List ℕ} (hsorted : clocks.Pairwise (· ≤ ·)) (hmax : emcClkOSLimit < maxOfArr clocks) :
    ∀ c ∈ clocks.getLast?, emcClkOSLimit < c := by
  intro last hlast
  obtain ⟨init, rfl⟩ := List.getLast?_eq_some_iff.1 hlast
  obtain ⟨c, hc, hlimit⟩ := lt_maxOfArr.1 hmax
  rcases List.mem_append.1 hc with hc | hc
  · exact hlimit.trans_le ((List.pairwise_append.1 hsorted).2.2 c hc last (List.mem_singleton_self last))
  · rwa [← List.mem_singleton.1 hc]

/-- the array behind the sort, and what its clearing keeps -/
theorem dropDuplicates_eq {clocks : List ℕ} (hsorted : clocks.Pairwise (· ≤ ·)) (hmax : emcClkOSLimit < maxOfArr clocks) :
    (dropDuplicates clocks).filter (· ≠ 0) = raisedClocks clocks := by
  rw [dropDuplicates_filter hsorted (getLast?_sorted hsorted hmax)]
  apply eq_raisedClocks
  · have hle := (hsorted.sublist List.filter_sublist).sublist (List.dedup_sublist (clocks.filter (emcClkOSLimit < ·)))
    exact (hle.and (List.nodup_dedup _)).imp fun h => lt_of_le_of_ne h.1 h.2
  · intro c
    simp

/-- the shift count is the number of clocks that are kept -/
theorem tableShiftsOf_eq {clocks : List ℕ} (hlast : ∀ c ∈ clocks.getLast?, 0 < c) (hne : clocks ≠ []) :
    tableShiftsOf clocks = ((dropDuplicates clocks).filter (· ≠ 0)).length := by
  induction clocks with
  | nil => exact absurd rfl hne
  | cons clock clocks ih =>
    rcases clocks with _ | ⟨next, clocks⟩
    · have h := hlast clock rfl
      simp [tableShiftsOf, dropDuplicates, h.ne']
    · rw [tableShiftsOf, dropDuplicates, ih (by simpa using hlast) (List.cons_ne_nil _ _), List.filter_cons]
      by_cases hkept : clock ≠ next ∧ clock > emcClkOSLimit
      · have hclock : clock ≠ 0 := (Nat.zero_lt_of_lt hkept.2).ne'
        rw [if_pos hkept, if_pos hkept, if_pos (by simpa using hclock), List.length_cons]
        omega
      · rw [if_neg hkept, if_neg hkept, if_neg (by simp)]
        omega

/-- **the array a group leaves behind has the clocks it found** -/
theorem raisedClocks_dropDuplicates {clocks : List ℕ} (hsorted : clocks.Pairwise (· ≤ ·))
    (hmax : emcClkOSLimit < maxOfArr clocks) : raisedClocks (dropDuplicates clocks) = raisedClocks clocks := by
  symm
  apply eq_raisedClocks (raisedClocks_pairwise clocks)
  intro c
  rw [← dropDuplicates_eq hsorted hmax, List.mem_filter]
  have hkept : c ∈ dropDuplicates clocks → c ≠ 0 → emcClkOSLimit < c := by
    intro hc h0
    have hmem : c ∈ (dropDuplicates clocks).filter (· ≠ 0) := List.mem_filter.2 ⟨hc, by simpa using h0⟩
    rw [dropDuplicates_eq hsorted hmax] at hmem
    exact (mem_raisedClocks.1 hmem).2
  refine ⟨fun h => ⟨h.1, hkept h.1 (by simpa using h.2)⟩, fun h => ⟨h.1, ?_⟩⟩
  simpa using (Nat.zero_lt_of_lt h.2).ne'

/-! ## The tables of a group -/

def revField : Fin mtcTableWords := ⟨0, by decide⟩

/-- table `i` of the group whose last rate is the word at `ptr` -/
def groupTable (w : Words) (ptr : ℤ) (i : ℕ) : TableWords := record mtcTableWords w (tableList ptr 0) i

def withRate (table : TableWords) (khz : ℕ) : TableWords := Function.update table rateField (BitVec.ofNat 32 khz)

def groupRates (w : Words) (ptr : ℤ) : List ℕ :=
  (List.range khzList.length).map fun i : ℕ => (groupTable w ptr i rateField).toNat

theorem tableList_eq (ptr : ℤ) (i : ℕ) : tableList ptr i = tableList ptr 0 + mtcTableWords * i := by
  unfold tableList
  push_cast
  ring

theorem record_tableList (w : Words) (ptr : ℤ) (i : ℕ) :
    record mtcTableWords w (tableList ptr i) 0 = groupTable w ptr i := by
  funext k
  rw [groupTable, record, record, tableList_eq ptr i]
  simp

/-- the words of a group -/
def GroupFrame (ptr : ℤ) (w w' : Words) : Prop :=
  Frame (tableList ptr 0) (tableList ptr khzList.length) w w'

/-- nothing but table `i` of the group changes -/
theorem groupFrame_of_table {ptr : ℤ} {w w' : Words} {i : ℕ} (hi : i < khzList.length)
    (h : Frame (tableList ptr i) (tableList ptr i + mtcTableWords) w w') :
    GroupFrame ptr w w' ∧ ∀ k, k ≠ i → groupTable w' ptr k = groupTable w ptr k := by
  have hstart := tableList_eq ptr i
  have hend := tableList_eq ptr khzList.length
  refine ⟨h.mono (by unfold mtcTableWords at *; omega) (by unfold mtcTableWords at *; omega), ?_⟩
  intro k hk
  apply record_of_frame h
  unfold mtcTableWords at *
  omega

@[simp] theorem exec_copyWords (dst src : ℤ) (n : ℕ) (s : PcvState) :
    (copyWords dst src n).exec s = (.ok (), { s with words := moved s.words dst src n }) := rfl

@[simp] theorem exec_adjustTableAt (adjust : ℤ → Words → Words) (table : ℤ) (s : PcvState) :
    (adjustTableAt adjust table).exec s = (.ok (), { s with words := adjust table s.words }) := rfl

/-- the `memmove` to the front -/
theorem groupTable_moved (w : Words) (ptr : ℤ) (shifts m i : ℕ) :
    groupTable (moved w (tableList ptr 0) (tableList ptr shifts) (mtcTableWords * m)) ptr i =
      if i < m then groupTable w ptr (i + shifts) else groupTable w ptr i := by
  have h := record_moved mtcTableWords w (tableList ptr 0) 0 shifts m i
  rw [Nat.cast_zero, mul_zero, add_zero, ← tableList_eq] at h
  simpa [groupTable] using h

theorem groupFrame_moved (w : Words) (ptr : ℤ) {shifts : ℕ} (h : shifts ≤ khzList.length) :
    GroupFrame ptr w (moved w (tableList ptr 0) (tableList ptr shifts) (mtcTableWords * (khzList.length - shifts))) := by
  apply frame_moved le_rfl
  rw [tableList_eq ptr khzList.length]
  unfold mtcTableWords
  omega

/-- the `memcpy` of one table over another -/
theorem groupTable_copied (w : Words) (ptr : ℤ) (d s i : ℕ) :
    groupTable (moved w (tableList ptr d) (tableList ptr s) mtcTableWords) ptr i =
      if i = d then groupTable w ptr s else groupTable w ptr i := by
  have h := record_moved mtcTableWords w (tableList ptr 0) d s 1 i
  rw [← tableList_eq, ← tableList_eq, mul_one] at h
  rw [groupTable, h]
  by_cases hi : i = d
  · rw [if_pos (by omega), if_pos hi, hi, Nat.sub_self, Nat.zero_add, groupTable]
  · rw [if_neg (by omega), if_neg hi, groupTable]

/-- the copies of table `src` into the tables at the end, as many as there are indices -/
theorem exec_copyLoop (ptr : ℤ) (src : ℕ) (indices : List ℕ) (hin : ∀ i ∈ indices, i < khzList.length)
    (hsrc : ∀ i ∈ indices, khzList.length - i - 1 ≠ src) (s : PcvState) :
    ∃ w', (forEach (fun i => copyWords (tableList ptr (khzList.length - i - 1)) (tableList ptr src) mtcTableWords)
        indices).exec s = (.ok (), { s with words := w' }) ∧
      GroupFrame ptr s.words w' ∧
      ∀ k, groupTable w' ptr k =
        if ∃ i ∈ indices, k = khzList.length - i - 1 then groupTable s.words ptr src else groupTable s.words ptr k := by
  induction indices generalizing s with
  | nil => exact ⟨s.words, rfl, Frame.refl _ _ _, fun k => by simp⟩
  | cons i indices ih =>
    obtain ⟨hi, hin⟩ := List.forall_mem_cons.1 hin
    obtain ⟨hne, hsrc⟩ := List.forall_mem_cons.1 hsrc
    obtain ⟨w', hexec, hframe, htables⟩ := ih hin hsrc
      { s with words := moved s.words (tableList ptr (khzList.length - i - 1)) (tableList ptr src) mtcTableWords }
    have hhead : GroupFrame ptr s.words (moved s.words (tableList ptr (khzList.length - i - 1)) (tableList ptr src)
        mtcTableWords) := (groupFrame_of_table (by omega) (frame_moved le_rfl le_rfl)).1
    refine ⟨w', ?_, hhead.trans hframe, ?_⟩
    · rw [forEach, exec_bind, exec_copyWords]
      exact hexec
    · intro k
      rw [htables]
      simp only [groupTable_copied]
      rw [if_neg hne.symm]
      by_cases hk : k = khzList.length - i - 1
      · rw [if_pos hk, ite_self, if_pos ⟨i, List.mem_cons_self, hk⟩]
      · rw [if_neg hk]
        simp [hk]

theorem validTables_iff {w : Words} {ptr : ℤ} : validTables w ptr = true ↔
    ∀ i khz : ℕ, khzList[i]? = some khz →
      groupTable w ptr i rateField = BitVec.ofNat 32 khz ∧ groupTable w ptr i revField = 7 := by
  have hrate : ∀ i : ℕ, w (tableList ptr i + mtcRateKhz) = groupTable w ptr i rateField := by
    intro i
    rw [tableList_eq]
    rfl
  have hrev : ∀ i : ℕ, w (tableList ptr i) = groupTable w ptr i revField := by
    intro i
    rw [tableList_eq, groupTable, record]
    simp [revField]
  unfold validTables
  rw [List.all_eq_true]
  simp only [hrate, hrev, Bool.and_eq_true, decide_eq_true_eq, Prod.forall, List.mem_zipIdx_iff_getElem?]
  exact ⟨fun h i khz => h khz i, fun h khz i => h i khz⟩

theorem rate_of_valid {w : Words} {ptr : ℤ} (hvalid : validTables w ptr = true) {i khz : ℕ} (hi : khzList[i]? = some khz) :
    (groupTable w ptr i rateField).toNat = khz := by
  have hsmall : ∀ khz ∈ khzList, khz < 2 ^ 32 := by decide
  rw [(validTables_iff.1 hvalid i khz hi).1, BitVec.toNat_ofNat, Nat.mod_eq_of_lt (hsmall khz (List.mem_of_getElem? hi))]

/-! ## The rates -/

variable {env : PcvEnv} {adjusted : TableWords → TableWords}

/-- the last tables have got the clocks, the others are left alone -/
structure RatesWritten (adjusted : TableWords → TableWords) (clocks : List ℕ) (w w' : Words) (ptr : ℤ) : Prop where
  frame : GroupFrame ptr w w'
  kept : ∀ k < khzList.length - clocks.length, groupTable w' ptr k = groupTable w ptr k
  written : ∀ (j c : ℕ), clocks[j]? = some c →
    groupTable w' ptr (khzList.length - clocks.length + j) =
      adjusted (withRate (groupTable w ptr (khzList.length - clocks.length + j)) c)

theorem RatesWritten.nil (w : Words) (ptr : ℤ) : RatesWritten adjusted [] w w ptr :=
  ⟨Frame.refl _ _ _, fun _ _ => rfl, fun j c h => by simp at h⟩

/-- the words behind one step of the loop -/
def wroteRate (env : PcvEnv) (w : Words) (ptr : ℤ) (i khz : ℕ) : Words :=
  env.eristaAdjust (tableList ptr i) (Function.update w (tableList ptr i + mtcRateKhz) (BitVec.ofNat 32 khz))

theorem exec_writeRates_cons (ptr : ℤ) {clock : ℕ} (hclock : clock ≠ 0) (clocks : List ℕ) (i : ℕ) (s : PcvState) :
    (writeRates env ptr (i + 1) (clock :: clocks)).exec s =
      (writeRates env ptr i clocks).exec
        { s with words := wroteRate env s.words ptr (khzList.length - (i + 1)) clock } := by
  rw [writeRates, if_neg hclock, exec_bind, exec_patchOffset]
  dsimp only
  rw [exec_bind, exec_adjustTableAt]
  rfl

/-- the branch of an array with a clock above the limit, up to the move to the front -/
theorem exec_sorted_of_raised (ptr : ℤ) {s : PcvState} (hvalid : validTables s.words ptr = true)
    (hmax : emcClkOSLimit < maxOfArr s.maxEmcClocks) (shifts : ℕ) (hshifts : tableShiftsOf s.maxEmcClocks = shifts) :
    (memFreqMtcTableSorted env ptr).exec s =
      (do
        forEach (fun i => copyWords (tableList ptr (khzList.length - i - 1))
          (tableList ptr (khzList.length - shifts - 1)) mtcTableWords) (List.range shifts)
        writeRates env ptr shifts (dropDuplicates s.maxEmcClocks) : PatchM Unit).exec
        ⟨moved s.words (tableList ptr 0) (tableList ptr shifts) (mtcTableWords * (khzList.length - shifts)),
          dropDuplicates s.maxEmcClocks⟩ := by
  rw [memFreqMtcTableSorted, exec_bind, exec_image]
  dsimp only
  rw [hvalid, rUnless, if_pos rfl, exec_bind, exec_pure]
  dsimp only
  rw [exec_bind, exec_peek]
  dsimp only
  rw [if_neg (not_le.2 hmax), exec_bind, exec_poke]
  dsimp only
  rw [exec_bind, exec_copyWords, hshifts]

section Adjust

variable (hadjust : AdjustsTable env.eristaAdjust adjusted)
include hadjust

/-- one table gets its rate and is adjusted to it -/
theorem groupTable_adjusted (w : Words) (ptr : ℤ) {i : ℕ} (hi : i < khzList.length) (khz k : ℕ) :
    let w' := env.eristaAdjust (tableList ptr i) (Function.update w (tableList ptr i + mtcRateKhz) (BitVec.ofNat 32 khz))
    GroupFrame ptr w w' ∧
      groupTable w' ptr k = if k = i then adjusted (withRate (groupTable w ptr i) khz) else groupTable w ptr k := by
  intro w'
  have hcell : tableList ptr i + mtcRateKhz = tableList ptr 0 + mtcTableWords * i + (rateField : ℕ) := by
    rw [← tableList_eq]
    rfl
  have hrate := record_update w (tableList ptr 0) i k rateField (BitVec.ofNat 32 khz)
  have hwrite : Frame (tableList ptr i) (tableList ptr i + mtcTableWords) w
      (Function.update w (tableList ptr i + mtcRateKhz) (BitVec.ofNat 32 khz)) :=
    frame_update (by unfold mtcRateKhz; omega) (by unfold mtcRateKhz mtcTableWords; omega)
  have hframe := hadjust.frame (tableList ptr i) (Function.update w (tableList ptr i + mtcRateKhz) (BitVec.ofNat 32 khz))
  refine ⟨(groupFrame_of_table hi (hwrite.trans hframe)).1, ?_⟩
  by_cases hk : k = i
  · subst hk
    rw [← hcell, if_pos rfl] at hrate
    rw [if_pos rfl, ← record_tableList, hadjust.table, record_tableList, groupTable, hrate]
    rfl
  · rw [if_neg hk, (groupFrame_of_table hi (hwrite.trans hframe)).2 k hk]

/-- the clock in front goes to the table before those of the others -/
theorem RatesWritten.cons {w w' : Words} {ptr : ℤ} {clock : ℕ} {clocks : List ℕ} (hfew : clocks.length < khzList.length)
    (h : RatesWritten adjusted clocks (wroteRate env w ptr (khzList.length - (clocks.length + 1)) clock) w' ptr) :
    RatesWritten adjusted (clock :: clocks) w w' ptr := by
  have hhead := fun k => groupTable_adjusted hadjust w ptr (i := khzList.length - (clocks.length + 1)) (by omega) clock k
  refine ⟨(hhead 0).1.trans h.frame, ?_, ?_⟩
  · intro k hk
    rw [List.length_cons] at hk
    rw [h.kept k (by omega), wroteRate, (hhead k).2, if_neg (by omega)]
  · intro j c hc
    rw [List.length_cons]
    rcases j with _ | j
    · obtain rfl : clock = c := by simpa using hc
      rw [Nat.add_zero, h.kept _ (by omega), wroteRate, (hhead _).2, if_pos rfl]
    · have hnext := h.written j c (by simpa using hc)
      rw [show khzList.length - (clocks.length + 1) + (j + 1) = khzList.length - clocks.length + j by omega, hnext,
        wroteRate, (hhead _).2, if_neg (by omega)]

/-- the loop skips the cleared clocks, and ends when there is no table left for one -/
theorem exec_writeRates (ptr : ℤ) {clocks : List ℕ} (hfew : (clocks.filter (· ≠ 0)).length ≤ khzList.length)
    (s : PcvState) : ∃ w',
      (writeRates env ptr (clocks.filter (· ≠ 0)).length clocks).exec s = (.ok (), { s with words := w' }) ∧
        RatesWritten adjusted (clocks.filter (· ≠ 0)) s.words w' ptr := by
  induction clocks generalizing s with
  | nil => exact ⟨s.words, rfl, RatesWritten.nil _ _⟩
  | cons clock clocks ih =>
    by_cases hclock : clock = 0
    · have hfilter : (clock :: clocks).filter (· ≠ 0) = clocks.filter (· ≠ 0) := List.filter_cons_of_neg (by simp [hclock])
      rw [hfilter] at hfew ⊢
      cases hkept : clocks.filter (· ≠ 0) with
      | nil => exact ⟨s.words, rfl, RatesWritten.nil _ _⟩
      | cons next rest =>
        obtain ⟨w', hexec, hwritten⟩ := ih hfew s
        rw [hkept] at hexec hwritten
        refine ⟨w', ?_, hwritten⟩
        rw [List.length_cons, writeRates, if_pos hclock]
        exact hexec
    · have hfilter : (clock :: clocks).filter (· ≠ 0) = clock :: clocks.filter (· ≠ 0) :=
        List.filter_cons_of_pos (by simp [hclock])
      rw [hfilter, List.length_cons] at hfew ⊢
      obtain ⟨w', hexec, hwritten⟩ := ih (by omega)
        { s with words := wroteRate env s.words ptr (khzList.length - ((clocks.filter (· ≠ 0)).length + 1)) clock }
      exact ⟨w', (exec_writeRates_cons ptr hclock clocks _ s).trans hexec, hwritten.cons hadjust hfew⟩

/-! ## One group -/

/-- the tables move down by the number of clocks, and the last one is copied behind them, at each clock in order -/
structure GroupShifted (adjusted : TableWords → TableWords) (clocks : List ℕ) (w w' : Words) (ptr : ℤ) : Prop where
  shifted : ∀ i < khzList.length - clocks.length, groupTable w' ptr i = groupTable w ptr (i + clocks.length)
  copied : ∀ (j c : ℕ), clocks[j]? = some c →
    groupTable w' ptr (khzList.length - clocks.length + j) =
      adjusted (withRate (groupTable w ptr (khzList.length - 1)) c)

theorem exec_memFreqMtcTableSorted (ptr : ℤ) {s : PcvState} (hvalid : validTables s.words ptr = true)
    (hsorted : s.maxEmcClocks.Pairwise (· ≤ ·)) (hmax : emcClkOSLimit < maxOfArr s.maxEmcClocks)
    (hfew : (raisedClocks s.maxEmcClocks).length < khzList.length) :
    ∃ w', (memFreqMtcTableSorted env ptr).exec s = (.ok (), ⟨w', dropDuplicates s.maxEmcClocks⟩) ∧
      GroupFrame ptr s.words w' ∧ GroupShifted adjusted (raisedClocks s.maxEmcClocks) s.words w' ptr := by
  have hlast : ∀ c ∈ s.maxEmcClocks.getLast?, 0 < c := fun c hc =>
    Nat.zero_lt_of_lt (getLast?_sorted hsorted hmax c hc)
  have hne : s.maxEmcClocks ≠ [] := by
    intro h
    rw [h] at hmax
    exact absurd hmax (by decide)
  have hkept := dropDuplicates_eq hsorted hmax
  have hshifts := tableShiftsOf_eq hlast hne
  rw [hkept] at hshifts
  -- the copies and the rates, behind the move to the front
  set shifts := (raisedClocks s.maxEmcClocks).length with hshiftsdef
  obtain ⟨w2, hcopies, hframe2, htables2⟩ := exec_copyLoop ptr (khzList.length - shifts - 1)
    (List.range shifts) (fun i hi => (List.mem_range.1 hi).trans hfew)
    (fun i hi => by have := List.mem_range.1 hi; omega)
    ⟨moved s.words (tableList ptr 0) (tableList ptr shifts) (mtcTableWords * (khzList.length - shifts)),
      dropDuplicates s.maxEmcClocks⟩
  obtain ⟨w3, hrates, hwritten⟩ := exec_writeRates hadjust ptr (by rw [hkept]; exact hfew.le)
    ⟨w2, dropDuplicates s.maxEmcClocks⟩
  rw [hkept, ← hshiftsdef] at hrates
  rw [hkept] at hwritten
  have hframe1 := groupFrame_moved s.words ptr hfew.le
  refine ⟨w3, ?_, (hframe1.trans hframe2).trans hwritten.frame, ?_, ?_⟩
  · rw [exec_sorted_of_raised ptr hvalid hmax shifts hshifts, exec_bind, hcopies]
    exact hrates
  · intro i hi
    rw [hwritten.kept i hi, htables2, if_neg, groupTable_moved, if_pos hi]
    rintro ⟨k, hk, hik⟩
    have := List.mem_range.1 hk
    omega
  · intro j c hc
    have hj : j < shifts := (List.getElem?_eq_some_iff.1 hc).1
    rw [hwritten.written j c hc, htables2,
      if_pos ⟨shifts - 1 - j, List.mem_range.2 (by omega), by omega⟩, groupTable_moved, if_pos (by omega)]
    rw [show khzList.length - shifts - 1 + shifts = khzList.length - 1 by omega]

/-- **one group, and the clocks it leaves for the next** -/
theorem memFreqMtcTable_group {ptr : ℤ} {s : PcvState} {clocks : List ℕ} (hvalid : validTables s.words ptr = true)
    (hclocks : raisedClocks s.maxEmcClocks = clocks) (hne : clocks ≠ []) (hfew : clocks.length < khzList.length) :
    ∃ s', (memFreqMtcTable env ptr).exec s = (.ok (), s') ∧ GroupFrame ptr s.words s'.words ∧
      GroupShifted adjusted clocks s.words s'.words ptr ∧ raisedClocks s'.maxEmcClocks = clocks := by
  have hsort : raisedClocks (s.maxEmcClocks.mergeSort (· ≤ ·)) = clocks := by
    rw [← hclocks]
    apply eq_raisedClocks (raisedClocks_pairwise _)
    intro c
    rw [mem_raisedClocks, List.mem_mergeSort]
  have hsorted : (s.maxEmcClocks.mergeSort (· ≤ ·)).Pairwise (· ≤ ·) := by
    simpa using List.pairwise_mergeSort' (· ≤ ·) s.maxEmcClocks
  have hmax : emcClkOSLimit < maxOfArr (s.maxEmcClocks.mergeSort (· ≤ ·)) := by
    obtain ⟨c, hc⟩ := List.exists_mem_of_ne_nil clocks hne
    rw [← hsort, mem_raisedClocks] at hc
    exact lt_maxOfArr.2 ⟨c, hc⟩
  obtain ⟨w', hexec, hframe, hgroup⟩ := exec_memFreqMtcTableSorted hadjust ptr
    (s := { s with maxEmcClocks := s.maxEmcClocks.mergeSort (· ≤ ·) }) hvalid hsorted hmax (by rwa [hsort])
  rw [hsort] at hgroup
  refine ⟨⟨w', dropDuplicates (s.maxEmcClocks.mergeSort (· ≤ ·))⟩, ?_, hframe, hgroup,
    (raisedClocks_dropDuplicates hsorted hmax).trans hsort⟩
  rw [memFreqMtcTable, exec_bind]
  exact hexec

/-- the rates of a shifted group: the stock ones behind the first, and the clocks -/
theorem groupRates_eq {w w' : Words} {ptr : ℤ} {clocks : List ℕ} (hvalid : validTables w ptr = true)
    (hgroup : GroupShifted adjusted clocks w w' ptr) (hfew : clocks.length < khzList.length)
    (hu32 : ∀ c ∈ clocks, c < 2 ^ 32) : groupRates w' ptr = khzList.drop clocks.length ++ clocks := by
  apply List.ext_getElem?
  intro i
  have hdrop : (khzList.drop clocks.length).length = khzList.length - clocks.length := List.length_drop
  by_cases hi : i < khzList.length
  · rw [groupRates, List.getElem?_map, List.getElem?_range hi, Option.map_some]
    by_cases hbelow : i < khzList.length - clocks.length
    · have hin : i + clocks.length < khzList.length := by omega
      rw [List.getElem?_append_left (by omega), List.getElem?_drop, Nat.add_comm clocks.length, hgroup.shifted i hbelow,
        List.getElem?_eq_getElem hin, rate_of_valid hvalid (List.getElem?_eq_getElem hin)]
    · have hin : i - (khzList.length - clocks.length) < clocks.length := by omega
      have hcopy := hgroup.copied _ _ (List.getElem?_eq_getElem hin)
      rw [show khzList.length - clocks.length + (i - (khzList.length - clocks.length)) = i by omega] at hcopy
      rw [List.getElem?_append_right (by omega), hdrop, List.getElem?_eq_getElem hin, hcopy, hadjust.rate, withRate,
        Function.update_self, BitVec.toNat_ofNat, Nat.mod_eq_of_lt (hu32 _ (List.getElem_mem hin))]
  · rw [List.getElem?_eq_none (by simpa [groupRates] using not_lt.1 hi), List.getElem?_eq_none]
    rw [List.length_append, hdrop]
    omega

end Adjust

theorem ascending_rates {clocks : List ℕ} (hclocks : clocks.Pairwise (· < ·)) (hover : ∀ c ∈ clocks, emcClkOSLimit < c) :
    (khzList.drop clocks.length ++ clocks).Pairwise (· < ·) := by
  have hstock : khzList.Pairwise (· < ·) ∧ ∀ khz ∈ khzList, khz ≤ emcClkOSLimit := by decide
  rw [List.pairwise_append]
  refine ⟨hstock.1.sublist (List.drop_sublist _ _), hclocks, ?_⟩
  intro khz hkhz c hc
  exact (hstock.2 khz (List.mem_of_mem_drop hkhz)).trans_lt (hover c hc)

/-! ## The groups of a run -/

/-- two groups have no word in common -/
def Apart (ptr ptr' : ℤ) : Prop := ptr + mtcTableWords * khzList.length ≤ ptr' ∨ ptr' + mtcTableWords * khzList.length ≤ ptr

/-- what is done to one group does not change another -/
theorem groupTable_of_apart {ptr ptr' : ℤ} {w w' : Words} (hapart : Apart ptr ptr') (h : GroupFrame ptr w w') {i : ℕ}
    (hi : i < khzList.length) : groupTable w' ptr' i = groupTable w ptr' i := by
  apply record_of_frame h
  have hlen : khzList.length = 10 := rfl
  unfold Apart mtcTableWords at hapart
  unfold tableList mtcRateKhz mtcTableWords
  rw [hlen] at hapart hi ⊢
  omega

theorem validTables_congr {ptr : ℤ} {w w' : Words} (h : ∀ i < khzList.length, groupTable w' ptr i = groupTable w ptr i)
    (hvalid : validTables w ptr = true) : validTables w' ptr = true := by
  rw [validTables_iff] at hvalid ⊢
  intro i khz hi
  rw [h i (List.getElem?_eq_some_iff.1 hi).1]
  exact hvalid i khz hi

/-- a group that had its turn between two steps that left it alone -/
theorem GroupShifted.congr {adjusted : TableWords → TableWords} {clocks : List ℕ} {w w1 w2 w' : Words} {ptr : ℤ}
    (h : GroupShifted adjusted clocks w1 w2 ptr) (hbefore : ∀ i < khzList.length, groupTable w1 ptr i = groupTable w ptr i)
    (hafter : ∀ i < khzList.length, groupTable w' ptr i = groupTable w2 ptr i) (hfew : clocks.length < khzList.length) :
    GroupShifted adjusted clocks w w' ptr := by
  refine ⟨?_, ?_⟩
  · intro i hi
    rw [hafter i (by omega), h.shifted i hi, hbefore _ (by omega)]
  · intro j c hc
    have hj := (List.getElem?_eq_some_iff.1 hc).1
    rw [hafter _ (by omega), h.copied j c hc, hbefore _ (by omega)]

/-- the run, by induction on the groups: each is as it was when its turn comes, and finds the clocks of the first -/
theorem exec_groups {env : PcvEnv} {adjusted : TableWords → TableWords} (hadjust : AdjustsTable env.eristaAdjust adjusted)
    {clocks : List ℕ} (hne : clocks ≠ []) (hfew : clocks.length < khzList.length) {ptrs : List ℤ} {s : PcvState}
    (hclocks : raisedClocks s.maxEmcClocks = clocks) (hvalid : ∀ ptr ∈ ptrs, validTables s.words ptr = true)
    (hapart : ptrs.Pairwise Apart) :
    ∃ s', (forEach (memFreqMtcTable env) ptrs).exec s = (.ok (), s') ∧
      (∀ ptr ∈ ptrs, GroupShifted adjusted clocks s.words s'.words ptr) ∧
      ∀ other, (∀ ptr ∈ ptrs, Apart ptr other) →
        ∀ i < khzList.length, groupTable s'.words other i = groupTable s.words other i := by
  induction ptrs generalizing s with
  | nil => exact ⟨s, rfl, by simp, fun _ _ _ _ => rfl⟩
  | cons ptr ptrs ih =>
    obtain ⟨hhead, htail⟩ := List.pairwise_cons.1 hapart
    obtain ⟨hfirst, hrest⟩ := List.forall_mem_cons.1 hvalid
    obtain ⟨s1, hexec, hframe, hgroup, hclocks1⟩ := memFreqMtcTable_group hadjust hfirst hclocks hne hfew
    have hlater : ∀ ptr' ∈ ptrs, ∀ i < khzList.length, groupTable s1.words ptr' i = groupTable s.words ptr' i :=
      fun ptr' hptr' i hi => groupTable_of_apart (hhead ptr' hptr') hframe hi
    obtain ⟨s', hrun, hgroups, hothers⟩ := ih hclocks1
      (fun ptr' hptr' => validTables_congr (hlater ptr' hptr') (hrest ptr' hptr')) htail
    refine ⟨s', ?_, ?_, ?_⟩
    · rw [forEach, exec_bind, hexec]
      exact hrun
    · intro ptr' hptr'
      rcases List.mem_cons.1 hptr' with rfl | hptr'
      · exact hgroup.congr (fun _ _ => rfl) (hothers ptr' fun p hp => (hhead p hp).symm) hfew
      · exact (hgroups ptr' hptr').congr (hlater ptr' hptr') (fun _ _ => rfl) hfew
    · intro other hother i hi
      rw [hothers other (fun p hp => hother p (List.mem_cons_of_mem ptr hp)) i hi]
      exact groupTable_of_apart (hother ptr List.mem_cons_self) hframe hi

/-- **every group of a run is shifted by the same clocks: its rates are the stock ones behind the first, and the distinct
maxima above the OS limit** -/
theorem memFreqMtcTable_groups {C : CustomizeTable} {env : PcvEnv} {adjusted : TableWords → TableWords}
    (hadjust : AdjustsTable env.eristaAdjust adjusted) (hu32 : ∀ c ∈ maxEmcClocks C, c < 2 ^ 32)
    (hmax : emcClkOSLimit < maxOfArr (maxEmcClocks C)) {w : Words} {ptrs : List ℤ}
    (hvalid : ∀ ptr ∈ ptrs, validTables w ptr = true) (hapart : ptrs.Pairwise Apart) :
    ∃ s', (forEach (memFreqMtcTable env) ptrs).exec ⟨w, maxEmcClocks C⟩ = (.ok (), s') ∧
      ∀ ptr ∈ ptrs, GroupShifted adjusted (raisedClocks (maxEmcClocks C)) w s'.words ptr ∧
        groupRates s'.words ptr =
          khzList.drop (raisedClocks (maxEmcClocks C)).length ++ raisedClocks (maxEmcClocks C) ∧
        (groupRates s'.words ptr).Pairwise (· < ·) := by
  have hfew : (raisedClocks (maxEmcClocks C)).length < khzList.length := by
    have hsub := (raisedClocks_pairwise (maxEmcClocks C)).nodup.subperm fun c hc => (mem_raisedClocks.1 hc).1
    exact hsub.length_le.trans_lt (show 3 < 10 by decide)
  have hne : raisedClocks (maxEmcClocks C) ≠ [] := by
    obtain ⟨c, hc⟩ := lt_maxOfArr.1 hmax
    exact List.ne_nil_of_mem (mem_raisedClocks.2 hc)
  obtain ⟨s', hrun, hgroups, -⟩ := exec_groups hadjust hne hfew (s := ⟨w, maxEmcClocks C⟩) rfl hvalid hapart
  refine ⟨s', hrun, ?_⟩
  intro ptr hptr
  have hrates := groupRates_eq hadjust (hvalid ptr hptr) (hgroups ptr hptr) hfew
    fun c hc => hu32 c (mem_raisedClocks.1 hc).1
  refine ⟨hgroups ptr hptr, hrates, ?_⟩
  rw [hrates]
  exact ascending_rates (raisedClocks_pairwise _) fun c hc => (mem_raisedClocks.1 hc).2

/-- groups of stock tables one behind the other, from the start of the NSO on -/
def groupImage : Words := fun p =>
  if p % mtcTableWords = 0 then 7
  else if p % mtcTableWords = 16 then BitVec.ofNat 32 (khzList.getD (p / mtcTableWords % 10).toNat 0)
  else 0

/-- the cycles of the shipped configuration; what hardly moves with the rate is that of 2131.2 MHz -/
def sampleCycles (rateKhz : ℕ) : Cycles :=
  let getCycleCeil (ps : ℕ) := (ps * rateKhz + 999999999) / 1000000000
  { tRCD := getCycleCeil 18000, tRC := getCycleCeil 60000, tRAS := getCycleCeil 42000, tRRD := getCycleCeil 10000
    tRFCpb := getCycleCeil 90000, tRFCab := getCycleCeil 180000, tRPpb := getCycleCeil 18000, tXSR := getCycleCeil 187500
    tFAW := getCycleCeil 40000, tRPab := getCycleCeil 21000, tSR := getCycleCeil 15000, tXP := getCycleCeil 7500
    tCKE := getCycleCeil 7425, tPCHG2PDEN := getCycleCeil 1763, tAR2PDEN := getCycleCeil 1750
    tPDEX2CKE := getCycleCeil 1050, tACT2PDEN := getCycleCeil 14000, tCKE2PDEN := getCycleCeil 8499
    pdex2mrr := getCycleCeil 28000 + 3, tCLKSTOP := 26, tR2P := 12, tR2W := 43, tW2P := 45, tW2R := 37, pdex2rw := 22
    tWTPDEN := 57, refresh := getCycleCeil 3900000 - 0x40, dynSelfRef := 7605 * rateKhz / 1000000, t_rp := 90, t_rfc := 180 }

def adjustEnv (C : CustomizeTable) : PcvEnv where
  dramId := 0
  i2cOpenSession := fun _ => none
  i2csessionSendAuto := fun _ _ _ => none
  svcQueryMemoryMapping := fun _ => .ok 0
  readWord := fun _ => 0
  marikoAdjust := fun _ w => w
  eristaAdjust := memMtcTableAutoAdjust C sampleCycles

/-- two maxima above the OS limit, and the highest of them twice -/
def raisedCustomize : CustomizeTable :=
  { sampleCustomize with
    eristaEmcMaxClock := 2131200
    eristaEmcMaxClock1 := 1862400
    eristaEmcMaxClock2 := 2131200 }

theorem twoGroups_shifted :
    ∃ s', (forEach (memFreqMtcTable (adjustEnv raisedCustomize)) [11104, 23424]).exec
        ⟨groupImage, maxEmcClocks raisedCustomize⟩ = (.ok (), s') ∧
      ∀ ptr ∈ [11104, 23424],
        GroupShifted (adjustedTable raisedCustomize sampleCycles) (raisedClocks (maxEmcClocks raisedCustomize)) groupImage
          s'.words ptr ∧
        groupRates s'.words ptr =
          khzList.drop (raisedClocks (maxEmcClocks raisedCustomize)).length ++ raisedClocks (maxEmcClocks raisedCustomize) ∧
        (groupRates s'.words ptr).Pairwise (· < ·) :=
  memFreqMtcTable_groups (memMtcTableAutoAdjust_adjusts raisedCustomize sampleCycles) (by decide) (by decide) (by decide)
    (List.pairwise_pair.2 (Or.inl (by decide)))

end RyazhaClk.Loader.Erista
