/-
The governor's pick of a frequency in machine words (`SchedutilTargetHz`, `TableIndexForHz` and the lookup of
`GovernorThread` in `governor.cpp`): scaling by the load in 64 bits, the clamp to the table's maximum, and the linear
search with its fallback index. A table is `count` words in strictly ascending order at the front of an array of 48.

- `tableIndexForHz_refines`, `schedutilTargetHz_refines`: the words compute what the functions on numbers do.
- `schedutilTargetHz_toNat`: no product and no conversion loses a bit.
- `governor_choice`: the index is the least one whose frequency reaches the scaled and clamped load, the frequency is
  monotone in the load and is the table's maximum from a load of 900 on.
-/
import Mathlib.Tactic
import RyazhaClk.Lib.Ascending
import RyazhaClk.Sysmodule.Governor

namespace RyazhaClk

open RyazhaClk.Ascending

/-! ## Tables in memory -/

/-- `clockManager::FreqTable` with at least one entry, in strictly ascending order -/
structure FreqTableWords where
  count : UInt32
  list : Vector UInt32 HOCCLK_FREQ_LIST_MAX
  count_pos : 0 < count.toNat
  count_le : count.toNat ≤ HOCCLK_FREQ_LIST_MAX
  ascending : (list.toList.take count.toNat).Pairwise (· < ·)

namespace FreqTableWords

variable (t : FreqTableWords)

/-- the entries in use -/
def entries : List UInt32 := t.list.toList.take t.count.toNat

@[simp] theorem length_entries : t.entries.length = t.count.toNat := by
  have hle := t.count_le
  simp [entries, hle]

theorem getElem?_entries {i : ℕ} (hi : i < t.count.toNat) : t.entries[i]? = t.list[i]? := by
  rw [entries, List.getElem?_take_of_lt hi, Vector.getElem?_toList]

theorem entries_ne_nil : t.entries ≠ [] := by
  have hpos := t.count_pos
  rw [← List.length_pos_iff, length_entries]
  exact hpos

/-- `table.count - 1` does not wrap -/
theorem toNat_count_sub_one : (t.count - 1).toNat = t.count.toNat - 1 := by
  apply UInt32.toNat_sub_of_le
  rw [UInt32.le_iff_toNat_le]
  exact t.count_pos

theorem count_sub_one_lt : (t.count - 1).toNat < HOCCLK_FREQ_LIST_MAX := by
  have hpos := t.count_pos
  have hle := t.count_le
  rw [toNat_count_sub_one]
  omega

/-- `tableMaxHz = table.list[table.count - 1]` -/
def tableMaxHz : UInt32 := t.list.get ⟨(t.count - 1).toNat, t.count_sub_one_lt⟩

theorem getElem?_last : t.entries[t.count.toNat - 1]? = some t.tableMaxHz := by
  have hpos := t.count_pos
  have hlt := t.count_sub_one_lt
  rw [getElem?_entries t (by omega), ← toNat_count_sub_one, Vector.getElem?_eq_getElem hlt]
  rfl

/-! ## Picking an entry -/

/-- the loop of `TableIndexForHz` from index `i`; `none` when the fuel runs out first or the read leaves the array -/
def indexLoop (targetHz : UInt32) : ℕ → UInt32 → Option UInt32
  | 0, _ => none
  | fuel + 1, i =>
    if i < t.count then
      t.list[i.toNat]?.bind fun e => if targetHz ≤ e then some i else indexLoop targetHz fuel (i + 1)
    else some (t.count - 1)

def tableIndexForHz (targetHz : UInt32) : Option UInt32 := t.indexLoop targetHz (HOCCLK_FREQ_LIST_MAX + 1) 0

end FreqTableWords

/-- `SchedutilTargetHz` in words: `(u64)tableMaxHz * util / STEP_UTIL`, cut at `tableMaxHz` -/
def schedutilTargetHzWords (util tableMaxHz : UInt32) : UInt32 :=
  let hz : UInt64 := tableMaxHz.toUInt64 * util.toUInt64 / 900
  (min hz tableMaxHz.toUInt64).toUInt32

namespace FreqTableWords

variable (t : FreqTableWords)

/-- `table.list[TableIndexForHz(table, SchedutilTargetHz(util, tableMaxHz))]` -/
def chosenHz (util : UInt32) : Option UInt32 :=
  (t.tableIndexForHz (schedutilTargetHzWords util t.tableMaxHz)).bind fun i => t.list[i.toNat]?

/-! ## No intermediate value overflows -/

theorem toNat_scaled (util tableMaxHz : UInt32) :
    (tableMaxHz.toUInt64 * util.toUInt64).toNat = tableMaxHz.toNat * util.toNat := by
  have hmax : tableMaxHz.toNat < 2 ^ 32 := tableMaxHz.toNat_lt
  have hutil : util.toNat < 2 ^ 32 := util.toNat_lt
  have hlt : tableMaxHz.toNat * util.toNat < 2 ^ 64 :=
    calc tableMaxHz.toNat * util.toNat < 2 ^ 32 * 2 ^ 32 := Nat.mul_lt_mul'' hmax hutil
      _ = 2 ^ 64 := by norm_num
  rw [UInt64.toNat_mul, UInt32.toNat_toUInt64, UInt32.toNat_toUInt64, Nat.mod_eq_of_lt hlt]

/-- the conversion back to 32 bits keeps the clamped value -/
theorem toNat_clamped (hz : UInt64) (tableMaxHz : UInt32) :
    (min hz tableMaxHz.toUInt64).toUInt32.toNat = min hz.toNat tableMaxHz.toNat := by
  have hmax : tableMaxHz.toNat < 2 ^ 32 := tableMaxHz.toNat_lt
  rw [UInt64.toNat_toUInt32, UInt64.toNat_min, UInt32.toNat_toUInt64, Nat.mod_eq_of_lt]
  exact (min_le_right _ _).trans_lt hmax

theorem schedutilTargetHz_toNat (util tableMaxHz : UInt32) : (schedutilTargetHzWords util tableMaxHz).toNat =
    min (tableMaxHz.toNat * util.toNat / 900) tableMaxHz.toNat := by
  have hdiv : (tableMaxHz.toUInt64 * util.toUInt64 / 900).toNat = tableMaxHz.toNat * util.toNat / 900 := by
    rw [UInt64.toNat_div, toNat_scaled]
    rfl
  rw [schedutilTargetHzWords, toNat_clamped, hdiv]

theorem schedutilTargetHz_refines (util tableMaxHz : UInt32) :
    (schedutilTargetHzWords util tableMaxHz).toNat = schedutilTargetHz util.toNat tableMaxHz.toNat :=
  schedutilTargetHz_toNat util tableMaxHz

/-- `i++` does not wrap while `i` is below `count` -/
theorem toNat_succ {i : UInt32} (hi : i < t.count) : (i + 1).toNat = i.toNat + 1 := by
  have hcount : t.count.toNat ≤ 48 := t.count_le
  have hlt : i.toNat < t.count.toNat := UInt32.lt_iff_toNat_lt.1 hi
  rw [UInt32.toNat_add]
  exact Nat.mod_eq_of_lt (by simp; omega)

/-! ## The search -/

/-- **From index `i` on the loop finds the first entry that reaches the target**, reading no word behind the table. -/
theorem indexLoop_eq (targetHz : UInt32) (fuel : ℕ) (i : UInt32) (hfuel : t.count.toNat < i.toNat + fuel)
    (hi : i.toNat ≤ t.count.toNat) :
    ∃ k, t.indexLoop targetHz fuel i = some k ∧ k.toNat =
      (((t.entries.drop i.toNat).findIdx? fun e => decide (targetHz ≤ e)).map (· + i.toNat)).getD
        (t.count.toNat - 1) := by
  induction fuel generalizing i with
  | zero => omega
  | succ fuel ih =>
    rw [indexLoop]
    by_cases hlt : i < t.count
    · have hltN : i.toNat < t.count.toNat := UInt32.lt_iff_toNat_lt.1 hlt
      have hlen : i.toNat < t.entries.length := by simpa using hltN
      have hread : t.list[i.toNat]? = some t.entries[i.toNat] := by
        rw [← getElem?_entries t hltN]
        exact List.getElem?_eq_getElem hlen
      rw [if_pos hlt, hread, Option.bind_some, List.drop_eq_getElem_cons hlen, List.findIdx?_cons]
      by_cases hstop : targetHz ≤ t.entries[i.toNat]
      · simp [hstop]
      · have hsucc := t.toNat_succ hlt
        obtain ⟨k, hk, hkval⟩ := ih (i + 1) (by omega) (by omega)
        refine ⟨k, by simp [hstop, hk], ?_⟩
        rw [hkval, hsucc]
        simp [hstop, Option.map_map, Function.comp_def, Nat.add_assoc, Nat.add_comm 1]
    · have hge : t.count.toNat ≤ i.toNat := by
        rw [UInt32.lt_iff_toNat_lt] at hlt
        exact not_lt.1 hlt
      have hdrop : t.entries.drop i.toNat = [] := List.drop_eq_nil_of_le (by simpa using hge)
      refine ⟨t.count - 1, by simp [hlt], ?_⟩
      rw [hdrop, toNat_count_sub_one]
      rfl

/-- the table as the list of its frequencies -/
def toFreqTable : FreqTable where
  first := (t.entries.head t.entries_ne_nil).toNat
  rest := t.entries.tail.map UInt32.toNat

@[simp] theorem list_toFreqTable : t.toFreqTable.list = t.entries.map UInt32.toNat := by
  calc t.toFreqTable.list = (t.entries.head t.entries_ne_nil :: t.entries.tail).map UInt32.toNat := rfl
    _ = t.entries.map UInt32.toNat := by rw [List.cons_head_tail]

theorem toFreqTable_strict : t.toFreqTable.list.Pairwise (· < ·) := by
  rw [list_toFreqTable, List.pairwise_map]
  exact t.ascending.imp UInt32.lt_iff_toNat_lt.1

theorem toFreqTable_ascending : t.toFreqTable.Ascending := t.toFreqTable_strict.imp le_of_lt

theorem last_toFreqTable : t.toFreqTable.last = t.tableMaxHz.toNat := by
  have hlast := t.getElem?_last
  rw [← length_entries, ← List.getLast?_eq_getElem?] at hlast
  have hmap : t.toFreqTable.list.getLast? = some t.tableMaxHz.toNat := by
    rw [list_toFreqTable, List.getLast?_map, hlast]
    rfl
  exact Option.some.inj ((List.getLast?_eq_some_getLast (List.cons_ne_nil _ _)).symm.trans hmap)

/-- the search in words answers the index that the search on numbers does -/
theorem tableIndexForHz_refines (targetHz : UInt32) : ∃ i, t.tableIndexForHz targetHz = some i ∧
    i.toNat = RyazhaClk.tableIndexForHz t.toFreqTable targetHz.toNat := by
  have hcount := t.count_le
  obtain ⟨i, hi, hval⟩ := t.indexLoop_eq targetHz (HOCCLK_FREQ_LIST_MAX + 1) 0 (by simp; omega) (by simp)
  refine ⟨i, hi, ?_⟩
  rw [hval, RyazhaClk.tableIndexForHz, list_toFreqTable, List.findIdx?_map]
  simp [Function.comp_def, UInt32.le_iff_toNat_le]

/-- with neither a target nor a cap the governor looks the scaled load up -/
theorem governorNewHz_free (table : FreqTable) (load : ℕ) :
    governorNewHz table load 0 0 = tableHz table (schedutilTargetHz load table.last) := by
  simp [governorNewHz, governorDesiredHz]

/-- the lookup answers the entry that the lookup on numbers does -/
theorem chosenHz_refines (util : UInt32) : ∃ hz, t.chosenHz util = some hz ∧
    hz.toNat = governorNewHz t.toFreqTable util.toNat 0 0 := by
  obtain ⟨i, hi, hval⟩ := t.tableIndexForHz_refines (schedutilTargetHzWords util t.tableMaxHz)
  have hentry := getElem?_tableIndexForHz t.toFreqTable (schedutilTargetHzWords util t.tableMaxHz).toNat
  rw [← hval, list_toFreqTable, List.getElem?_map] at hentry
  obtain ⟨hz, hhz, hhzval⟩ := Option.map_eq_some_iff.1 hentry
  have hlt : i.toNat < t.count.toNat := by
    simpa using (List.getElem?_eq_some_iff.1 hhz).1
  refine ⟨hz, ?_, ?_⟩
  · rw [chosenHz, hi, Option.bind_some, ← getElem?_entries t hlt]
    exact hhz
  · rw [hhzval, schedutilTargetHz_refines, ← last_toFreqTable, governorNewHz_free]

/-! ## The governor's choice -/

/-- the indices of the entries that reach a frequency -/
def reaching (hz : ℕ) : Set ℕ := {k | ∃ e : UInt32, t.entries[k]? = some e ∧ hz ≤ e.toNat}

/-- the index answered for a target is the least one whose frequency reaches it, or reaches the maximum -/
theorem tableIndexForHz_isLeast (targetHz : UInt32) : ∃ i, t.tableIndexForHz targetHz = some i ∧
    IsLeast (t.reaching (min t.tableMaxHz.toNat targetHz.toNat)) i.toNat := by
  obtain ⟨i, hi, hval⟩ := t.tableIndexForHz_refines targetHz
  have hleast := isLeast_findIdx?_getD t.toFreqTable_strict (List.cons_ne_nil _ _) targetHz.toNat
  have hset : {k | ∃ f, t.toFreqTable.list[k]? = some f ∧ min targetHz.toNat t.toFreqTable.last ≤ f} =
      t.reaching (min t.tableMaxHz.toNat targetHz.toNat) := by
    ext k
    simp [last_toFreqTable, reaching, min_comm]
  refine ⟨i, hi, ?_⟩
  rw [hval, ← hset]
  exact hleast

theorem chosenHz_mono {util util' : UInt32} (h : util ≤ util') :
    ∃ hz hz', t.chosenHz util = some hz ∧ t.chosenHz util' = some hz' ∧ hz ≤ hz' := by
  obtain ⟨hz, hhz, hval⟩ := t.chosenHz_refines util
  obtain ⟨hz', hhz', hval'⟩ := t.chosenHz_refines util'
  refine ⟨hz, hz', hhz, hhz', ?_⟩
  rw [UInt32.le_iff_toNat_le, hval, hval', governorNewHz_free, governorNewHz_free]
  exact tableHz_mono t.toFreqTable_ascending (schedutilTargetHz_mono (UInt32.le_iff_toNat_le.1 h) _)

theorem chosenHz_full {util : UInt32} (h : 900 ≤ util) : t.chosenHz util = some t.tableMaxHz := by
  obtain ⟨hz, hhz, hval⟩ := t.chosenHz_refines util
  have hfull : schedutilTargetHz util.toNat t.toFreqTable.last = t.toFreqTable.last :=
    schedutilTargetHz_full (UInt32.le_iff_toNat_le.1 h) _
  have hmax : hz = t.tableMaxHz := by
    apply UInt32.toNat_inj.1
    rw [hval, governorNewHz_free, hfull, tableHz_last t.toFreqTable_ascending, last_toFreqTable]
  rw [hhz, hmax]

/-- **The choice.** For every table, load and target: the least index, monotone in the load, the maximum under full
load; the product, the conversion, `count - 1` and `i++` keep their values. -/
theorem governor_choice (t : FreqTableWords) :
    (∀ util : UInt32, ∃ i, t.tableIndexForHz (schedutilTargetHzWords util t.tableMaxHz) = some i ∧
      IsLeast (t.reaching (min t.tableMaxHz.toNat (t.tableMaxHz.toNat * util.toNat / 900))) i.toNat) ∧
    (∀ targetHz : UInt32, ∃ i, t.tableIndexForHz targetHz = some i ∧
      IsLeast (t.reaching (min t.tableMaxHz.toNat targetHz.toNat)) i.toNat) ∧
    (∀ util util' : UInt32, util ≤ util' →
      ∃ hz hz', t.chosenHz util = some hz ∧ t.chosenHz util' = some hz' ∧ hz ≤ hz') ∧
    (∀ util : UInt32, 900 ≤ util → t.chosenHz util = some t.tableMaxHz) ∧
    (∀ util : UInt32, (t.tableMaxHz.toUInt64 * util.toUInt64).toNat = t.tableMaxHz.toNat * util.toNat ∧
      (schedutilTargetHzWords util t.tableMaxHz).toNat =
        min (t.tableMaxHz.toNat * util.toNat / 900) t.tableMaxHz.toNat) ∧
    (t.count - 1).toNat = t.count.toNat - 1 ∧ 0 < t.count.toNat ∧
    ∀ i : UInt32, i < t.count → (i + 1).toNat = i.toNat + 1 := by
  refine ⟨fun util => ?_, t.tableIndexForHz_isLeast, fun _ _ => t.chosenHz_mono, fun _ => t.chosenHz_full,
    fun util => ⟨toNat_scaled util _, schedutilTargetHz_toNat util _⟩, t.toNat_count_sub_one, t.count_pos,
    fun i => t.toNat_succ⟩
  have hleast := t.tableIndexForHz_isLeast (schedutilTargetHzWords util t.tableMaxHz)
  rw [schedutilTargetHz_toNat, min_comm (_ / 900), ← min_assoc, min_self] at hleast
  exact hleast

/-- four steps of 76.8 MHz; words behind the table are not looked at -/
def fourSteps : FreqTableWords where
  count := 4
  list := Vector.ofFn fun i => if i.val < 4 then 76800000 * (UInt32.ofNat i.val + 1) else 0
  count_pos := by decide
  count_le := by decide
  ascending := by decide +kernel

example : fourSteps.chosenHz 450 = some 153600000 := by decide +kernel

end FreqTableWords

end RyazhaClk
