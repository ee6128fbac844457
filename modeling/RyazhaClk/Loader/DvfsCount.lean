/-
`GetDvfsTableEntryCount` and `GetDvfsTableLastEntry` (`pcv_common.hpp`) on memory: the templates see a table of any
element type as rows of `sizeof(T)` bytes behind `table_head`, test a row byte by byte and stop at the first zero row.
Memory answers nothing where nothing may be read, so a table of 31 rows need not go on behind them.

- `entryCount_spec`, `lastEntry_spec`: the count is the first zero row or 31, and the last entry is the row before it.
- `dvfs_count`: both read the first 31 rows only; a row appended at the count moves it to the next zero row.
- `entryCount_cvbTable`: on a stored table of CVB entries the count is that of the patches.
-/
import Mathlib.Tactic
import RyazhaClk.Lib.WordBytes
import RyazhaClk.Loader.PcvPatchers

namespace RyazhaClk.Loader.Dvfs

open WordBytes Terminated

/-! ## The templates -/

/-- a byte at each address that may be read -/
abbrev Memory := ℕ → Option UInt8

/-- the lambda `is_empty` from byte `i` on, with `n` bytes left; `none` where a byte may not be read -/
def isEmptyFrom (mem : Memory) (entry : ℕ) : ℕ → ℕ → Option Bool
  | 0, _ => some true
  | n + 1, i => (mem (entry + i)).bind fun b => if b ≠ 0 then some false else isEmptyFrom mem entry n (i + 1)

/-- `is_empty(entry)` for an element type of `size` bytes -/
def isEmpty (mem : Memory) (size entry : ℕ) : Option Bool := isEmptyFrom mem entry size 0

/-- the counting loop; the pointer moves on inside the test. `none` also when the fuel runs out first -/
def countLoop (mem : Memory) (size : ℕ) : ℕ → ℕ → ℕ → Option ℕ
  | 0, _, _ => none
  | fuel + 1, table, count =>
    if count < dvfsTableEntryLimit then
      (isEmpty mem size table).bind fun empty =>
        if empty then some count else countLoop mem size fuel (table + size) (count + 1)
    else some dvfsTableEntryLimit

/-- `GetDvfsTableEntryCount(table_head)` -/
def getDvfsTableEntryCount (mem : Memory) (size tableHead : ℕ) : Option ℕ :=
  countLoop mem size dvfsTableEntryCount tableHead 0

/-- `GetDvfsTableLastEntry(table_head)`: the address of a row, or the null pointer -/
def getDvfsTableLastEntry (mem : Memory) (size tableHead : ℕ) : Option (Option ℕ) :=
  (getDvfsTableEntryCount mem size tableHead).bind fun count =>
    if count = 0 then some none else some (some (tableHead + size * (count - 1)))

/-! ## Tables -/

/-- a table of at least 31 rows: their bytes may be read, those behind them perhaps not -/
structure Table where
  /-- `sizeof(T)` -/
  size : ℕ
  head : ℕ
  mem : Memory
  mapped : ∀ a, head ≤ a → a < head + size * dvfsTableEntryLimit → (mem a).isSome

namespace Table

variable (t : Table)

/-- the address of row `i` -/
def row (i : ℕ) : ℕ := t.head + t.size * i

def entryCount : Option ℕ := getDvfsTableEntryCount t.mem t.size t.head

def lastEntry : Option (Option ℕ) := getDvfsTableLastEntry t.mem t.size t.head

/-- every byte of row `i` is zero -/
def RowZero (i : ℕ) : Prop := ∀ j < t.size, t.mem (t.row i + j) = some 0

instance (i : ℕ) : Decidable (t.RowZero i) := by unfold RowZero; infer_instance

/-- `c` is the first zero row from row `start` on, or 31 where there is none -/
structure StopsAt (start c : ℕ) : Prop where
  start_le : start ≤ c
  le_limit : c ≤ 31
  before : ∀ i, start ≤ i → i < c → ¬ t.RowZero i
  zero : c < 31 → t.RowZero c

variable {t}

theorem StopsAt.unique {start c c' : ℕ} (h : t.StopsAt start c) (h' : t.StopsAt start c') : c = c' := by
  rcases lt_trichotomy c c' with hlt | heq | hlt
  · exact absurd (h.zero (hlt.trans_le h'.le_limit)) (h'.before c h.start_le hlt)
  · exact heq
  · exact absurd (h'.zero (hlt.trans_le h.le_limit)) (h.before c' h'.start_le hlt)

/-- a row of the table ends before the next one begins -/
theorem row_add_lt {i k j : ℕ} (hik : i < k) (hj : j < t.size) : t.row i + j < t.row k := by
  have hnext : t.size * (i + 1) ≤ t.size * k := Nat.mul_le_mul_left _ hik
  simp only [row, Nat.mul_succ] at hnext ⊢
  omega

theorem mapped_row {i j : ℕ} (hi : i < 31) (hj : j < t.size) : ∃ b, t.mem (t.row i + j) = some b := by
  have hlt : t.row i + j < t.row 31 := row_add_lt hi hj
  have hle : t.head ≤ t.row i + j := by simp [row, Nat.add_assoc]
  exact Option.isSome_iff_exists.1 (t.mapped _ hle hlt)

/-! ## Counting -/

/-- the byte loop tests the bytes that are left, whichever it stops at -/
theorem isEmptyFrom_eq (mem : Memory) (entry n i : ℕ) (hread : ∀ j < n, ∃ b, mem (entry + (i + j)) = some b) :
    isEmptyFrom mem entry n i = some (decide (∀ j < n, mem (entry + (i + j)) = some 0)) := by
  induction n generalizing i with
  | zero => simp [isEmptyFrom]
  | succ n ih =>
    obtain ⟨b, hb⟩ := hread 0 (Nat.succ_pos n)
    rw [Nat.add_zero] at hb
    rw [isEmptyFrom, hb, Option.bind_some]
    by_cases hzero : b = 0
    · have hrest : ∀ j < n, ∃ b, mem (entry + (i + 1 + j)) = some b := by
        intro j hj
        have h := hread (j + 1) (by omega)
        rwa [show i + (j + 1) = i + 1 + j by omega] at h
      have hall : (∀ j < n + 1, mem (entry + (i + j)) = some 0) ↔ ∀ j < n, mem (entry + (i + 1 + j)) = some 0 := by
        constructor
        · intro h j hj
          rw [show i + 1 + j = i + (j + 1) by omega]
          exact h (j + 1) (by omega)
        · intro h j hj
          rcases j with _ | j
          · simpa [hzero] using hb
          · rw [show i + (j + 1) = i + 1 + j by omega]
            exact h j (by omega)
      simp only [hzero, ne_eq, not_true_eq_false, if_false, ih (i + 1) hrest, hall]
    · have hnot : ¬ ∀ j < n + 1, mem (entry + (i + j)) = some 0 := by
        intro h
        have h0 := h 0 (Nat.succ_pos n)
        rw [Nat.add_zero, hb] at h0
        exact hzero (Option.some.inj h0)
      simp only [ne_eq, hzero, not_false_eq_true, if_true, hnot, decide_false]

theorem isEmpty_row {i : ℕ} (hi : i < 31) : isEmpty t.mem t.size (t.row i) = some (decide (t.RowZero i)) := by
  have h := isEmptyFrom_eq t.mem (t.row i) t.size 0 fun j hj => by
    rw [Nat.zero_add]
    exact mapped_row hi hj
  simpa [isEmpty, RowZero] using h

/-- **One loop for all starts**: from row `count` on it stops at the first zero row. -/
theorem countLoop_spec (fuel count : ℕ) (hfuel : 31 < count + fuel) (hcount : count ≤ 31) :
    ∃ c, countLoop t.mem t.size fuel (t.row count) count = some c ∧ t.StopsAt count c := by
  induction fuel generalizing count with
  | zero => omega
  | succ fuel ih =>
    rw [countLoop, show dvfsTableEntryLimit = 31 from rfl]
    by_cases hlt : count < 31
    · rw [if_pos hlt, isEmpty_row hlt, Option.bind_some]
      by_cases hzero : t.RowZero count
      · refine ⟨count, by simp [hzero], le_rfl, hcount, ?_, fun _ => hzero⟩
        intro i hi hic
        omega
      · obtain ⟨c, hc, hstop⟩ := ih (count + 1) (by omega) (by omega)
        have hnext : t.row count + t.size = t.row (count + 1) := by
          simp only [row, Nat.mul_succ, Nat.add_assoc]
        refine ⟨c, by simp [hzero, hnext, hc], by have := hstop.start_le; omega, hstop.le_limit, ?_, hstop.zero⟩
        intro i hi hic
        rcases Nat.eq_or_lt_of_le hi with rfl | hi
        · exact hzero
        · exact hstop.before i hi hic
    · have hlimit : count = 31 := by omega
      subst hlimit
      refine ⟨31, if_neg hlt, le_rfl, le_rfl, ?_, ?_⟩
      · intro i hi hic
        omega
      · exact fun h => absurd h hlt

theorem entryCount_spec (t : Table) : ∃ c, t.entryCount = some c ∧ t.StopsAt 0 c := by
  have h := countLoop_spec (t := t) dvfsTableEntryCount 0 (by decide) (by decide)
  simpa [row, entryCount, getDvfsTableEntryCount] using h

theorem entryCount_eq_some_iff {c : ℕ} : t.entryCount = some c ↔ t.StopsAt 0 c := by
  obtain ⟨c', hc', hstop⟩ := t.entryCount_spec
  rw [hc']
  constructor
  · rintro ⟨⟩
    exact hstop
  · intro h
    rw [hstop.unique h]

theorem lastEntry_spec {c : ℕ} (hc : t.entryCount = some c) :
    t.lastEntry = some (if t.RowZero 0 then none else some (t.row (c - 1))) := by
  have hstop := entryCount_eq_some_iff.1 hc
  have hzero : c = 0 ↔ t.RowZero 0 := by
    constructor
    · rintro rfl
      exact hstop.zero (by decide)
    · intro h
      by_contra hne
      exact hstop.before 0 le_rfl (Nat.pos_of_ne_zero hne) h
  rw [lastEntry, getDvfsTableLastEntry, show getDvfsTableEntryCount t.mem t.size t.head = some c from hc,
    Option.bind_some, row]
  split_ifs with h h' h'
  · rfl
  · exact absurd (hzero.1 h) h'
  · exact absurd (hzero.2 h') h
  · rfl

/-! ## What is read -/

/-- memory that agrees on the first 31 rows -/
structure SameRows (t t' : Table) : Prop where
  size : t'.size = t.size
  head : t'.head = t.head
  mem : ∀ a, t.head ≤ a → a < t.row 31 → t'.mem a = t.mem a

theorem SameRows.row {t t' : Table} (h : SameRows t t') (i : ℕ) : t'.row i = t.row i := by
  rw [Table.row, Table.row, h.size, h.head]

theorem SameRows.rowZero_iff {t t' : Table} (h : SameRows t t') {i : ℕ} (hi : i < 31) : t'.RowZero i ↔ t.RowZero i := by
  unfold RowZero
  rw [h.size, h.row]
  refine forall_congr' fun j => forall_congr' fun hj => ?_
  rw [h.mem _ (by simp [Table.row, Nat.add_assoc]) (row_add_lt hi hj)]

theorem SameRows.stopsAt {t t' : Table} (h : SameRows t t') {start c : ℕ} (hstop : t.StopsAt start c) :
    t'.StopsAt start c where
  start_le := hstop.start_le
  le_limit := hstop.le_limit
  before i hi hic := (h.rowZero_iff (hic.trans_le hstop.le_limit)).not.2 (hstop.before i hi hic)
  zero hc := (h.rowZero_iff hc).2 (hstop.zero hc)

/-- **Rows behind the 31st do not matter**, nor whether they may be read. -/
theorem SameRows.answers {t t' : Table} (h : SameRows t t') :
    t'.entryCount = t.entryCount ∧ t'.lastEntry = t.lastEntry := by
  obtain ⟨c, hc, hstop⟩ := t.entryCount_spec
  have hc' : t'.entryCount = some c := entryCount_eq_some_iff.2 (h.stopsAt hstop)
  rw [hc, hc', lastEntry_spec hc, lastEntry_spec hc', h.row]
  exact ⟨rfl, by simp only [h.rowZero_iff (show 0 < 31 by decide)]⟩

/-! ## Appending -/

/-- row `i` overwritten -/
def setRow (t : Table) (i : ℕ) (bytes : Vector UInt8 t.size) : Table where
  size := t.size
  head := t.head
  mem a := if t.row i ≤ a ∧ a < t.row i + t.size then bytes[a - t.row i]? else t.mem a
  mapped a hle hlt := by
    split_ifs with hin
    · rw [Vector.getElem?_eq_getElem (by omega)]
      rfl
    · exact t.mapped a hle hlt

theorem setRow_rowZero_iff {i k : ℕ} {bytes : Vector UInt8 t.size} :
    (t.setRow i bytes).RowZero k ↔ if k = i then ∀ b ∈ bytes, b = 0 else t.RowZero k := by
  split_ifs with hki
  · subst hki
    have hbyte : ∀ j (hj : j < t.size), (t.setRow k bytes).mem (t.row k + j) = some bytes[j] := by
      intro j hj
      have hin : t.row k ≤ t.row k + j ∧ t.row k + j < t.row k + t.size := by omega
      simp [setRow, hj]
    constructor
    · intro h b hb
      obtain ⟨j, hj, rfl⟩ := Vector.getElem_of_mem hb
      exact Option.some.inj ((hbyte j hj).symm.trans (h j hj))
    · intro h j hj
      exact (hbyte j hj).trans (congrArg some (h _ (Vector.getElem_mem hj)))
  · -- another row lies outside the one that is overwritten
    refine forall_congr' fun j => forall_congr' fun hj => ?_
    have hout : ¬ (t.row i ≤ t.row k + j ∧ t.row k + j < t.row i + t.size) := by
      rintro ⟨hle, hlt⟩
      rcases Nat.lt_or_gt_of_ne hki with hk | hk
      · exact absurd (row_add_lt hk hj) (not_lt.2 hle)
      · have hnext := row_add_lt hk (show t.size - 1 < t.size by omega)
        omega
    have hmem : (t.setRow i bytes).mem (t.row k + j) = t.mem (t.row k + j) := if_neg hout
    exact Eq.congr_left hmem

/-- **A row appended at the count** moves it to the next zero row behind it. -/
theorem entryCount_append {c : ℕ} (hc : t.entryCount = some c) (hlt : c < 31) {bytes : Vector UInt8 t.size}
    (hrow : ∃ b ∈ bytes, b ≠ 0) :
    ∃ c', (t.setRow c bytes).entryCount = some c' ∧ t.StopsAt (c + 1) c' := by
  have hstop := entryCount_eq_some_iff.1 hc
  obtain ⟨c', hc', hnext⟩ := countLoop_spec (t := t) 31 (c + 1) (by omega) hlt
  refine ⟨c', entryCount_eq_some_iff.2 ⟨Nat.zero_le _, hnext.le_limit, ?_, ?_⟩, hnext⟩
  · intro i _ hic
    rw [setRow_rowZero_iff]
    split_ifs with hi
    · push Not
      exact hrow
    · rcases Nat.lt_or_gt_of_ne hi with hi | hi
      · exact hstop.before i (Nat.zero_le i) hi
      · exact hnext.before i hi hic
  · intro hc31
    have hne : c' ≠ c := by
      have := hnext.start_le
      omega
    rw [setRow_rowZero_iff, if_neg hne]
    exact hnext.zero hc31

/-- the next zero row is the next row unless that is in use -/
theorem StopsAt.eq_start_iff {start c : ℕ} (h : t.StopsAt start c) : c = start ↔ start = 31 ∨ t.RowZero start := by
  constructor
  · rintro rfl
    rcases Nat.eq_or_lt_of_le h.le_limit with heq | hlt
    · exact Or.inl heq
    · exact Or.inr (h.zero hlt)
  · rintro (rfl | hzero)
    · exact le_antisymm h.le_limit h.start_le
    · by_contra hne
      exact h.before start le_rfl (lt_of_le_of_ne h.start_le (Ne.symm hne)) hzero

/-- **Counting.** The count is the first zero row or 31, the last entry the row before it; both are answered from the
first 31 rows, whatever lies behind them; a row appended at the count moves it to the next zero row, which is one row on
exactly when the count was 30 or the row behind it is zero. -/
theorem dvfs_count (t : Table) :
    ∃ c, t.entryCount = some c ∧ t.StopsAt 0 c ∧
      t.lastEntry = some (if t.RowZero 0 then none else some (t.row (c - 1))) ∧
      (∀ t', SameRows t t' → t'.entryCount = some c ∧ t'.lastEntry = t.lastEntry) ∧
      ∀ bytes : Vector UInt8 t.size, (∃ b ∈ bytes, b ≠ 0) → c < 31 →
        ∃ c', (t.setRow c bytes).entryCount = some c' ∧ t.StopsAt (c + 1) c' ∧
          (c' = c + 1 ↔ c = 30 ∨ t.RowZero (c + 1)) := by
  obtain ⟨c, hc, hstop⟩ := t.entryCount_spec
  refine ⟨c, hc, hstop, lastEntry_spec hc, fun t' hsame => ?_, fun bytes hrow hlt => ?_⟩
  · rw [← hc]
    exact hsame.answers
  · obtain ⟨c', hc', hnext⟩ := entryCount_append hc hlt hrow
    have hlast : c + 1 = 31 ↔ c = 30 := by omega
    exact ⟨c', hc', hnext, by rw [hnext.eq_start_iff, hlast]⟩

/-- 31 words, all zero but the second -/
def gapTable : Table where
  size := 4
  head := 0
  mem a := if a = 4 then some 1 else if a < 124 then some 0 else none
  mapped a _ hlt := by
    have hlt' : a < 124 := by simpa [dvfsTableEntryLimit, dvfsTableEntryCount] using hlt
    split_ifs
    all_goals rfl

/-- a row appended in front of one that is in use makes two -/
theorem append_gains_two : gapTable.entryCount = some 0 ∧ (∃ b ∈ (#v[1, 0, 0, 0] : Vector UInt8 4), b ≠ 0) ∧
    (gapTable.setRow 0 #v[1, 0, 0, 0]).entryCount = some 2 ∧
    (gapTable.setRow 0 #v[1, 0, 0, 0]).entryCount ≠ some (0 + 1) := by
  decide

/-! ## Tables of CVB entries -/

/-- the fields fit the types of `cvb_entry_t` -/
structure Stored (e : CvbEntry) : Prop where
  freq : e.freq < 2 ^ 64
  coefficients : ∀ c ∈ [e.cvbDfllParam, e.cvbPllParam], ∀ x ∈ [c.c0, c.c1, c.c2, c.c3, c.c4, c.c5],
    -2 ^ 31 ≤ x ∧ x < 2 ^ 31

def cvbBytes (e : CvbEntry) : List UInt8 := ofWords ((Pcv.cvbWords e).map BitVec.toNat)

@[simp] theorem length_cvbBytes (e : CvbEntry) : (cvbBytes e).length = 56 := by
  rw [cvbBytes, length_ofWords]
  rfl

/-- words below 2^32 are all zero where their bytes are -/
theorem eq_zero_of_ofWords {ws : List ℕ} (hlt : ∀ w ∈ ws, w < 2 ^ 32) (h : ∀ b ∈ ofWords ws, b = 0) :
    ∀ w ∈ ws, w = 0 := by
  intro w hw
  have hbytes : ∀ b ∈ bytesOf w, b = 0 := fun b hb => h b (List.mem_flatMap.2 ⟨w, hw, hb⟩)
  have hword := wordOf_bytesOf (hlt w hw)
  simp only [bytesOf, List.forall_mem_cons, List.not_mem_nil, false_implies, implies_true, and_true] at hbytes
  rw [hbytes.1, hbytes.2.1, hbytes.2.2.1, hbytes.2.2.2] at hword
  exact hword.symm

theorem eq_zero_of_ofInt {x : ℤ} (hx : -2 ^ 31 ≤ x ∧ x < 2 ^ 31) (h : BitVec.ofInt 32 x = 0) : x = 0 := by
  have hint := congrArg BitVec.toInt h
  rw [BitVec.toInt_ofInt, Int.bmod_eq_of_le (by omega) (by omega)] at hint
  simpa using hint

/-- the bytes of an entry are all zero exactly when the entry is -/
theorem cvbBytes_eq_zero_iff {e : CvbEntry} (he : Stored e) : (∀ b ∈ cvbBytes e, b = 0) ↔ e = {} := by
  constructor
  · intro h
    have hwords : ∀ w ∈ Pcv.cvbWords e, w = 0 := by
      intro w hw
      have hlt : ∀ n ∈ (Pcv.cvbWords e).map BitVec.toNat, n < 2 ^ 32 := by
        intro n hn
        obtain ⟨w, _, rfl⟩ := List.mem_map.1 hn
        exact w.isLt
      exact BitVec.eq_of_toNat_eq (eq_zero_of_ofWords hlt h w.toNat (List.mem_map_of_mem hw))
    have hcoefs : ∀ c ∈ [e.cvbDfllParam, e.cvbPllParam], c = {} := by
      intro c hc
      have hzero : ∀ x ∈ [c.c0, c.c1, c.c2, c.c3, c.c4, c.c5], x = 0 := by
        intro x hx
        apply eq_zero_of_ofInt (he.coefficients c hc x hx)
        apply hwords
        have hmem : BitVec.ofInt 32 x ∈ Pcv.coefficientWords c := List.mem_map_of_mem hx
        simp only [List.mem_cons, List.not_mem_nil, or_false] at hc
        rcases hc with rfl | rfl
        all_goals simp [Pcv.cvbWords, hmem]
      obtain ⟨c0, c1, c2, c3, c4, c5⟩ := c
      simpa using hzero
    have hfreq : e.freq = 0 := by
      have hlow := congrArg BitVec.toNat (hwords (BitVec.ofNat 32 e.freq) (by simp [Pcv.cvbWords]))
      have hhigh := congrArg BitVec.toNat (hwords (BitVec.ofNat 32 (e.freq / 2 ^ 32)) (by simp [Pcv.cvbWords]))
      have hlt := he.freq
      simp only [BitVec.toNat_ofNat, BitVec.ofNat_eq_ofNat, Nat.zero_mod] at hlow hhigh
      omega
    obtain ⟨freq, dfll, pll⟩ := e
    simp_all
  · rintro rfl
    decide +kernel

/-- a table of CVB entries in memory -/
def cvbTable (table : List CvbEntry) (hlen : 31 ≤ table.length) : Table where
  size := 56
  head := 0
  mem a := table[a / 56]?.bind fun e => (cvbBytes e)[a % 56]?
  mapped a _ hlt := by
    have hrow : a / 56 < table.length := by
      rw [show dvfsTableEntryLimit = 31 from rfl] at hlt
      omega
    have hbyte : a % 56 < (cvbBytes table[a / 56]).length := by
      rw [length_cvbBytes]
      exact Nat.mod_lt _ (by decide)
    rw [List.getElem?_eq_getElem hrow, Option.bind_some, List.getElem?_eq_getElem hbyte]
    rfl

theorem cvbTable_rowZero_iff {table : List CvbEntry} (hlen : 31 ≤ table.length) (hstored : ∀ e ∈ table, Stored e)
    {i : ℕ} (hi : i < table.length) : (cvbTable table hlen).RowZero i ↔ table[i].isEmpty = true := by
  have hbyte : ∀ j < 56, (cvbTable table hlen).mem ((cvbTable table hlen).row i + j) = (cvbBytes table[i])[j]? := by
    intro j hj
    have haddr : (cvbTable table hlen).row i + j = 56 * i + j := by simp [row, cvbTable]
    have hdiv : (56 * i + j) / 56 = i := by omega
    have hmod : (56 * i + j) % 56 = j := by omega
    rw [haddr]
    simp only [cvbTable, hdiv, hmod, List.getElem?_eq_getElem hi, Option.bind_some]
  rw [CvbEntry.isEmpty, decide_eq_true_iff, ← cvbBytes_eq_zero_iff (hstored _ (List.getElem_mem hi))]
  constructor
  · intro h b hb
    obtain ⟨j, hj, rfl⟩ := List.getElem_of_mem hb
    have hj56 : j < 56 := by simpa using hj
    have hzero := (hbyte j hj56).symm.trans (h j hj56)
    rw [List.getElem?_eq_getElem hj] at hzero
    exact Option.some.inj hzero
  · intro h j hj
    have hj56 : j < 56 := hj
    have hjl : j < (cvbBytes table[i]).length := by simpa using hj56
    rw [hbyte j hj56, List.getElem?_eq_getElem hjl, h _ (List.getElem_mem hjl)]

/-- **The patches' count** is what the byte-wise scan answers on the stored table. -/
theorem entryCount_cvbTable {table : List CvbEntry} (hlen : 31 ≤ table.length) (hstored : ∀ e ∈ table, Stored e) :
    (cvbTable table hlen).entryCount = some (Loader.getDvfsTableEntryCount table) := by
  have hcount := getDvfsTableEntryCount_eq table
  have hle : Loader.getDvfsTableEntryCount table ≤ 31 := getDvfsTableEntryCount_le table
  rw [entryCount_eq_some_iff]
  refine ⟨Nat.zero_le _, hle, ?_, ?_⟩
  · intro i _ hic
    have hi : i < table.length := by omega
    rw [cvbTable_rowZero_iff hlen hstored hi, Bool.not_eq_true]
    exact not_empty_of_lt_used CvbEntry.isEmpty (hcount ▸ hic) (List.getElem?_eq_getElem hi)
  · intro hlt
    have hi : Loader.getDvfsTableEntryCount table < table.length := by omega
    rw [cvbTable_rowZero_iff hlen hstored hi]
    have hat : table[(dvfsEntries table).length]? = some table[Loader.getDvfsTableEntryCount table] := by
      rw [← hcount]
      exact List.getElem?_eq_getElem hi
    exact empty_at_used CvbEntry.isEmpty (hcount ▸ hlt) hat

end Table

end RyazhaClk.Loader.Dvfs
