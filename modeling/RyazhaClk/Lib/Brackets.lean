/-
Tables of brackets: the bracket of `x` is the entry with the largest key that is not above `x`. A cursor that moves on
while the next key has been reached finds it, and for queries in ascending order it never has to move back.

- `advance_split`: the cursor stops at the first entry whose successor is above the query.
- `sweep_isBracket`: one cursor over ascending queries finds the bracket of each.
- `bracketOf_eq_some_iff`: the bracket as a search of the table, for a specification to compute.
- `IsBracket.mono`: what ascends along the table ascends along the brackets of ascending queries.
-/
import Mathlib.Tactic

namespace RyazhaClk.Brackets

variable {α β : Type*} [LinearOrder α] (key : β → α)

/-- `b` has the largest key of the table that is not above `x` -/
structure IsBracket (table : List β) (x : α) (b : β) : Prop where
  mem : b ∈ table
  le : key b ≤ x
  greatest : ∀ c ∈ table, key c ≤ x → key c ≤ key b

/-- the bracket, searched for in an ascending table -/
def bracketOf (table : List β) (x : α) : Option β := (table.filter fun b => key b ≤ x).getLast?

/-- what the cursor still points at: entries are passed over while the next key has been reached -/
def advance (x : α) : List β → List β
  | b :: next :: rest => if x ≥ key next then advance x (next :: rest) else b :: next :: rest
  | table => table

/-- one cursor for all queries: the entry it points at for each -/
def sweep : List α → List β → List (Option β)
  | [], _ => []
  | x :: xs, table => (advance key x table).head? :: sweep xs (advance key x table)

variable {key}

/-! ## One query -/

/-- the cursor has passed over reached entries, points at a reached entry, and the entry behind that is not reached -/
theorem advance_split {x : α} {b : β} (rest : List β) (hb : key b ≤ x) :
    ∃ passed c rest', b :: rest = passed ++ c :: rest' ∧ advance key x (b :: rest) = c :: rest' ∧ key c ≤ x ∧
      ∀ d ∈ rest'.head?, x < key d := by
  induction rest generalizing b with
  | nil => exact ⟨[], b, [], rfl, rfl, hb, by simp⟩
  | cons next rest ih =>
    by_cases hnext : x ≥ key next
    · obtain ⟨passed, c, rest', hsplit, hadvance, hc, hbehind⟩ := ih hnext
      refine ⟨b :: passed, c, rest', ?_, ?_, hc, hbehind⟩
      · rw [hsplit, List.cons_append]
      · rw [advance, if_pos hnext, hadvance]
    · refine ⟨[], b, next :: rest, rfl, ?_, hb, ?_⟩
      · rw [advance, if_neg hnext]
      · simpa using hnext

/-- in an ascending table the entry the cursor points at is the bracket, also of the table with the entries in front -/
theorem isBracket_of_split {table passed rest : List β} {x : α} {c : β}
    (htable : table.Pairwise fun a b => key a < key b) (hsplit : table = passed ++ c :: rest) (hc : key c ≤ x)
    (hbehind : ∀ d ∈ rest.head?, x < key d) : IsBracket key table x c := by
  subst hsplit
  rw [List.pairwise_append, List.pairwise_cons] at htable
  obtain ⟨-, ⟨-, hrest⟩, hpassed⟩ := htable
  refine ⟨by simp, hc, ?_⟩
  intro d hd hdx
  rcases List.mem_append.1 hd with hd | hd
  · exact (hpassed d hd c List.mem_cons_self).le
  · rcases List.mem_cons.1 hd with rfl | hd
    · exact le_rfl
    · rcases rest with _ | ⟨next, rest⟩
      · exact absurd hd List.not_mem_nil
      · have hnext : key next ≤ key d := by
          rcases List.mem_cons.1 hd with rfl | hd
          · exact le_rfl
          · exact ((List.pairwise_cons.1 hrest).1 d hd).le
        exact absurd (hnext.trans hdx) (not_le.2 (hbehind next rfl))

/-! ## Ascending queries -/

/-- the invariant of the sweep: the cursor is a suffix of the table whose head every query has reached -/
theorem sweep_isBracket {table : List β} (htable : table.Pairwise fun a b => key a < key b) {xs : List α}
    (hxs : xs.Pairwise (· ≤ ·)) {passed rest : List β} {b : β} (hsplit : table = passed ++ b :: rest)
    (hb : ∀ x ∈ xs, key b ≤ x) :
    List.Forall₂ (fun x found => ∃ c, found = some c ∧ IsBracket key table x c) xs (sweep key xs (b :: rest)) := by
  induction xs generalizing passed rest b with
  | nil => exact List.Forall₂.nil
  | cons x xs ih =>
    rw [List.pairwise_cons] at hxs
    obtain ⟨skipped, c, rest', hcursor, hadvance, hc, hbehind⟩ := advance_split rest (hb x List.mem_cons_self)
    have hsplit' : table = (passed ++ skipped) ++ c :: rest' := by rw [hsplit, hcursor, List.append_assoc]
    rw [sweep, hadvance]
    refine List.Forall₂.cons ⟨c, rfl, isBracket_of_split htable hsplit' hc hbehind⟩ ?_
    apply ih hxs.2 hsplit'
    intro y hy
    exact hc.trans (hxs.1 y hy)

/-! ## Brackets -/

/-- entries with different keys stand in the order of the keys -/
theorem rel_of_key_lt {R : β → β → Prop} {table : List β} (htable : table.Pairwise fun a b => key a ≤ key b)
    (hR : table.Pairwise R) {b c : β} (hb : b ∈ table) (hc : c ∈ table) (h : key b < key c) : R b c := by
  obtain ⟨i, hi, rfl⟩ := List.getElem_of_mem hb
  obtain ⟨j, hj, rfl⟩ := List.getElem_of_mem hc
  rcases lt_trichotomy i j with hij | rfl | hji
  · exact List.pairwise_iff_getElem.1 hR i j hi hj hij
  · exact absurd h (lt_irrefl _)
  · exact absurd h (not_lt.2 (List.pairwise_iff_getElem.1 htable j i hj hi hji))

theorem eq_of_key_eq {table : List β} (htable : table.Pairwise fun a b => key a < key b) {b c : β} (hb : b ∈ table)
    (hc : c ∈ table) (h : key b = key c) : b = c := by
  obtain ⟨i, hi, rfl⟩ := List.getElem_of_mem hb
  obtain ⟨j, hj, rfl⟩ := List.getElem_of_mem hc
  rcases lt_trichotomy i j with hij | rfl | hji
  · exact absurd h (List.pairwise_iff_getElem.1 htable i j hi hj hij).ne
  · rfl
  · exact absurd h (List.pairwise_iff_getElem.1 htable j i hj hi hji).ne'

/-- brackets ascend with the queries -/
theorem IsBracket.key_le {table : List β} {x y : α} {b c : β} (hb : IsBracket key table x b)
    (hc : IsBracket key table y c) (hxy : x ≤ y) : key b ≤ key c :=
  hc.greatest b hb.mem (hb.le.trans hxy)

theorem IsBracket.eq {table : List β} (htable : table.Pairwise fun a b => key a < key b) {x : α} {b c : β}
    (hb : IsBracket key table x b) (hc : IsBracket key table x c) : b = c :=
  eq_of_key_eq htable hb.mem hc.mem (le_antisymm (hb.key_le hc le_rfl) (hc.key_le hb le_rfl))

/-- what ascends along the table ascends along the brackets -/
theorem IsBracket.mono {γ : Type*} [Preorder γ] {f : β → γ} {table : List β} {x y : α} {b c : β}
    (htable : table.Pairwise fun a b => key a < key b) (hf : table.Pairwise fun a b => f a ≤ f b)
    (hb : IsBracket key table x b) (hc : IsBracket key table y c) (hxy : x ≤ y) : f b ≤ f c := by
  rcases (hb.key_le hc hxy).lt_or_eq with hlt | heq
  · exact rel_of_key_lt (htable.imp fun h => h.le) hf hb.mem hc.mem hlt
  · rw [eq_of_key_eq htable hb.mem hc.mem heq]

theorem exists_bracketOf {table : List β} {x : α} {c : β} (hc : c ∈ table) (hcx : key c ≤ x) :
    ∃ b ∈ table, bracketOf key table x = some b := by
  rcases hsearch : bracketOf key table x with _ | b
  · rw [bracketOf, List.getLast?_eq_none_iff, List.filter_eq_nil_iff] at hsearch
    exact absurd hcx (by simpa using hsearch c hc)
  · exact ⟨b, (List.mem_filter.1 (List.mem_of_getLast? hsearch)).1, rfl⟩

/-- the search finds the bracket -/
theorem bracketOf_eq_some_iff {table : List β} (htable : table.Pairwise fun a b => key a < key b) {x : α} {b : β} :
    bracketOf key table x = some b ↔ IsBracket key table x b := by
  have hfound : ∀ b, bracketOf key table x = some b → IsBracket key table x b := by
    intro b hb
    obtain ⟨init, hinit⟩ := List.getLast?_eq_some_iff.1 hb
    have hmem : b ∈ table.filter fun b => key b ≤ x := List.mem_of_getLast? hb
    rw [List.mem_filter, decide_eq_true_eq] at hmem
    refine ⟨hmem.1, hmem.2, ?_⟩
    intro c hc hcx
    have hpair := htable.filter fun b => key b ≤ x
    have hcmem : c ∈ table.filter fun b => key b ≤ x := by simp [hc, hcx]
    rw [hinit] at hpair hcmem
    rcases List.mem_append.1 hcmem with hcmem | hcmem
    · exact ((List.pairwise_append.1 hpair).2.2 c hcmem b (List.mem_singleton.2 rfl)).le
    · rw [List.mem_singleton.1 hcmem]
  constructor
  · exact hfound b
  · intro hb
    obtain ⟨c, -, hsearch⟩ := exists_bracketOf hb.mem hb.le
    rw [hsearch, (hfound c hsearch).eq htable hb]

/-! ## Parts of a table -/

variable {table front back : List β} {x : α} {b : β}

theorem IsBracket.of_append_left (h : IsBracket key (front ++ back) x b) (hback : ∀ c ∈ back, x < key c) :
    IsBracket key front x b := by
  refine ⟨?_, h.le, fun c hc => h.greatest c (List.mem_append_left back hc)⟩
  rcases List.mem_append.1 h.mem with hb | hb
  · exact hb
  · exact absurd h.le (not_le.2 (hback b hb))

/-- a query that reaches the back of the table finds its bracket there -/
theorem IsBracket.of_append_right (h : IsBracket key (front ++ back) x b)
    (htable : (front ++ back).Pairwise fun a b => key a < key b) (hback : ∃ c ∈ back, key c ≤ x) :
    IsBracket key back x b := by
  refine ⟨?_, h.le, fun c hc => h.greatest c (List.mem_append_right front hc)⟩
  obtain ⟨c, hc, hcx⟩ := hback
  rcases List.mem_append.1 h.mem with hb | hb
  · have hlt := (List.pairwise_append.1 htable).2.2 b hb c hc
    exact absurd (h.greatest c (List.mem_append_right front hc) hcx) (not_le.2 hlt)
  · exact hb

theorem IsBracket.of_map {γ : Type*} {f : γ → β} {rows : List γ} (h : IsBracket key (rows.map f) x b) :
    ∃ r, b = f r ∧ IsBracket (fun r => key (f r)) rows x r := by
  obtain ⟨r, hr, rfl⟩ := List.mem_map.1 h.mem
  exact ⟨r, rfl, hr, h.le, fun c hc => h.greatest (f c) (List.mem_map_of_mem hc)⟩

end RyazhaClk.Brackets
