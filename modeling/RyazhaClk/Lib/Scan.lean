/-
Scanning an ascending table from its first entry: at each entry a stopping test sees the entry and its successor, and
the scan answers the first entry it stops at, or the last one. Rounding to the nearest entry and rounding up to an entry
are both scans; they differ in the test.

Results, for a table ascending in any linear order:
- `scan_mem`, `le_scan`, `scan_le_last`: the answer is an entry, between the first and the last.
- `scan_le_iff`: for a test that stays true once true, the answer is at most `c` exactly when the test holds at the
  step across `c`.
- `scan_le_scan`: a test that holds more often answers an earlier entry.
- `ceil_le_iff`: rounding `d` up answers at most `c` exactly when an entry lies in `[d, c]` or the table ends by `c`.
- `ceil_eq_find`: rounding `d` up answers the first entry that reaches `d`, in any order of the table.
- `ceil_le_of_mem`: rounding `d` up answers at most any entry that is at least `d`.
-/
import Mathlib.Tactic

namespace RyazhaClk.Scan

section Def

variable {α : Type*}

/-- the entry the scan of `a :: l` answers -/
def scan (stop : α → α → Bool) : α → List α → α
  | a, [] => a
  | a, b :: l => if stop a b then a else scan stop b l

variable (stop : α → α → Bool)

@[simp] theorem scan_nil (a : α) : scan stop a [] = a := rfl

theorem scan_cons (a b : α) (l : List α) :
    scan stop a (b :: l) = if stop a b then a else scan stop b l := rfl

theorem scan_mem (a : α) (l : List α) : scan stop a l ∈ a :: l := by
  induction l generalizing a with
  | nil => simp
  | cons b l ih =>
    rw [scan_cons]
    split_ifs
    · exact List.mem_cons_self
    · exact List.mem_cons_of_mem a (ih b)

/-- a pair of neighbours of `a :: b :: l` is the first pair or a pair of the rest -/
theorem pair_infix_cons {a b x y : α} {l : List α} (h : [x, y] <:+: a :: b :: l) :
    (x = a ∧ y = b) ∨ [x, y] <:+: b :: l := by
  rcases List.infix_cons_iff.1 h with h | h
  · obtain ⟨t, ht⟩ := h
    simp only [List.cons_append, List.nil_append, List.cons.injEq] at ht
    exact Or.inl ⟨ht.1, ht.2.1⟩
  · exact Or.inr h

end Def

section Order

variable {α : Type*} [LinearOrder α] {stop : α → α → Bool}

theorem le_scan {a : α} {l : List α} (hl : (a :: l).Pairwise (· ≤ ·)) : a ≤ scan stop a l := by
  rcases List.mem_cons.1 (scan_mem stop a l) with h | h
  · exact h.ge
  · exact (List.pairwise_cons.1 hl).1 _ h

theorem le_last {a e : α} {l : List α} (hl : (a :: l).Pairwise (· ≤ ·)) (he : e ∈ a :: l) :
    e ≤ (a :: l).getLast (List.cons_ne_nil a l) := by
  induction l generalizing a e with
  | nil => simp_all
  | cons b l ih =>
    obtain ⟨ha, hl'⟩ := List.pairwise_cons.1 hl
    rw [List.getLast_cons (List.cons_ne_nil b l)]
    rcases List.mem_cons.1 he with rfl | he
    · exact (ha b List.mem_cons_self).trans (ih hl' List.mem_cons_self)
    · exact ih hl' he

theorem scan_le_last {a : α} {l : List α} (hl : (a :: l).Pairwise (· ≤ ·)) :
    scan stop a l ≤ (a :: l).getLast (List.cons_ne_nil a l) := le_last hl (scan_mem stop a l)

/-- **Where a scan crosses a bound.** For a test that stays true once true, the scan answers at most `c` exactly when
the test stops at the step of the table that leads from at most `c` to above `c`. -/
theorem scan_le_iff (hmono : ∀ x y x' y', x ≤ x' → y ≤ y' → stop x y = true → stop x' y' = true) {a c : α} {l : List α}
    (hl : (a :: l).Pairwise (· ≤ ·)) (ha : a ≤ c) :
    scan stop a l ≤ c ↔ ∀ x y, [x, y] <:+: a :: l → x ≤ c → c < y → stop x y = true := by
  induction l generalizing a with
  | nil =>
    refine ⟨fun _ x y hxy => ?_, fun _ => ha⟩
    exact absurd hxy.length_le (by simp)
  | cons b l ih =>
    obtain ⟨hab, hl'⟩ := List.pairwise_cons.1 hl
    rw [scan_cons]
    split_ifs with hs
    · refine ⟨fun _ x y hxy _ _ => ?_, fun _ => ha⟩
      rcases pair_infix_cons hxy with ⟨rfl, rfl⟩ | hxy
      · exact hs
      · have hx : x ∈ b :: l := hxy.subset (by simp)
        have hy : y ∈ b :: l := hxy.subset (by simp)
        refine hmono a b x y (hab x hx) ?_ hs
        rcases List.mem_cons.1 hy with rfl | hy
        · exact le_refl _
        · exact (List.pairwise_cons.1 hl').1 y hy
    · by_cases hb : b ≤ c
      · rw [ih hl' hb]
        refine ⟨fun h x y hxy hx hy => ?_, fun h x y hxy => h x y (List.infix_cons hxy)⟩
        rcases pair_infix_cons hxy with ⟨rfl, rfl⟩ | hxy
        · exact absurd hb (not_le.2 hy)
        · exact h x y hxy hx hy
      · have hcross : c < scan stop b l := lt_of_lt_of_le (not_le.1 hb) (le_scan hl')
        refine ⟨fun h => absurd h (not_le.2 hcross), fun h => ?_⟩
        have hpair : [a, b] <:+: a :: b :: l := ⟨[], l, rfl⟩
        exact absurd (h a b hpair ha (not_le.1 hb)) hs

/-- **A test that holds more often stops earlier.** For entries in ascending order of a value. -/
theorem scan_le_scan {β : Type*} {v : β → α} {stop stop' : β → β → Bool} {a : β} {l : List β}
    (hl : (a :: l).Pairwise (v · ≤ v ·)) (hstop : ∀ x y, stop' x y = true → stop x y = true) :
    v (scan stop a l) ≤ v (scan stop' a l) := by
  induction l generalizing a with
  | nil => exact le_rfl
  | cons b l ih =>
    obtain ⟨hab, hl'⟩ := List.pairwise_cons.1 hl
    rw [scan_cons, scan_cons]
    by_cases hs : stop a b = true
    · rw [if_pos hs]
      split_ifs
      · exact le_rfl
      · exact hab _ (scan_mem stop' b l)
    · rw [if_neg hs, if_neg fun hs' => hs (hstop a b hs')]
      exact ih hl'

/-! ## Rounding up -/

/-- the scan that rounds `d` up to an entry; the last entry where none is large enough -/
def ceil (d : α) : α → List α → α := scan fun a _ => decide (d ≤ a)

theorem ceil_le_of_mem {d e a : α} {l : List α} (hl : (a :: l).Pairwise (· ≤ ·)) (he : e ∈ a :: l) (hd : d ≤ e) :
    ceil d a l ≤ e := by
  induction l generalizing a with
  | nil =>
    obtain rfl : e = a := by simpa using he
    exact le_refl _
  | cons b l ih =>
    obtain ⟨hab, hl'⟩ := List.pairwise_cons.1 hl
    rw [ceil, scan_cons]
    split_ifs with hs
    · rcases List.mem_cons.1 he with rfl | he
      · exact le_refl _
      · exact hab e he
    · rcases List.mem_cons.1 he with rfl | he
      · exact absurd hd (by simpa using hs)
      · exact ih hl' he

theorem ceil_eq_find (d a : α) (l : List α) : ceil d a l =
    ((a :: l).find? fun e => decide (d ≤ e)).getD ((a :: l).getLast (List.cons_ne_nil a l)) := by
  induction l generalizing a with
  | nil =>
    by_cases h : d ≤ a
    · simp [ceil, h]
    · simp [ceil, h]
  | cons b l ih =>
    rw [ceil, scan_cons, List.getLast_cons (List.cons_ne_nil b l)]
    by_cases h : d ≤ a
    · simp [h]
    · rw [List.find?_cons_of_neg (by simpa using h), if_neg (by simpa using h)]
      exact ih b

/-- the answer is large enough unless no entry is, and then it is the last one -/
theorem le_ceil_or_last (d a : α) (l : List α) :
    d ≤ ceil d a l ∨ ceil d a l = (a :: l).getLast (List.cons_ne_nil a l) := by
  induction l generalizing a with
  | nil => exact Or.inr rfl
  | cons b l ih =>
    rw [ceil, scan_cons, List.getLast_cons (List.cons_ne_nil b l)]
    split_ifs with hs
    · exact Or.inl (by simpa using hs)
    · exact ih b

theorem ceil_le_iff {d c a : α} {l : List α} (hl : (a :: l).Pairwise (· ≤ ·)) :
    ceil d a l ≤ c ↔
      (∃ e ∈ a :: l, d ≤ e ∧ e ≤ c) ∨ (a :: l).getLast (List.cons_ne_nil a l) ≤ c := by
  constructor
  · intro h
    rcases le_ceil_or_last d a l with hd | hlast
    · exact Or.inl ⟨_, scan_mem _ a l, hd, h⟩
    · exact Or.inr (hlast ▸ h)
  · rintro (⟨e, he, hd, hc⟩ | hlast)
    · exact (ceil_le_of_mem hl he hd).trans hc
    · exact (scan_le_last hl).trans hlast

end Order

end RyazhaClk.Scan
