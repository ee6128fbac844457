/-
The nearest of some entries to a point, and the lowest of those that are equally near. Entries have values in an ordered
group; between two neighbours the midpoint decides.

- `IsNearest.value_mono`: a larger point has a larger nearest entry.
- `IsNearest.value_of_mem`: an entry is its own nearest one.
- `scan_isNearest`: one scan from the first entry, stopping at the first midpoint that reaches the point, answers the
  nearest of the entries up to the first one that ends the scan.
-/
import Mathlib.Algebra.Order.Group.Abs
import Mathlib.Tactic
import RyazhaClk.Lib.Scan

namespace RyazhaClk.Nearest

open RyazhaClk.Scan

section UpTo

variable {α β : Type*} [LinearOrder α]

/-- the entries up to the first one that ends a scan -/
def upTo (v : β → α) (ends : β → Bool) (l : List β) : Set β := {e | e ∈ l ∧ ∀ f ∈ l, v f < v e → ends f = false}

variable {v : β → α} {ends : β → Bool} {a : β} {l : List β}

theorem upTo_singleton : upTo v ends [a] = {a} := by
  ext e
  simp only [upTo, List.mem_singleton, Set.mem_ofPred_eq, Set.mem_singleton_iff, forall_eq, and_iff_left_iff_imp]
  rintro rfl hlt
  exact absurd hlt (lt_irrefl _)

theorem upTo_of_ends (hl : (a :: l).Pairwise (v · < v ·)) (ha : ends a = true) : upTo v ends (a :: l) = {a} := by
  ext e
  simp only [upTo, Set.mem_ofPred_eq, Set.mem_singleton_iff]
  constructor
  · rintro ⟨he, hbelow⟩
    rcases List.mem_cons.1 he with rfl | he
    · rfl
    · have hfalse := hbelow a List.mem_cons_self ((List.pairwise_cons.1 hl).1 e he)
      exact absurd ha (by simp [hfalse])
  · rintro rfl
    refine ⟨List.mem_cons_self, fun f hf hlt => ?_⟩
    rcases List.mem_cons.1 hf with rfl | hf
    · exact absurd hlt (lt_irrefl _)
    · exact absurd hlt ((List.pairwise_cons.1 hl).1 f hf).asymm

theorem upTo_cons (hl : (a :: l).Pairwise (v · < v ·)) (ha : ends a = false) :
    upTo v ends (a :: l) = insert a (upTo v ends l) := by
  have hlt := (List.pairwise_cons.1 hl).1
  ext e
  simp only [upTo, Set.mem_ofPred_eq, Set.mem_insert_iff, List.mem_cons, forall_eq_or_imp, ha, implies_true, true_and]
  constructor
  · rintro ⟨rfl | he, hbelow⟩
    · exact Or.inl rfl
    · exact Or.inr ⟨he, hbelow⟩
  · rintro (rfl | ⟨he, hbelow⟩)
    · exact ⟨Or.inl rfl, fun f hf hfe => absurd hfe (hlt f hf).asymm⟩
    · exact ⟨Or.inr he, hbelow⟩

end UpTo

variable {α β : Type*} [AddCommGroup α] [LinearOrder α] [IsOrderedAddMonoid α] {v : β → α} {s : Set β} {x y : α}
  {a b r : β} {ends : β → Bool} {l : List β}

structure IsNearest (v : β → α) (s : Set β) (x : α) (r : β) : Prop where
  mem : r ∈ s
  le : ∀ e ∈ s, |x - v r| ≤ |x - v e|
  lowest : ∀ e ∈ s, |x - v e| = |x - v r| → v r ≤ v e

/-- the midpoint decides which of two values is nearer -/
theorem abs_sub_le_iff_midpoint {p q : α} (hpq : p < q) : |x - p| ≤ |x - q| ↔ x + x ≤ p + q := by
  rcases le_total x p with hp | hp
  · rw [abs_of_nonpos (sub_nonpos.2 hp), abs_of_nonpos (sub_nonpos.2 (hp.trans hpq.le)), neg_sub, neg_sub]
    exact iff_of_true (sub_le_sub_right hpq.le x) (add_le_add hp (hp.trans hpq.le))
  · rw [abs_of_nonneg (sub_nonneg.2 hp)]
    rcases le_total x q with hq | hq
    · rw [abs_of_nonpos (sub_nonpos.2 hq), neg_sub, sub_le_sub_iff, add_comm q p]
    · rw [abs_of_nonneg (sub_nonneg.2 hq)]
      refine iff_of_false (not_le.2 (sub_lt_sub_left hpq x)) (not_le.2 ?_)
      exact add_lt_add_of_lt_of_le (hpq.trans_le hq) hq

namespace IsNearest

theorem value_mono {r' : β} (h : IsNearest v s x r) (h' : IsNearest v s y r') (hxy : x ≤ y) : v r ≤ v r' := by
  by_contra hlt
  rw [not_le] at hlt
  have hx : ¬ x + x ≤ v r' + v r := by
    rw [← abs_sub_le_iff_midpoint hlt]
    intro hle
    exact absurd (h.lowest r' h'.mem (le_antisymm hle (h.le r' h'.mem))) (not_le.2 hlt)
  have hy : y + y ≤ v r' + v r := (abs_sub_le_iff_midpoint hlt).1 (h'.le r h.mem)
  exact hx ((add_le_add hxy hxy).trans hy)

/-- an entry is its own nearest one -/
theorem value_of_mem {e : β} (h : IsNearest v s (v e) r) (he : e ∈ s) : v r = v e := by
  have hzero : |v e - v r| ≤ 0 := by simpa using h.le e he
  exact (sub_eq_zero.1 (abs_nonpos_iff.1 hzero)).symm

/-- a first entry is nearest to every point up to the midpoint behind it -/
theorem insert_first (hab : v a < v b) (hmid : x + x ≤ v a + v b) (hs : ∀ e ∈ s, v b ≤ v e) :
    IsNearest v (insert a s) x a where
  mem := Set.mem_insert a s
  le := by
    rintro e (rfl | he)
    · exact le_rfl
    · exact (abs_sub_le_iff_midpoint (hab.trans_le (hs e he))).2 (hmid.trans (add_le_add_right (hs e he) _))
  lowest := by
    rintro e (rfl | he) _
    · exact le_rfl
    · exact hab.le.trans (hs e he)

/-- behind the midpoint the first entry can be left out -/
theorem insert_skip (hab : v a < v b) (hmid : ¬ x + x ≤ v a + v b) (hb : b ∈ s) (h : IsNearest v s x r) :
    IsNearest v (insert a s) x r := by
  have hfar : |x - v r| < |x - v a| := calc
    |x - v r| ≤ |x - v b| := h.le b hb
    _ < |x - v a| := not_le.1 fun hle => hmid ((abs_sub_le_iff_midpoint hab).1 hle)
  refine ⟨Set.mem_insert_of_mem a h.mem, ?_, ?_⟩
  · rintro e (rfl | he)
    · exact hfar.le
    · exact h.le e he
  · rintro e (rfl | he) htie
    · exact absurd htie hfar.ne'
    · exact h.lowest e he htie

omit [IsOrderedAddMonoid α] in
theorem singleton (v : β → α) (x : α) (a : β) : IsNearest v {a} x a where
  mem := rfl
  le := by simp
  lowest := by simp

end IsNearest

/-- **the scan by midpoints answers the nearest entry** -/
theorem scan_isNearest (hl : (a :: l).Pairwise (v · < v ·)) :
    IsNearest v (upTo v ends (a :: l)) x (scan (fun e f => ends e || decide (x + x ≤ v e + v f)) a l) := by
  induction l generalizing a with
  | nil =>
    rw [upTo_singleton]
    exact IsNearest.singleton v x a
  | cons b l ih =>
    obtain ⟨hlt, hl'⟩ := List.pairwise_cons.1 hl
    have hab : v a < v b := hlt b List.mem_cons_self
    rw [scan_cons]
    cases ha : ends a with
    | true =>
      rw [upTo_of_ends hl ha, if_pos (by simp)]
      exact IsNearest.singleton v x a
    | false =>
      rw [upTo_cons hl ha, Bool.false_or]
      have hfirst : ∀ e ∈ b :: l, v b ≤ v e := by
        intro e he
        rcases List.mem_cons.1 he with rfl | he
        · exact le_rfl
        · exact ((List.pairwise_cons.1 hl').1 e he).le
      by_cases hmid : x + x ≤ v a + v b
      · rw [if_pos (by simpa using hmid)]
        exact IsNearest.insert_first hab hmid fun e he => hfirst e he.1
      · rw [if_neg (by simpa using hmid)]
        refine IsNearest.insert_skip hab hmid ⟨List.mem_cons_self, fun f hf hlt => ?_⟩ (ih hl')
        exact absurd hlt (not_lt.2 (hfirst f hf))

end RyazhaClk.Nearest
