/-
Layers of settings: each layer is one value made of parts, and a distinguished value stands for "not set". Two ways to
combine them: choose the first layer that sets anything, or choose part by part.

- `part_firstSet_iff`: a part of the first set layer is the first set part exactly when that layer sets the part or no
  layer does.
-/
import Mathlib.Tactic

namespace RyazhaClk.Layers

variable {α β : Type*} [DecidableEq α] [DecidableEq β]

/-- the first entry that is set, highest layer first; unset when none is -/
def firstSet (unset : α) : List α → α
  | [] => unset
  | a :: as => if a = unset then firstSet unset as else a

variable {unset a : α} {as : List α}

theorem firstSet_cons_unset : firstSet unset (unset :: as) = firstSet unset as := if_pos rfl

theorem firstSet_cons_of_ne (h : a ≠ unset) : firstSet unset (a :: as) = a := if_neg h

theorem firstSet_eq_unset_iff : firstSet unset as = unset ↔ ∀ a ∈ as, a = unset := by
  induction as with
  | nil => simp [firstSet]
  | cons a as ih =>
    by_cases h : a = unset
    · rw [h, firstSet_cons_unset, ih]
      simp
    · rw [firstSet_cons_of_ne h]
      simp [h]

/-- **Choosing whole layers loses a part** exactly when the chosen layer leaves it unset and another layer sets it. -/
theorem part_firstSet_iff (part : α → β) {partUnset : β} (hunset : part unset = partUnset) (as : List α) :
    part (firstSet unset as) = firstSet partUnset (as.map part) ↔
      part (firstSet unset as) ≠ partUnset ∨ ∀ a ∈ as, part a = partUnset := by
  induction as with
  | nil => simp [firstSet, hunset]
  | cons a as ih =>
    by_cases ha : a = unset
    · rw [ha, List.map_cons, hunset, firstSet_cons_unset, firstSet_cons_unset, ih]
      simp [hunset]
    · rw [firstSet_cons_of_ne ha, List.map_cons]
      by_cases hp : part a = partUnset
      · -- the chosen layer leaves the part unset, so the merge is unset only if the lower layers are
        rw [hp, firstSet_cons_unset, eq_comm, firstSet_eq_unset_iff]
        simp [hp]
      · rw [firstSet_cons_of_ne hp]
        simp [hp]

end RyazhaClk.Layers
