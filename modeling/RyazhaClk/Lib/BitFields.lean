/-
Fields of a machine word: `len` bits from bit `lo` on, read with a shift and written with a mask.

- `getLsbD_setField`: a written word, bit by bit; everything else follows from it.
- `getField_setField`, `getField_setField_of_disjoint`: the written field is read back, the fields beside it are unchanged.
-/
import Mathlib.Tactic

namespace RyazhaClk.BitFields

variable {w : ℕ}

def mask (w lo len : ℕ) : BitVec w := (BitVec.allOnes len).setWidth w <<< lo

def getField (x : BitVec w) (lo len : ℕ) : BitVec len := x.extractLsb' lo len

def setField (x : BitVec w) (lo : ℕ) {len : ℕ} (v : BitVec len) : BitVec w :=
  (x &&& ~~~mask w lo len) ||| (v.setWidth w <<< lo)

/-- the two words agree outside the field -/
def SameOutside (lo len : ℕ) (x y : BitVec w) : Prop := ∀ i, i < lo ∨ lo + len ≤ i → y.getLsbD i = x.getLsbD i

variable {x : BitVec w} {lo len : ℕ} {v : BitVec len}

theorem getLsbD_mask (i : ℕ) : (mask w lo len).getLsbD i = decide (i < w ∧ lo ≤ i ∧ i < lo + len) := by
  rw [mask, BitVec.getLsbD_shiftLeft, BitVec.getLsbD_setWidth, BitVec.getLsbD_allOnes, Bool.eq_iff_iff]
  simp only [Bool.and_eq_true, Bool.not_eq_true', decide_eq_true_eq, decide_eq_false_iff_not]
  omega

/-- **a written word, bit by bit** -/
theorem getLsbD_setField (h : lo + len ≤ w) (i : ℕ) :
    (setField x lo v).getLsbD i = if lo ≤ i ∧ i < lo + len then v.getLsbD (i - lo) else x.getLsbD i := by
  rw [setField, BitVec.getLsbD_or, BitVec.getLsbD_and, BitVec.getLsbD_not, getLsbD_mask, BitVec.getLsbD_shiftLeft,
    BitVec.getLsbD_setWidth]
  by_cases hin : lo ≤ i ∧ i < lo + len
  · have hw : i < w := by omega
    have hsub : i - lo < w := by omega
    simp [hin, hw, hsub, not_lt.2 hin.1]
  · rw [if_neg hin]
    by_cases hw : i < w
    · have hv : i < lo ∨ v.getLsbD (i - lo) = false := by
        by_cases hlo : i < lo
        · exact Or.inl hlo
        · exact Or.inr (BitVec.getLsbD_of_ge v _ (by omega))
      rcases hv with hv | hv <;> simp [hin, hw, hv]
    · simp [hw, BitVec.getLsbD_of_ge x i (not_lt.1 hw)]

theorem getField_setField (h : lo + len ≤ w) : getField (setField x lo v) lo len = v := by
  apply BitVec.eq_of_getLsbD_eq
  intro i hi
  rw [getField, BitVec.getLsbD_extractLsb', getLsbD_setField h, if_pos (by omega), Nat.add_sub_cancel_left]
  simp [hi]

theorem sameOutside_setField (h : lo + len ≤ w) : SameOutside lo len x (setField x lo v) := by
  intro i hi
  rw [getLsbD_setField h, if_neg (by omega)]

theorem getField_of_sameOutside {y : BitVec w} (h : SameOutside lo len x y) {lo' len' : ℕ}
    (hdisjoint : lo' + len' ≤ lo ∨ lo + len ≤ lo') : getField y lo' len' = getField x lo' len' := by
  apply BitVec.eq_of_getLsbD_eq
  intro i hi
  rw [getField, getField, BitVec.getLsbD_extractLsb', BitVec.getLsbD_extractLsb', h _ (by omega)]

/-- **the fields beside the written one are unchanged** -/
theorem getField_setField_of_disjoint (h : lo + len ≤ w) {lo' len' : ℕ} (hdisjoint : lo' + len' ≤ lo ∨ lo + len ≤ lo') :
    getField (setField x lo v) lo' len' = getField x lo' len' :=
  getField_of_sameOutside (sameOutside_setField h) hdisjoint

/-- the field of a word that agrees elsewhere makes the two equal -/
theorem setField_getField {y : BitVec w} (hsame : SameOutside lo len x y) (h : lo + len ≤ w) :
    setField x lo (getField y lo len) = y := by
  apply BitVec.eq_of_getLsbD_eq
  intro i _
  rw [getLsbD_setField h]
  by_cases hin : lo ≤ i ∧ i < lo + len
  · rw [if_pos hin, getField, BitVec.getLsbD_extractLsb', Nat.add_sub_cancel' hin.1]
    simp [show i - lo < len by omega]
  · rw [if_neg hin, hsame i (by omega)]

end RyazhaClk.BitFields
