/-
Shift registers with linear feedback, the arithmetic under reflected checksums: a state of `w` bits moves down by one
place, and the polynomial is added where a one falls out. Input bits are added at the low end.

Results, for a polynomial with its top bit set:
- `step_injective`: no two states move to the same one, so a state can be traced back.
- `feed_eq_iterate`: at most `w` input bits can be added all at once, in front of as many steps.
- `feed_injective`: inputs of at most `w` bits that differ lead to different states.
- `feed_window`: inputs that differ within `w` consecutive bits only lead to different states.
-/
import Mathlib.Tactic

namespace RyazhaClk.ShiftRegister

variable {w : ℕ} (P : BitVec w)

/-- one place down, with feedback -/
def step (c : BitVec w) : BitVec w := (c >>> 1) ^^^ (if c.getLsbD 0 then P else 0)

/-- a list of bits as a word, first bit lowest -/
def ofBits : List Bool → BitVec w
  | [] => 0
  | b :: l => (ofBits l <<< 1) ^^^ (if b then 1 else 0)

/-- one input bit -/
def shiftIn (c : BitVec w) (b : Bool) : BitVec w := step P (c ^^^ (if b then 1 else 0))

def feed (c : BitVec w) (l : List Bool) : BitVec w := l.foldl (shiftIn P) c

theorem feed_append (c : BitVec w) (l l' : List Bool) : feed P c (l ++ l') = feed P (feed P c l) l' := List.foldl_append

/-! ## Steps -/

theorem getLsbD_step (c : BitVec w) (i : ℕ) :
    (step P c).getLsbD i = Bool.xor (c.getLsbD (i + 1)) (c.getLsbD 0 && P.getLsbD i) := by
  rw [step, BitVec.getLsbD_xor, BitVec.getLsbD_ushiftRight, Nat.add_comm 1]
  cases c.getLsbD 0 <;> simp

/-- steps are linear -/
theorem step_xor (c c' : BitVec w) : step P (c ^^^ c') = step P c ^^^ step P c' := by
  apply BitVec.eq_of_getLsbD_eq
  intro i _
  simp only [BitVec.getLsbD_xor, getLsbD_step]
  cases c.getLsbD 0 <;> cases c'.getLsbD 0 <;> cases P.getLsbD i <;> simp

variable {P}

/-- the bit that falls out is the top bit of the next state -/
theorem step_injective (hP : P.msb = true) : Function.Injective (step P) := by
  intro c c' h
  have hw : 0 < w := by
    by_contra hw
    obtain rfl : w = 0 := by omega
    simp [BitVec.msb] at hP
  have htop : P.getLsbD (w - 1) = true := by rwa [BitVec.msb_eq_getLsbD_last] at hP
  have hlow : c.getLsbD 0 = c'.getLsbD 0 := by
    have hbit := congrArg (fun x => x.getLsbD (w - 1)) h
    simpa [getLsbD_step, htop, Nat.sub_add_cancel hw, BitVec.getLsbD_of_ge] using hbit
  apply BitVec.eq_of_getLsbD_eq
  intro i hi
  rcases i with _ | i
  · exact hlow
  · have hbit := congrArg (fun x => x.getLsbD i) h
    simpa [getLsbD_step, hlow] using hbit

/-! ## Input -/

theorem getLsbD_ofBits (l : List Bool) (i : ℕ) :
    (ofBits l : BitVec w).getLsbD i = (decide (i < w) && l.getD i false) := by
  induction l generalizing i with
  | nil => simp [ofBits]
  | cons b l ih =>
    rw [ofBits, BitVec.getLsbD_xor, BitVec.getLsbD_shiftLeft, ih]
    rcases i with _ | i
    · cases b <;> simp [BitVec.getLsbD_one]
    · by_cases hi : i + 1 < w
      · have hlow : i < w := by omega
        cases b <;> simp [hi, hlow]
      · cases b <;> simp [hi, BitVec.getLsbD_one]

/-- lists of one length that fit the register are told apart by their words -/
theorem ofBits_inj {l l' : List Bool} (hlen : l.length = l'.length) (hw : l.length ≤ w)
    (h : (ofBits l : BitVec w) = ofBits l') : l = l' := by
  apply List.ext_getElem hlen
  intro i hi hi'
  have hiw : i < w := hi.trans_le hw
  have hbit : (ofBits l : BitVec w).getLsbD i = (ofBits l' : BitVec w).getLsbD i := by rw [h]
  rw [getLsbD_ofBits, getLsbD_ofBits] at hbit
  simpa [hiw, hi, hi'] using hbit

/-- a word with its top bit clear comes back down -/
theorem step_shiftLeft {y : BitVec w} (hy : y.getLsbD (w - 1) = false) : step P (y <<< 1) = y := by
  apply BitVec.eq_of_getLsbD_eq
  intro i hi
  rcases Nat.lt_or_ge (i + 1) w with hlt | hge
  · have hup : (y <<< 1).getLsbD (i + 1) = y.getLsbD i := by
      simp only [BitVec.getLsbD_shiftLeft, hlt, decide_true, Nat.add_sub_cancel, Bool.true_and]
      simp
    have hlow : (y <<< 1).getLsbD 0 = false := by simp
    rw [getLsbD_step, hup, hlow, Bool.false_and, Bool.xor_false]
  · obtain rfl : i = w - 1 := by omega
    simp [getLsbD_step, hy]

/-- **Input in one go.** Up to `w` bits can be added before the steps. -/
theorem feed_eq_iterate (c : BitVec w) {l : List Bool} (hl : l.length ≤ w) :
    feed P c l = (step P)^[l.length] (c ^^^ ofBits l) := by
  induction l generalizing c with
  | nil => simp [feed, ofBits]
  | cons b l ih =>
    have hlen : l.length < w := hl
    have htop : (ofBits l : BitVec w).getLsbD (w - 1) = false := by
      rw [getLsbD_ofBits, List.getD_eq_getElem?_getD, List.getElem?_eq_none (by omega)]
      simp
    calc feed P c (b :: l) = feed P (shiftIn P c b) l := rfl
      _ = (step P)^[l.length] (shiftIn P c b ^^^ ofBits l) := ih _ hlen.le
      _ = (step P)^[l.length] (step P (c ^^^ (if b then 1 else 0)) ^^^ step P (ofBits l <<< 1)) := by
        rw [step_shiftLeft htop, shiftIn]
      _ = (step P)^[l.length] (step P (c ^^^ ofBits (b :: l))) := by
        rw [← step_xor, ofBits, BitVec.xor_assoc, BitVec.xor_comm (ofBits l <<< 1)]
      _ = (step P)^[(b :: l).length] (c ^^^ ofBits (b :: l)) := rfl

/-! ## Detection -/

theorem feed_state_injective (hP : P.msb = true) (l : List Bool) : Function.Injective fun c => feed P c l := by
  induction l with
  | nil => exact fun c c' h => h
  | cons b l ih =>
    intro c c' h
    have hshift : shiftIn P c b = shiftIn P c' b := ih h
    exact (BitVec.xor_left_inj _).1 (step_injective hP hshift)

/-- **Short inputs are told apart.** -/
theorem feed_injective (hP : P.msb = true) (c : BitVec w) {l l' : List Bool} (hlen : l.length = l'.length)
    (hw : l.length ≤ w) (h : feed P c l = feed P c l') : l = l' := by
  rw [feed_eq_iterate c hw, feed_eq_iterate c (hlen ▸ hw), ← hlen] at h
  have hword := (step_injective hP).iterate l.length h
  exact ofBits_inj hlen hw ((BitVec.xor_right_inj c).1 hword)

/-- **A window of `w` bits.** Inputs of one length that agree outside of it lead to one state only if they are equal. -/
theorem feed_window (hP : P.msb = true) (c : BitVec w) {x y : List Bool} (hlen : x.length = y.length) (k : ℕ)
    (hout : ∀ i, i < k ∨ k + w ≤ i → x[i]? = y[i]?) (h : feed P c x = feed P c y) : x = y := by
  have hsplit : ∀ l : List Bool, l = l.take k ++ ((l.drop k).take w ++ (l.drop k).drop w) := fun l => by
    rw [List.take_append_drop, List.take_append_drop]
  have hpre : x.take k = y.take k := by
    apply List.ext_getElem?
    intro i
    rw [List.getElem?_take, List.getElem?_take]
    split_ifs with hi
    · exact hout i (Or.inl hi)
    · rfl
  have hpost : (x.drop k).drop w = (y.drop k).drop w := by
    apply List.ext_getElem?
    intro i
    simp only [List.getElem?_drop]
    exact hout _ (Or.inr (by omega))
  rw [hsplit x, hsplit y, hpre, hpost] at h ⊢
  rw [feed_append, feed_append, feed_append, feed_append] at h
  have hstate := feed_state_injective hP _ h
  have hwindow := feed_injective hP _ (by simp [hlen]) (List.length_take_le w _) hstate
  rw [hwindow]

end RyazhaClk.ShiftRegister
