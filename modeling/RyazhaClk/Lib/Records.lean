/-
Arrays of records in a flat memory: the memory is a function of an integer address, an array has its records of `size`
cells one behind the other, and record `i` is the cells from `base + size * i` on.

- `record_moved`: a move of whole records is a shift of the indices, also where the two ranges overlap.
- `record_update`: a write to one field changes that field of that record.
- `record_writes`: writes to fields of a record, one after the other, are writes to the record.
- `Frame`: what a step leaves alone outside a range, and `record_of_frame` for the arrays outside it.
-/
import Mathlib.Tactic

namespace RyazhaClk.Records

variable {α : Type*} {size : ℕ} {w w' w'' : ℤ → α} {base : ℤ}

/-- the `n` cells from `src` on, moved to `dst` -/
def moved (w : ℤ → α) (dst src : ℤ) (n : ℕ) : ℤ → α := fun p =>
  if dst ≤ p ∧ p < dst + n then w (src + (p - dst)) else w p

def record (size : ℕ) (w : ℤ → α) (base : ℤ) (i : ℕ) : Fin size → α := fun k => w (base + size * i + k)

/-! ## Indices -/

/-- a cell lies behind the start of record `i` exactly when its record does -/
theorem start_le_iff {i j k : ℕ} (hk : k < size) : (size * i : ℤ) ≤ size * j + k ↔ i ≤ j := by
  have hdiv : (size * j + k) / size = j := by
    rw [Nat.mul_add_div (by omega), Nat.div_eq_of_lt hk, Nat.add_zero]
  have h := Nat.le_div_iff_mul_le (k := size) (x := i) (y := size * j + k) (by omega)
  rw [hdiv, Nat.mul_comm i] at h
  rw [h]
  exact_mod_cast Iff.rfl

theorem inside_iff (base : ℤ) {d m i k : ℕ} (hk : k < size) :
    (base + size * d ≤ base + size * i + k ∧ base + size * i + k < base + size * d + (size * m : ℕ)) ↔
      d ≤ i ∧ i < d + m := by
  have hlow := start_le_iff (i := d) (j := i) hk
  have hhigh := start_le_iff (i := d + m) (j := i) hk
  rw [Nat.cast_add, mul_add] at hhigh
  rw [Nat.cast_mul]
  constructor
  · rintro ⟨hge, hlt⟩
    exact ⟨hlow.1 (by linarith), not_le.1 fun hle => by linarith [hhigh.2 hle]⟩
  · rintro ⟨hge, hlt⟩
    exact ⟨by linarith [hlow.2 hge], by linarith [not_le.1 (mt hhigh.1 (not_le.2 hlt))]⟩

/-! ## Records behind a move and a write -/

/-- **a move of `m` records shifts their indices** -/
theorem record_moved (size : ℕ) (w : ℤ → α) (base : ℤ) (d s m i : ℕ) :
    record size (moved w (base + size * d) (base + size * s) (size * m)) base i =
      if d ≤ i ∧ i < d + m then record size w base (i - d + s) else record size w base i := by
  funext k
  have hin := inside_iff base (d := d) (m := m) (i := i) k.isLt
  by_cases h : d ≤ i ∧ i < d + m
  · rw [if_pos h, record, moved, if_pos (hin.2 h), record]
    congr 1
    push_cast [h.1]
    ring
  · rw [if_neg h, record, moved, if_neg (mt hin.1 h), record]

theorem record_update (w : ℤ → α) (base : ℤ) (i j : ℕ) (f : Fin size) (v : α) :
    record size (Function.update w (base + size * i + f) v) base j =
      if j = i then Function.update (record size w base i) f v else record size w base j := by
  funext k
  by_cases hj : j = i
  · subst hj
    rw [if_pos rfl, record]
    by_cases hk : k = f
    · rw [hk, Function.update_self, Function.update_self]
    · have hcell : base + (size : ℤ) * j + k ≠ base + (size : ℤ) * j + f := by
        intro h
        exact hk (Fin.ext (by omega))
      rw [Function.update_of_ne hcell, Function.update_of_ne hk, record]
  · rw [if_neg hj, record, record, Function.update_of_ne]
    intro h
    have hle := (start_le_iff (i := i) k.isLt).1 (show (size * i : ℤ) ≤ size * j + k by omega)
    have hge := (start_le_iff (i := j) f.isLt).1 (show (size * j : ℤ) ≤ size * i + f by omega)
    omega

/-! ## Frames -/

/-- nothing changes outside the cells from `lo` to `hi` -/
def Frame (lo hi : ℤ) (w w' : ℤ → α) : Prop := ∀ p, p < lo ∨ hi ≤ p → w' p = w p

theorem Frame.refl (lo hi : ℤ) (w : ℤ → α) : Frame lo hi w w := fun _ _ => rfl

theorem Frame.trans {lo hi : ℤ} (h : Frame lo hi w w') (h' : Frame lo hi w' w'') : Frame lo hi w w'' :=
  fun p hp => (h' p hp).trans (h p hp)

theorem Frame.mono {lo hi lo' hi' : ℤ} (h : Frame lo hi w w') (hlo : lo' ≤ lo) (hhi : hi ≤ hi') : Frame lo' hi' w w' :=
  fun p hp => h p (by omega)

theorem frame_moved {lo hi dst src : ℤ} {n : ℕ} (hlo : lo ≤ dst) (hhi : dst + n ≤ hi) :
    Frame lo hi w (moved w dst src n) := by
  intro p hp
  rw [moved, if_neg (by omega)]

theorem frame_update {lo hi p : ℤ} {v : α} (hlo : lo ≤ p) (hhi : p < hi) : Frame lo hi w (Function.update w p v) := by
  intro q hq
  rw [Function.update_of_ne (by omega)]

/-- a record outside the range is as it was -/
theorem record_of_frame {lo hi : ℤ} (h : Frame lo hi w w') {i : ℕ}
    (hout : base + size * i + size ≤ lo ∨ hi ≤ base + size * i) : record size w' base i = record size w base i := by
  funext k
  have hk := k.isLt
  exact h _ (by omega)

/-! ## Many writes to one record -/

/-- values written one after the other, at their places behind `start` -/
def writes (w : ℤ → α) (start : ℤ) (ws : List (ℕ × α)) : ℤ → α :=
  ws.foldl (fun w p => Function.update w (start + (p.1 : ℕ)) p.2) w

def setCell (r : Fin size → α) (p : ℕ × α) : Fin size → α := fun k => if k = p.1 then p.2 else r k

theorem record_setCell (w : ℤ → α) (start : ℤ) (p : ℕ × α) :
    record size (Function.update w (start + (p.1 : ℕ)) p.2) start 0 = setCell (record size w start 0) p := by
  funext k
  unfold record setCell
  rw [Function.update_apply]
  congr 1
  rw [eq_iff_iff]
  omega

theorem record_writes (w : ℤ → α) (start : ℤ) (ws : List (ℕ × α)) :
    record size (writes w start ws) start 0 = ws.foldl setCell (record size w start 0) := by
  unfold writes
  induction ws generalizing w with
  | nil => rfl
  | cons p ws ih => rw [List.foldl_cons, List.foldl_cons, ih, record_setCell]

/-- a cell no write goes to keeps its value -/
theorem setCells_of_ne {ws : List (ℕ × α)} {k : Fin size} (hws : ∀ p ∈ ws, (k : ℕ) ≠ p.1) (r : Fin size → α) :
    ws.foldl setCell r k = r k := by
  induction ws generalizing r with
  | nil => rfl
  | cons p ws ih =>
    obtain ⟨hp, hws⟩ := List.forall_mem_cons.1 hws
    rw [List.foldl_cons, ih hws, setCell, if_neg hp]

theorem frame_writes {ws : List (ℕ × α)} (hws : ∀ p ∈ ws, p.1 < size) (w : ℤ → α) (start : ℤ) :
    Frame start (start + size) w (writes w start ws) := by
  unfold writes
  induction ws generalizing w with
  | nil => exact Frame.refl _ _ w
  | cons p ws ih =>
    obtain ⟨hp, hws⟩ := List.forall_mem_cons.1 hws
    rw [List.foldl_cons]
    exact (frame_update (by omega) (by omega)).trans (ih hws _)

end RyazhaClk.Records
