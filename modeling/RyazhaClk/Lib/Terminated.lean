/-
Tables that end at their first empty row. A fixed array of rows is read up to the first empty one, never past a limit,
and a new table is installed by writing its rows over the head of an old one.

- `not_empty_of_lt_used`, `empty_at_used`: rows in use are not empty, the row behind them is unless the limit cut them.
- `used_overlay`: rows without an empty one among them, written over an image that is empty behind them, are read back
  exactly.
- `take_overlay`: whatever lies behind, the rows written are the rows at the head.
- `mapHead_overlay`, `map_mapIdx`: a change of the rows in place is one before they are written, and keeps the columns
  it does not touch.
-/
import Mathlib.Data.List.TakeWhile
import Mathlib.Tactic

namespace RyazhaClk.Terminated

variable {α : Type*} (empty : α → Bool)

/-- the rows before the first empty one, at most `limit` of them -/
def used (limit : ℕ) (rows : List α) : List α :=
  (rows.take limit).takeWhile fun r => !empty r

/-- `rows` written over the head of `image` -/
def overlay (rows image : List α) : List α :=
  rows ++ image.drop rows.length

/-- the first `n` rows of `image` changed in place, each by its index -/
def mapHead (n : ℕ) (f : ℕ → α → α) (image : List α) : List α :=
  (image.take n).mapIdx f ++ image.drop n

/-! ## Reading -/

theorem used_initial (limit : ℕ) (rows : List α) : used empty limit rows <+: rows :=
  (List.takeWhile_prefix _).trans (List.take_prefix limit rows)

theorem length_used_le (limit : ℕ) (rows : List α) : (used empty limit rows).length ≤ limit := by
  have h := (List.takeWhile_prefix (l := rows.take limit) fun r => !empty r).length_le
  exact h.trans (List.length_take_le limit rows)

theorem used_cons (limit : ℕ) (r : α) (rows : List α) :
    used empty (limit + 1) (r :: rows) = if empty r then [] else r :: used empty limit rows := by
  cases hempty : empty r <;> simp [used, hempty]

theorem not_empty_of_lt_used {limit i : ℕ} {rows : List α} (hi : i < (used empty limit rows).length) {r : α}
    (hr : rows[i]? = some r) : empty r = false := by
  obtain ⟨rest, hrest⟩ := used_initial empty limit rows
  rw [← hrest, List.getElem?_append_left hi] at hr
  simpa using List.mem_takeWhile_imp (List.mem_of_getElem? hr)

theorem empty_at_used {limit : ℕ} {rows : List α} (hlt : (used empty limit rows).length < limit) {r : α}
    (hr : rows[(used empty limit rows).length]? = some r) : empty r = true := by
  induction limit generalizing rows with
  | zero => exact absurd hlt (Nat.not_lt_zero _)
  | succ limit ih =>
    rcases rows with _ | ⟨head, rows⟩
    · simp at hr
    · rw [used_cons] at hlt hr
      cases hempty : empty head with
      | true =>
        rw [hempty] at hr
        obtain rfl : head = r := by simpa using hr
        exact hempty
      | false =>
        simp only [hempty, Bool.false_eq_true, if_false, List.length_cons, List.getElem?_cons_succ] at hlt hr
        exact ih (by omega) hr

/-- rows in use followed by empty ones are read back exactly -/
theorem used_append {limit : ℕ} {rows rest : List α} (hlen : rows.length ≤ limit)
    (hrows : ∀ r ∈ rows, empty r = false) (hrest : ∀ r ∈ rest, empty r = true) :
    used empty limit (rows ++ rest) = rows := by
  have hstop : (rest.take (limit - rows.length)).takeWhile (fun r => !empty r) = [] := by
    rw [List.takeWhile_eq_nil_iff]
    intro h0 hkeep
    have hempty := hrest _ (List.mem_of_mem_take (List.getElem_mem h0))
    simp only [List.get_eq_getElem, Bool.not_eq_true', hempty] at hkeep
    exact Bool.noConfusion hkeep
  rw [used, List.take_append, List.take_of_length_le hlen,
    List.takeWhile_append_of_pos (fun r hr => by simp [hrows r hr]), hstop, List.append_nil]

/-! ## Installing -/

@[simp] theorem take_overlay (rows image : List α) : (overlay rows image).take rows.length = rows := by
  simp [overlay]

theorem used_overlay {limit : ℕ} {rows image : List α} (hlen : rows.length ≤ limit)
    (hrows : ∀ r ∈ rows, empty r = false) (himage : ∀ r ∈ image.drop rows.length, empty r = true) :
    used empty limit (overlay rows image) = rows :=
  used_append empty hlen hrows himage

/-- rows are read back exactly when none of them is empty and the image goes on with an empty row -/
theorem used_overlay_iff {limit : ℕ} {rows image : List α} (hlen : rows.length ≤ limit) :
    used empty limit (overlay rows image) = rows ↔
      (∀ r ∈ rows, empty r = false) ∧ (rows.length < limit → ∀ r ∈ image[rows.length]?, empty r = true) := by
  have hsplit : used empty limit (overlay rows image) =
      (rows ++ (image.drop rows.length).take (limit - rows.length)).takeWhile fun r => !empty r := by
    rw [used, overlay, List.take_append, List.take_of_length_le hlen]
  have hnext : (image.drop rows.length)[0]? = image[rows.length]? := by
    rw [List.getElem?_drop, Nat.add_zero]
  have hbehind : ((image.drop rows.length).take (limit - rows.length)).takeWhile (fun r => !empty r) = [] ↔
      (rows.length < limit → ∀ r ∈ image[rows.length]?, empty r = true) := by
    rw [← hnext]
    rcases image.drop rows.length with _ | ⟨next, rest⟩
    · simp
    · rcases Nat.lt_or_ge rows.length limit with hlt | hge
      · obtain ⟨k, hk⟩ := Nat.exists_eq_add_of_lt hlt
        rw [show limit - rows.length = k + 1 by omega, List.take_succ_cons, List.takeWhile_cons]
        cases hempty : empty next <;> simp [hlt, hempty]
      · rw [show limit - rows.length = 0 by omega]
        simp [not_lt.2 hge]
  rw [hsplit, ← hbehind]
  constructor
  · intro h
    have hrows : ∀ r ∈ rows, empty r = false := by
      intro r hr
      rw [← h] at hr
      simpa using List.mem_takeWhile_imp hr
    rw [List.takeWhile_append_of_pos (fun r hr => by simp [hrows r hr])] at h
    exact ⟨hrows, List.append_right_eq_self.1 h⟩
  · rintro ⟨hrows, hstop⟩
    rw [List.takeWhile_append_of_pos (fun r hr => by simp [hrows r hr]), hstop, List.append_nil]

/-- reading back as many rows as were written is reading them back -/
theorem used_overlay_of_length {limit : ℕ} {rows image : List α}
    (h : (used empty limit (overlay rows image)).length = rows.length) :
    used empty limit (overlay rows image) = rows := by
  have hused := used_initial empty limit (overlay rows image)
  have hrows : rows <+: overlay rows image := List.prefix_append _ _
  exact (List.prefix_of_prefix_length_le hused hrows h.le).eq_of_length h

theorem mapHead_overlay (f : ℕ → α → α) (rows image : List α) :
    mapHead rows.length f (overlay rows image) = overlay (rows.mapIdx f) image := by
  rw [mapHead, take_overlay, overlay, overlay, List.drop_left, List.length_mapIdx]

theorem getElem?_overlay {rows image : List α} {i : ℕ} (hi : i < rows.length) :
    (overlay rows image)[i]? = rows[i]? := by
  rw [overlay, List.getElem?_append_left hi]

/-- a change that keeps a field of every row keeps that field's column -/
theorem map_mapIdx {β : Type*} {f : ℕ → α → α} {g : α → β} (hf : ∀ i r, g (f i r) = g r) (rows : List α) :
    (rows.mapIdx f).map g = rows.map g := by
  apply List.ext_getElem
  · simp
  · intro i h1 h2
    simp [hf]

end RyazhaClk.Terminated
