/-
Records of words. A layout lists the fields in order, each with its number of words; a slot is one word of a field. The
words of a record are read and written through the layout's slots.

- `slot_injective`: two slots of a layout without doubled fields share a place only if they are the same.
- `read_store`: storing a list of slots and reading one of them gives the value stored there.
- `getElem?_store_congr`: what is stored in one slot shows in no other place.
-/
import Mathlib.Tactic

namespace RyazhaClk.Layout

variable {F : Type*} [DecidableEq F]

/-- the place of the `i`-th word of a field, counted from `start` -/
def slotFrom (start : ℕ) : List (F × ℕ) → F × ℕ → Option ℕ
  | [], _ => none
  | (g, n) :: L, fi => if g = fi.1 then (if fi.2 < n then some (start + fi.2) else none) else slotFrom (start + n) L fi

/-- the place of a slot; none where the field has no such word -/
def slot (L : List (F × ℕ)) (fi : F × ℕ) : Option ℕ := slotFrom 0 L fi

/-- the number of words of a record -/
def size (L : List (F × ℕ)) : ℕ := (L.map Prod.snd).sum

/-- a slot of a record; 0 where there is none -/
def read (L : List (F × ℕ)) (t : List ℕ) (fi : F × ℕ) : ℕ := ((slot L fi).bind (t[·]?)).getD 0

def write (L : List (F × ℕ)) (t : List ℕ) (fi : F × ℕ) (w : ℕ) : List ℕ :=
  match slot L fi with
  | some k => t.set k w
  | none => t

/-- write a list of slots, in order -/
def store (L : List (F × ℕ)) (ws : List ((F × ℕ) × ℕ)) (t : List ℕ) : List ℕ :=
  ws.foldl (fun t s => write L t s.1 s.2) t

variable {L M : List (F × ℕ)} {start k : ℕ} {fi gj : F × ℕ} {t : List ℕ} {w : ℕ}

theorem slotFrom_range (h : slotFrom start L fi = some k) : start ≤ k ∧ k < start + size L := by
  induction L generalizing start with
  | nil => cases h
  | cons gn L ih =>
    obtain ⟨g, n⟩ := gn
    rw [slotFrom] at h
    have hsize : size ((g, n) :: L) = n + size L := by simp [size]
    rw [hsize]
    split_ifs at h with hg hi
    · obtain rfl := Option.some.inj h
      omega
    · obtain ⟨h1, h2⟩ := ih h
      omega

theorem slot_lt (h : slot L fi = some k) : k < size L := by
  have := (slotFrom_range h).2
  omega

theorem slotFrom_injective (hi : slotFrom start L fi = some k) (hj : slotFrom start L gj = some k) : fi = gj := by
  induction L generalizing start with
  | nil => cases hi
  | cons gn L ih =>
    obtain ⟨g, n⟩ := gn
    rw [slotFrom] at hi hj
    split_ifs at hi hj with h1 h2 h3 h4 h5 h6
    · -- both in the first field
      have hk : start + fi.2 = start + gj.2 := Option.some.inj (hi.trans hj.symm)
      exact Prod.ext (h1.symm.trans h3) (by omega)
    · have hlo := (slotFrom_range hj).1
      have hk := Option.some.inj hi
      omega
    · have hlo := (slotFrom_range hi).1
      have hk := Option.some.inj hj
      omega
    · exact ih hi hj

/-- no two slots share a place -/
theorem slot_injective (hi : slot L fi = some k) (hj : slot L gj = some k) : fi = gj := slotFrom_injective hi hj

@[simp] theorem length_write : (write L t fi w).length = t.length := by
  unfold write
  split <;> simp

@[simp] theorem length_store (ws : List ((F × ℕ) × ℕ)) : (store L ws t).length = t.length := by
  induction ws generalizing t with
  | nil => rfl
  | cons s ws ih => exact (ih (t := write L t s.1 s.2)).trans length_write

theorem read_eq (h : slot L fi = some k) : read L t fi = (t[k]?).getD 0 := by
  rw [read, h, Option.bind_some]

theorem read_write_same (h : slot L fi = some k) (hk : k < t.length) : read L (write L t fi w) fi = w := by
  rw [read_eq h, write, h]
  simp [hk]

theorem read_write_of_ne (h : fi ≠ gj) : read L (write L t gj w) fi = read L t fi := by
  unfold read write
  cases hj : slot L gj with
  | none => rfl
  | some k =>
    cases hi : slot L fi with
    | none => rfl
    | some l =>
      have hne : k ≠ l := by
        rintro rfl
        exact h (slot_injective hi hj)
      simp [List.getElem?_set_ne hne]

theorem read_store_of_notMem {ws : List ((F × ℕ) × ℕ)} (h : fi ∉ ws.map Prod.fst) : read L (store L ws t) fi = read L t fi := by
  induction ws generalizing t with
  | nil => rfl
  | cons s ws ih =>
    rw [List.map_cons, List.mem_cons, not_or] at h
    exact (ih h.2).trans (read_write_of_ne h.1)

/-- **Stored slots are read back**, when no slot is stored twice. -/
theorem read_store {ws : List ((F × ℕ) × ℕ)} (hnodup : (ws.map Prod.fst).Nodup) (hmem : (fi, w) ∈ ws)
    (hslot : slot L fi = some k) (hk : k < t.length) : read L (store L ws t) fi = w := by
  induction ws generalizing t with
  | nil => cases hmem
  | cons s ws ih =>
    rw [List.map_cons, List.nodup_cons] at hnodup
    rcases List.mem_cons.1 hmem with rfl | hmem
    · exact (read_store_of_notMem hnodup.1).trans (read_write_same hslot hk)
    · exact ih hnodup.2 hmem (by simpa using hk)

/-- a bound on every word is kept by storing words below it -/
theorem forall_mem_store {b : ℕ} {ws : List ((F × ℕ) × ℕ)} (ht : ∀ x ∈ t, x < b) (hws : ∀ s ∈ ws, s.2 < b) :
    ∀ x ∈ store L ws t, x < b := by
  induction ws generalizing t with
  | nil => exact ht
  | cons s ws ih =>
    have hwrite : ∀ x ∈ write L t s.1 s.2, x < b := by
      intro x hx
      unfold write at hx
      split at hx
      · rcases List.mem_or_eq_of_mem_set hx with hx | rfl
        · exact ht x hx
        · exact hws s (by simp)
      · exact ht x hx
    exact ih hwrite fun x hx => hws x (List.mem_cons_of_mem s hx)

/-- storing what is there changes nothing -/
theorem store_same {ws : List ((F × ℕ) × ℕ)} (h : ∀ s ∈ ws, s.2 = read L t s.1) : store L ws t = t := by
  induction ws with
  | nil => rfl
  | cons s ws ih =>
    have hwrite : write L t s.1 s.2 = t := by
      unfold write
      split
      · next k hk =>
        rw [h s (by simp), read_eq hk]
        by_cases hlt : k < t.length
        · simp [List.getElem?_eq_getElem hlt]
        · exact List.set_eq_of_length_le (by omega)
      · rfl
    have hcons : store L (s :: ws) t = store L ws (write L t s.1 s.2) := rfl
    rw [hcons, hwrite]
    exact ih fun x hx => h x (List.mem_cons_of_mem s hx)

theorem read_lt {b : ℕ} (hb : 0 < b) (ht : ∀ x ∈ t, x < b) (fi : F × ℕ) : read L t fi < b := by
  unfold read
  cases h : (slot L fi).bind (t[·]?) with
  | none => exact hb
  | some w =>
    obtain ⟨k, -, hk⟩ := Option.bind_eq_some_iff.1 h
    exact ht w (List.mem_of_getElem? hk)

/-- what is stored in one slot shows in no other place -/
theorem getElem?_store_congr {α : Type*} {ws : List α} {dst : α → F × ℕ} {f g : α → ℕ} {l : ℕ} {u : List ℕ}
    (hL : slot L fi = some k) (hl : l ≠ k) (hws : ∀ a ∈ ws, dst a ≠ fi → f a = g a) (htu : t[l]? = u[l]?)
    (hlen : t.length = u.length) :
    (store L (ws.map fun a => (dst a, f a)) t)[l]? = (store L (ws.map fun a => (dst a, g a)) u)[l]? := by
  induction ws generalizing t u with
  | nil => exact htu
  | cons a ws ih =>
    have hwrite : (write L t (dst a) (f a))[l]? = (write L u (dst a) (g a))[l]? := by
      unfold write
      cases hj : slot L (dst a) with
      | none => exact htu
      | some j =>
        dsimp only
        by_cases hjl : j = l
        · -- another slot: both write the same word there
          have hne : dst a ≠ fi := by
            rintro rfl
            exact hl (hjl.symm.trans (Option.some.inj (hj.symm.trans hL)))
          rw [hws a (by simp) hne, hjl, List.getElem?_set, List.getElem?_set, hlen, if_pos rfl, if_pos rfl]
        · rw [List.getElem?_set_ne hjl, List.getElem?_set_ne hjl, htu]
    exact ih (fun b hb => hws b (List.mem_cons_of_mem a hb)) hwrite (by rw [length_write, length_write, hlen])

end RyazhaClk.Layout
