/-
Memory behind an address decoder, whose cells may store something else than what is written to them.

A `Wiring` sends every address to a cell and says what a cell stores of a value. Results, for any addresses and values:
- `reads_fill_iff`: a list of writes is read back as written exactly when every cell it reaches keeps its value and the
  addresses that share a cell were given the same one.
- `Sound.read_fill`, `Sound.read_fill_of_notMem`: on a sound region the memory is a plain one.
-/
import Mathlib.Tactic

namespace RyazhaClk.FaultyMemory

/-- the cell behind an address, and what a cell stores of a value -/
structure Wiring (A C V : Type*) where
  cell : A → C
  keep : C → V → V

variable {A C V : Type*} [DecidableEq C] (w : Wiring A C V)

def read (m : C → V) (a : A) : V := m (w.cell a)

def write (m : C → V) (a : A) (v : V) : C → V := Function.update m (w.cell a) (w.keep (w.cell a) v)

/-- writes one after the other -/
def fill (m : C → V) (ws : List (A × V)) : C → V := ws.foldl (fun m p => write w m p.1 p.2) m

@[simp] theorem fill_nil (m : C → V) : fill w m [] = m := rfl

@[simp] theorem fill_cons (m : C → V) (p : A × V) (ws : List (A × V)) :
    fill w m (p :: ws) = fill w (write w m p.1 p.2) ws := rfl

theorem fill_append (m : C → V) (ws ws' : List (A × V)) : fill w m (ws ++ ws') = fill w (fill w m ws) ws' :=
  List.foldl_append

theorem fill_flatMap {ι : Type*} (m : C → V) (f : ι → List (A × V)) (is : List ι) :
    is.foldl (fun m i => fill w m (f i)) m = fill w m (is.flatMap f) := by
  induction is generalizing m with
  | nil => rfl
  | cons i is ih => rw [List.foldl_cons, ih, List.flatMap_cons, fill_append]

variable {w}

/-- a cell that is written to stores what it keeps of the last value it was given -/
theorem exists_last (m : C → V) (ws : List (A × V)) {p : A × V} (hp : p ∈ ws) :
    ∃ q ∈ ws, w.cell q.1 = w.cell p.1 ∧ read w (fill w m ws) p.1 = w.keep (w.cell p.1) q.2 := by
  induction ws using List.reverseRecOn generalizing p with
  | nil => exact absurd hp List.not_mem_nil
  | append_singleton ws q ih =>
    rw [fill_append, fill_cons, fill_nil, read, write]
    by_cases hcell : w.cell q.1 = w.cell p.1
    · exact ⟨q, by simp, hcell, by rw [hcell, Function.update_self]⟩
    · have hmem : p ∈ ws := by
        rcases List.mem_append.1 hp with hp | hp
        · exact hp
        · rw [List.mem_singleton.1 hp] at hcell
          exact absurd rfl hcell
      obtain ⟨q', hq', hcell', hread⟩ := ih hmem
      refine ⟨q', List.mem_append_left _ hq', hcell', ?_⟩
      rw [Function.update_of_ne (Ne.symm hcell)]
      exact hread

theorem fill_of_notMem (m : C → V) {ws : List (A × V)} {c : C} (h : ∀ p ∈ ws, w.cell p.1 ≠ c) : fill w m ws c = m c := by
  induction ws generalizing m with
  | nil => rfl
  | cons p ws ih =>
    rw [fill_cons, ih _ fun q hq => h q (List.mem_cons_of_mem p hq), write]
    exact Function.update_of_ne (Ne.symm (h p List.mem_cons_self)) _ _

theorem read_fill_of_notMem (m : C → V) {ws : List (A × V)} {a : A} (h : ∀ p ∈ ws, w.cell p.1 ≠ w.cell a) :
    read w (fill w m ws) a = read w m a := fill_of_notMem m h

/-- memories that are alike on some cells stay so -/
theorem fill_congr {T : Set C} {m m' : C → V} (h : Set.EqOn m m' T) (ws : List (A × V)) :
    Set.EqOn (fill w m ws) (fill w m' ws) T := by
  induction ws generalizing m m' with
  | nil => exact h
  | cons p ws ih =>
    rw [fill_cons, fill_cons]
    refine ih fun c hc => ?_
    rw [write, write, Function.update_apply, Function.update_apply, h hc]

/-- **What a verified fill says.** The writes are read back as they were made exactly when every cell keeps its value
and no two of them gave one cell different values. -/
theorem reads_fill_iff (m : C → V) (ws : List (A × V)) :
    (∀ p ∈ ws, read w (fill w m ws) p.1 = p.2) ↔
      (∀ p ∈ ws, w.keep (w.cell p.1) p.2 = p.2) ∧ ∀ p ∈ ws, ∀ q ∈ ws, w.cell p.1 = w.cell q.1 → p.2 = q.2 := by
  constructor
  · intro h
    have hshared : ∀ p ∈ ws, ∀ q ∈ ws, w.cell p.1 = w.cell q.1 → p.2 = q.2 := by
      intro p hp q hq hcell
      rw [← h p hp, ← h q hq, read, read, hcell]
    refine ⟨fun p hp => ?_, hshared⟩
    obtain ⟨q, hq, hcell, hread⟩ := exists_last m ws hp
    rw [h p hp, hshared q hq p hp hcell] at hread
    exact hread.symm
  · rintro ⟨hkeep, hshared⟩ p hp
    obtain ⟨q, hq, hcell, hread⟩ := exists_last m ws hp
    rw [hread, hshared q hq p hp hcell, hkeep p hp]

/-! ## Sound regions -/

/-- on `S` no two addresses share a cell and every cell keeps every value -/
structure Sound (w : Wiring A C V) (S : Set A) : Prop where
  apart : Set.InjOn w.cell S
  keeps : ∀ a ∈ S, ∀ v, w.keep (w.cell a) v = v

variable {S : Set A}

omit [DecidableEq C] in
theorem Sound.mono {T : Set A} (h : Sound w S) (hT : T ⊆ S) : Sound w T :=
  ⟨h.apart.mono hT, fun a ha => h.keeps a (hT ha)⟩

theorem Sound.read_fill_of_notMem (h : Sound w S) (m : C → V) {ws : List (A × V)} {b : A} (hws : ∀ p ∈ ws, p.1 ∈ S)
    (hb : b ∈ S) (hnot : ∀ p ∈ ws, p.1 ≠ b) : read w (fill w m ws) b = read w m b :=
  FaultyMemory.read_fill_of_notMem m fun p hp hcell => hnot p hp (h.apart (hws p hp) hb hcell)

theorem Sound.read_fill (h : Sound w S) (m : C → V) {ws : List (A × V)} {p : A × V} (hws : ∀ p ∈ ws, p.1 ∈ S)
    (hone : ∀ p ∈ ws, ∀ q ∈ ws, p.1 = q.1 → p.2 = q.2) (hp : p ∈ ws) : read w (fill w m ws) p.1 = p.2 :=
  (reads_fill_iff m ws).2 ⟨fun p hp => h.keeps p.1 (hws p hp) p.2,
    fun p hp q hq hcell => hone p hp q hq (h.apart (hws p hp) (hws q hq) hcell)⟩ p hp

end RyazhaClk.FaultyMemory
