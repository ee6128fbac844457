/-
Programs over a memory that others use at the same time: one access after the other, with anything in between.

- `Within.run_congr`: a program that keeps to its cells ends the same way and leaves them the same, whatever the others hold.
- `Within.unseen`: an access of a program that keeps to other cells leaves these as they are.
-/
import Mathlib.Tactic
import Mathlib.Order.CompletePartialOrder

namespace RyazhaClk.Accesses

/-- what is left of a program: its result, or an access that makes `next` of the memory, and what follows it -/
inductive Prog (M α : Type) where
  | done (a : α)
  | step (next : M → M) (rest : M → Prog M α)

variable {M C V α β ι : Type}

namespace Prog

/-- the result, and the memory that is left, with nothing in between -/
def run : Prog M α → M → α × M
  | .done a, m => (a, m)
  | .step next rest, m => (rest m).run (next m)

instance : CoeFun (Prog M α) fun _ => M → α × M := ⟨run⟩

/-- the memory that is left -/
def exec (p : Prog M α) (m : M) : M := (p.run m).2

def bind : Prog M α → (α → Prog M β) → Prog M β
  | .done a, f => f a
  | .step next rest, f => .step next fun m => (rest m).bind f

instance : Monad (Prog M) where
  pure := .done
  bind := bind

/-- an access that looks at the memory -/
def load (f : M → α) : Prog M α := .step id fun m => .done (f m)

/-- an access that changes it -/
def store (f : M → M) : Prog M Unit := .step f fun _ => .done ()

@[simp] theorem run_pure (a : α) (m : M) : (pure a : Prog M α).run m = (a, m) := rfl

@[simp] theorem run_load (f : M → α) (m : M) : (load f).run m = (f m, m) := rfl

@[simp] theorem run_store (f : M → M) (m : M) : (store f).run m = ((), f m) := rfl

@[simp] theorem run_bind (p : Prog M α) (f : α → Prog M β) (m : M) : (p >>= f).run m = (f (p.run m).1).run (p.exec m) := by
  show (p.bind f).run m = _
  unfold exec
  induction p generalizing m with
  | done a => rfl
  | step next rest ih => exact ih m (next m)

theorem run_bind_of {p : Prog M α} {m m' : M} {a : α} (h : p.run m = (a, m')) (f : α → Prog M β) :
    (p >>= f).run m = (f a).run m' := by
  rw [run_bind, exec, h]

@[simp] theorem exec_pure (a : α) (m : M) : (pure a : Prog M α).exec m = m := rfl

@[simp] theorem exec_load (f : M → α) (m : M) : (load f).exec m = m := rfl

@[simp] theorem exec_store (f : M → M) (m : M) : (store f).exec m = f m := rfl

@[simp] theorem exec_bind (p : Prog M α) (f : α → Prog M β) (m : M) :
    (p >>= f).exec m = (f (p.run m).1).exec (p.exec m) := congrArg Prod.snd (run_bind p f m)

/-- a loop changes the memory as its rounds do, one after the other -/
theorem exec_forM (is : List ι) (f : ι → Prog M PUnit) (m : M) :
    (is.forM f).exec m = is.foldl (fun m i => (f i).exec m) m := by
  induction is generalizing m with
  | nil => rfl
  | cons i is ih =>
    show (f i >>= fun _ => is.forM f).exec m = _
    rw [exec_bind, ih]
    rfl

/-- a loop that only looks at the memory -/
theorem run_foldlM_of_load {g : β → ι → M → β} (f : β → ι → Prog M β) (hf : ∀ b i m, (f b i).run m = (g b i m, m))
    (is : List ι) (b : β) (m : M) : (is.foldlM f b).run m = (is.foldl (fun b i => g b i m) b, m) := by
  induction is generalizing b with
  | nil => rfl
  | cons i is ih =>
    show (f b i >>= fun b => is.foldlM f b).run m = _
    rw [run_bind, exec, hf, ih]
    rfl

end Prog

open Prog

/-! ## Cells -/

/-- the program looks at the cells in `S` only, and changes no others -/
inductive Within (S : Set C) : Prog (C → V) α → Prop where
  | done (a : α) : Within S (.done a)
  | step {next : (C → V) → C → V} {rest : (C → V) → Prog (C → V) α} (hkeep : ∀ m, Set.EqOn (next m) m Sᶜ)
      (hnext : ∀ m m', Set.EqOn m m' S → Set.EqOn (next m) (next m') S)
      (hrest : ∀ m m', Set.EqOn m m' S → rest m = rest m') (h : ∀ m, Within S (rest m)) : Within S (.step next rest)

namespace Within

variable {S T : Set C} {p : Prog (C → V) α} {m m' : C → V}

/-- **The other cells do not matter.** -/
theorem run_congr (h : Within S p) (hm : Set.EqOn m m' S) :
    (p.run m).1 = (p.run m').1 ∧ Set.EqOn (p.run m).2 (p.run m').2 S := by
  induction h generalizing m m' with
  | done a => exact ⟨rfl, hm⟩
  | step _ hnext hrest _ ih =>
    unfold Prog.run
    rw [hrest m m' hm]
    exact ih m' (hnext m m' hm)

/-- **An access is not seen** by those who keep to other cells. -/
theorem unseen {next : (C → V) → C → V} {rest : (C → V) → Prog (C → V) α} (h : Within S (.step next rest))
    (hdisjoint : Disjoint S T) (m : C → V) : Set.EqOn (next m) m T := by
  cases h with
  | step hkeep _ _ _ => exact (hkeep m).mono hdisjoint.subset_compl_left

theorem rest {next : (C → V) → C → V} {rest : (C → V) → Prog (C → V) α} (h : Within S (.step next rest)) (m : C → V) :
    Within S (rest m) := by
  cases h with
  | step _ _ _ hrest => exact hrest m

theorem load {f : (C → V) → α} (hf : ∀ m m', Set.EqOn m m' S → f m = f m') : Within S (Prog.load f) := by
  refine .step (fun _ _ _ => rfl) (fun _ _ hm => hm) (fun m m' hm => ?_) fun _ => .done _
  rw [hf m m' hm]

theorem store {f : (C → V) → C → V} (hkeep : ∀ m, Set.EqOn (f m) m Sᶜ)
    (hf : ∀ m m', Set.EqOn m m' S → Set.EqOn (f m) (f m') S) : Within S (Prog.store f) :=
  .step hkeep hf (fun _ _ _ => rfl) fun _ => .done _

theorem pure (a : α) : Within S (Pure.pure a : Prog (C → V) α) := .done a

theorem bind {f : α → Prog (C → V) β} (h : Within S p) (hf : ∀ a, Within S (f a)) : Within S (p >>= f) := by
  show Within S (p.bind f)
  induction h with
  | done a => exact hf a
  | step hkeep hnext hrest _ ih =>
    refine .step hkeep hnext (fun m m' hm => ?_) ih
    rw [hrest m m' hm]

theorem forM {is : List ι} {f : ι → Prog (C → V) PUnit} (hf : ∀ i ∈ is, Within S (f i)) : Within S (is.forM f) := by
  induction is with
  | nil => exact .done _
  | cons i is ih =>
    exact bind (hf i List.mem_cons_self) fun _ => ih fun j hj => hf j (List.mem_cons_of_mem i hj)

theorem foldlM {is : List ι} {f : β → ι → Prog (C → V) β} (hf : ∀ b, ∀ i ∈ is, Within S (f b i)) (b : β) :
    Within S (is.foldlM f b) := by
  induction is generalizing b with
  | nil => exact .done _
  | cons i is ih =>
    exact bind (hf b i List.mem_cons_self) fun b => ih (fun b j hj => hf b j (List.mem_cons_of_mem i hj)) b

end Within

end RyazhaClk.Accesses
