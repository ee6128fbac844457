/-
Partial step systems: a step may abort (`none`), a run is a list of events.

Results, for any state type and any event type:
- `run_inv`: an invariant kept by every step whose guard holds, holds after every run whose steps all meet the guard.
- `Takes.inv`: the state in which any step of such a run is taken satisfies the invariant.
- `AllSteps.congr_inv`, `AllSteps.of_inv`: conditions on every step of a run, from what they are on one step.
- `throughout_iff`: a property holds in every state of a run exactly when each step leads to a state that has it.
- `Reachable.simulates`: a system each of whose steps is a run of another one reaches only what that one reaches.
- `HistoryFree.of_const`: what can be observed of a state, compared over all pairs of runs.
-/
import Mathlib.Tactic

namespace RyazhaClk.Transition

variable {σ ε : Type*} (step : σ → ε → Option σ)

/-- the run of a list of events; `none` once a step aborts -/
def run : σ → List ε → Option σ
  | s, [] => some s
  | s, e :: es => (step s e).bind fun t => run t es

@[simp] theorem run_nil (s : σ) : run step s [] = some s := rfl

theorem run_cons (s : σ) (e : ε) (es : List ε) :
    run step s (e :: es) = (step s e).bind fun t => run step t es := rfl

theorem run_cons_some {s u : σ} {e : ε} {es : List ε} (h : run step s (e :: es) = some u) :
    ∃ t, step s e = some t ∧ run step t es = some u := by
  rwa [run_cons, Option.bind_eq_some_iff] at h

/-- every step of the run from `s` is taken in a state and on an event that meet `C` -/
def AllSteps (C : σ → ε → Prop) : σ → List ε → Prop
  | _, [] => True
  | s, e :: es => C s e ∧ ∀ t, step s e = some t → AllSteps C t es

/-- the step from `t` to `t'` on `e` is one of the run of `es` from `s` -/
def Takes (s : σ) (es : List ε) (t : σ) (e : ε) (t' : σ) : Prop :=
  ∃ pre post, es = pre ++ e :: post ∧ run step s pre = some t ∧ step t e = some t'

/-- `Inv` holds in every state the run of `es` from `s` comes through -/
def Throughout (Inv : σ → Prop) (s : σ) (es : List ε) : Prop :=
  ∀ pre post u, es = pre ++ post → run step s pre = some u → Inv u

/-- `s` is reached from `s0` by some run -/
def Reachable (s0 s : σ) : Prop := ∃ es, run step s0 es = some s

variable {step}
variable {C : σ → ε → Prop} {s t t' u : σ} {e : ε} {es pre : List ε}

theorem AllSteps.append {fs : List ε} (h : AllSteps step C s (es ++ fs)) (hr : run step s es = some t) :
    AllSteps step C s es ∧ AllSteps step C t fs := by
  induction es generalizing s with
  | nil =>
    obtain rfl : s = t := Option.some.inj hr
    exact ⟨trivial, h⟩
  | cons e es ih =>
    obtain ⟨s', hs', hr'⟩ := run_cons_some step hr
    obtain ⟨hC, hrest⟩ := h
    refine ⟨⟨hC, fun t' ht' => ?_⟩, (ih (hrest s' hs') hr').2⟩
    obtain rfl : s' = t' := Option.some.inj (hs'.symm.trans ht')
    exact (ih (hrest s' hs') hr').1

/-- **Run rule.** An invariant kept by every guarded step holds after every run of guarded steps. -/
theorem run_inv (Inv : σ → Prop) (hstep : ∀ s e t, Inv s → C s e → step s e = some t → Inv t)
    (hC : AllSteps step C s es) (h0 : Inv s) (hr : run step s es = some u) : Inv u := by
  induction es generalizing s with
  | nil => exact Option.some.inj hr ▸ h0
  | cons e es ih =>
    obtain ⟨t, ht, hr'⟩ := run_cons_some step hr
    exact ih (hC.2 t ht) (hstep s e t h0 hC.1 ht) hr'

/-- two conditions that agree on every guarded step from an invariant that the first of them keeps agree on every run of
guarded steps -/
theorem AllSteps.congr_inv {D G : σ → ε → Prop} (Inv : σ → Prop) (h : AllSteps step G s es) (h0 : Inv s)
    (hCD : ∀ s e, Inv s → G s e → (C s e ↔ D s e))
    (hstep : ∀ s e t, Inv s → G s e → C s e → step s e = some t → Inv t) :
    AllSteps step C s es ↔ AllSteps step D s es := by
  induction es generalizing s with
  | nil => exact Iff.rfl
  | cons e es ih =>
    have hhead := hCD s e h0 h.1
    constructor
    · rintro ⟨hC, hrest⟩
      exact ⟨hhead.1 hC, fun t ht => (ih (h.2 t ht) (hstep s e t h0 h.1 hC ht)).1 (hrest t ht)⟩
    · rintro ⟨hD, hrest⟩
      exact ⟨hhead.2 hD, fun t ht => (ih (h.2 t ht) (hstep s e t h0 h.1 (hhead.2 hD) ht)).2 (hrest t ht)⟩

/-- two conditions that agree on every guarded step agree on every run of guarded steps -/
theorem AllSteps.congr {D G : σ → ε → Prop} (h : AllSteps step G s es) (hCD : ∀ s e, G s e → (C s e ↔ D s e)) :
    AllSteps step C s es ↔ AllSteps step D s es :=
  h.congr_inv (fun _ => True) trivial (fun s e _ => hCD s e) fun _ _ _ _ _ _ _ => trivial

/-- a condition that follows from an invariant holds at every step of a guarded run -/
theorem AllSteps.of_inv {G : σ → ε → Prop} (Inv : σ → Prop) (hstep : ∀ s e t, Inv s → G s e → step s e = some t → Inv t)
    (hC : ∀ s e, Inv s → G s e → C s e) (h : AllSteps step G s es) (h0 : Inv s) : AllSteps step C s es := by
  induction es generalizing s with
  | nil => trivial
  | cons e es ih => exact ⟨hC s e h0 h.1, fun t ht => ih (h.2 t ht) (hstep s e t h0 h.1 ht)⟩

theorem allSteps_cons_some (h : step s e = some t) : AllSteps step C s (e :: es) ↔ C s e ∧ AllSteps step C t es := by
  constructor
  · exact fun ⟨hC, hrest⟩ => ⟨hC, hrest t h⟩
  · rintro ⟨hC, hrest⟩
    refine ⟨hC, fun t' ht' => ?_⟩
    obtain rfl := Option.some.inj (h.symm.trans ht')
    exact hrest

theorem allSteps_cons_none (h : step s e = none) : AllSteps step C s (e :: es) ↔ C s e :=
  ⟨fun hC => hC.1, fun hC => ⟨hC, fun t ht => absurd (h.symm.trans ht) (by simp)⟩⟩

/-- a decidable condition can be checked along a run -/
instance decidableAllSteps [∀ s e, Decidable (C s e)] : ∀ s es, Decidable (AllSteps step C s es)
  | _, [] => isTrue trivial
  | s, e :: es =>
    match h : step s e with
    | none => decidable_of_iff _ (allSteps_cons_none h).symm
    | some t =>
      have : Decidable (AllSteps step C t es) := decidableAllSteps t es
      decidable_of_iff _ (allSteps_cons_some h).symm

/-- a condition on the events alone -/
theorem allSteps_of_forall {P : ε → Prop} (h : ∀ e ∈ es, P e) : AllSteps step (fun _ e => P e) s es := by
  induction es generalizing s with
  | nil => trivial
  | cons e es ih => exact ⟨h e List.mem_cons_self, fun _ _ => ih fun e' he' => h e' (List.mem_cons_of_mem e he')⟩

theorem allSteps_true : AllSteps step (fun _ _ => True) s es := allSteps_of_forall fun _ _ => trivial

theorem throughout_iff {Inv : σ → Prop} (h0 : Inv s) :
    Throughout step Inv s es ↔ AllSteps step (fun s e => ∀ t, step s e = some t → Inv t) s es := by
  induction es generalizing s with
  | nil =>
    constructor
    · intro _
      trivial
    · intro _ pre post u hes hr
      obtain ⟨rfl, -⟩ := List.append_eq_nil_iff.1 hes.symm
      exact Option.some.inj hr ▸ h0
  | cons e es ih =>
    constructor
    · intro h
      have hnext : ∀ t, step s e = some t → Inv t := by
        intro t ht
        exact h [e] es t rfl (by rw [run_cons, ht, Option.bind_some, run_nil])
      refine ⟨hnext, fun t ht => (ih (hnext t ht)).1 ?_⟩
      intro pre post u hes hr
      exact h (e :: pre) post u (by rw [hes, List.cons_append]) (by rw [run_cons, ht, Option.bind_some, hr])
    · rintro ⟨hnext, hrest⟩ pre post u hes hr
      cases pre with
      | nil => exact Option.some.inj hr ▸ h0
      | cons e' pre =>
        obtain ⟨rfl, rfl⟩ := List.cons.inj hes
        obtain ⟨t, ht, hr'⟩ := run_cons_some step hr
        exact (ih (hnext t ht)).2 (hrest t ht) pre post u rfl hr'

theorem Reachable.inv (Inv : σ → Prop) (hstep : ∀ s e t, Inv s → step s e = some t → Inv t) (h0 : Inv s)
    (hr : Reachable step s u) : Inv u := by
  obtain ⟨es, hes⟩ := hr
  exact run_inv Inv (fun s e t hi _ h => hstep s e t hi h) allSteps_true h0 hes

theorem run_append (es fs : List ε) (hr : run step s es = some t) : run step s (es ++ fs) = run step t fs := by
  induction es generalizing s with
  | nil =>
    obtain rfl : s = t := Option.some.inj hr
    rfl
  | cons e es ih =>
    obtain ⟨s', hs', hr'⟩ := run_cons_some step hr
    rw [List.cons_append, run_cons, hs', Option.bind_some, ih hr']

/-- **Simulation.** What holds between the starts, and behind each step between the state it leads to and one that a run of
the other system leads to, holds between any state that is reached and one that the other system reaches. -/
theorem Reachable.simulates {τ κ : Type*} {step' : τ → κ → Option τ} {a : τ} (R : σ → τ → Prop)
    (hstep : ∀ s a e t, R s a → step s e = some t → ∃ es b, run step' a es = some b ∧ R t b) (h0 : R s a)
    (hr : Reachable step s u) : ∃ b, Reachable step' a b ∧ R u b := by
  refine hr.inv (fun u => ∃ b, Reachable step' a b ∧ R u b) ?_ ⟨a, ⟨[], rfl⟩, h0⟩
  rintro s e t ⟨b, ⟨es, hes⟩, hR⟩ ht
  obtain ⟨fs, c, hfs, hRc⟩ := hstep s b e t hR ht
  exact ⟨c, ⟨es ++ fs, (run_append es fs hes).trans hfs⟩, hRc⟩

theorem Takes.inv (Inv : σ → Prop) (ht : Takes step s es t e t')
    (hstep : ∀ s e t, Inv s → C s e → step s e = some t → Inv t)
    (hC : AllSteps step C s es) (h0 : Inv s) : Inv t := by
  obtain ⟨pre, post, rfl, hpre, -⟩ := ht
  exact run_inv Inv hstep (hC.append hpre).1 h0 hpre

/-- of the states that meet `C`, `obs` shows the same after every run -/
def HistoryFree {ω : Type*} (step : σ → ε → Option σ) (C : σ → Prop) (obs : σ → ω) (s0 : σ) : Prop :=
  ∀ es fs s t, run step s0 es = some s → run step s0 fs = some t → C s → C t → obs s = obs t

theorem HistoryFree.of_const {ω : Type*} {C : σ → Prop} {obs : σ → ω} (h : ∀ s t, C s → C t → obs s = obs t) (s0 : σ) :
    HistoryFree step C obs s0 := fun _ _ s t _ _ hs ht => h s t hs ht

end RyazhaClk.Transition
