/-
Handles that are acquired and released: a history of both, the handles live behind it, and histories in which every
handle is released once for each time it is acquired.

- `live_append`, `orderly_append`: both follow the history step by step.
- `Orderly.live_nodup`: behind an orderly history no handle is live twice.
- `live_sublist`: live handles stand in the order they were acquired in.
-/
import Mathlib.Tactic

namespace RyazhaClk.Handles

variable {α : Type*}

inductive Event (α : Type*) where
  | acquire (a : α)
  | release (a : α)

/-- everything acquired, in order -/
def acquired : List (Event α) → List α
  | [] => []
  | .acquire a :: history => a :: acquired history
  | .release _ :: history => acquired history

theorem acquired_append (history events : List (Event α)) :
    acquired (history ++ events) = acquired history ++ acquired events := by
  induction history with
  | nil => rfl
  | cons first history ih =>
    rcases first with a | a
    · rw [List.cons_append, acquired, ih, acquired, List.cons_append]
    · rw [List.cons_append, acquired, ih, acquired]

variable [DecidableEq α]

/-- the handles live behind one event -/
def after (held : List α) : Event α → List α
  | .acquire a => held ++ [a]
  | .release a => held.erase a

/-- acquired and not yet released, in the order of acquiring -/
def live (history : List (Event α)) : List α := history.foldl after []

/-- an event that acquires a handle that is not live, or releases one that is -/
def Fits (held : List α) : Event α → Prop
  | .acquire a => a ∉ held
  | .release a => a ∈ held

/-- each event fits what is live in front of it: nothing is released twice -/
def Orderly (history : List (Event α)) : Prop :=
  ∀ front e back, history = front ++ e :: back → Fits (live front) e

variable {history : List (Event α)} {e : Event α}

@[simp] theorem live_nil : live ([] : List (Event α)) = [] := rfl

@[simp] theorem live_append (history : List (Event α)) (e : Event α) : live (history ++ [e]) = after (live history) e := by
  rw [live, List.foldl_append]
  rfl

theorem orderly_nil : Orderly ([] : List (Event α)) := by
  intro front e back h
  simp at h

theorem orderly_append (h : Orderly history) (he : Fits (live history) e) : Orderly (history ++ [e]) := by
  intro front e' back hsplit
  rcases List.eq_nil_or_concat back with rfl | ⟨init, last, rfl⟩
  · obtain ⟨rfl, heq⟩ := List.append_inj' hsplit rfl
    obtain rfl := (List.cons.inj heq).1
    exact he
  · have hassoc : history ++ [e] = (front ++ e' :: init) ++ [last] := by simpa using hsplit
    exact h front e' init (List.append_inj' hassoc rfl).1

/-- a handle acquired and released at once leaves nothing behind -/
theorem live_acquire_release {a : α} (h : a ∉ live history) :
    live (history ++ [.acquire a, .release a]) = live history := by
  have hsplit : history ++ [.acquire a, .release a] = (history ++ [Event.acquire a]) ++ [.release a] := by simp
  rw [hsplit, live_append, live_append, after, after, List.erase_append_right _ h]
  simp

theorem Orderly.live_nodup (h : Orderly history) : (live history).Nodup := by
  induction history using List.reverseRecOn with
  | nil => exact List.nodup_nil
  | append_singleton history e ih =>
    have hfront : Orderly history := fun front e' back hsplit => h front e' (back ++ [e]) (by rw [hsplit]; simp)
    have hfits := h history e [] rfl
    rw [live_append]
    rcases e with a | a
    · rw [after, ← List.concat_eq_append]
      exact (ih hfront).concat hfits
    · exact (ih hfront).erase a

/-- the live handles stand in the order they were acquired in -/
theorem live_sublist (history : List (Event α)) : (live history).Sublist (acquired history) := by
  induction history using List.reverseRecOn with
  | nil => exact List.Sublist.slnil
  | append_singleton history e ih =>
    rw [live_append, acquired_append]
    rcases e with a | a
    · exact ih.append (List.Sublist.refl [a])
    · rw [acquired, acquired, List.append_nil]
      exact (List.erase_sublist).trans ih

end RyazhaClk.Handles
