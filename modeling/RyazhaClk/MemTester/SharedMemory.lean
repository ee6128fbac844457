/-
The tester over one memory: a worker at a job makes one access of it at a time, and the accesses of all workers interleave
freely.

- `shares_reachable`: as long as no cell is used by two workers, every state of the tester is one that it also reaches with
  a memory for each worker and each job run in one go.
-/
import Mathlib.Tactic
import RyazhaClk.Lib.Accesses
import RyazhaClk.MemTester.Lockstep

namespace RyazhaClk.MemTester

open Accesses Transition

/-- the threads, what is left of the job each worker is at, and the memory -/
structure SharedTester (n : ℕ) (M : Type) where
  threads : Tester n Unit
  left : Fin n → Prog M ℤ
  mem : M

variable {n : ℕ} {M δ : Type}

def SharedTester.start (mem : M) : SharedTester n M := ⟨Tester.start fun _ => (), fun _ => .done 0, mem⟩

/-- a job that has come to its result -/
def reported (_ : Fin n) (_ : ℤ) (r : ℤ) (u : Unit) : ℤ × Unit := (r, u)

variable (jobs : ℕ) (prog : Fin n → ℤ → δ → Prog M ℤ)

/-- a worker makes the next access of its job, or goes on behind its result; a job is taken up with the call to it -/
def sharedWorker (s : SharedTester n M) (d : Fin n) (draw : δ) : SharedTester n M :=
  let threads (r : ℤ) := s.threads.setWorker d (testWorker jobs reported d r (s.threads.workers d))
  match (s.threads.workers d).pc with
  | .running _ =>
    match s.left d with
    | .step next rest => { s with left := Function.update s.left d (rest s.mem), mem := next s.mem }
    | .done r => { s with threads := threads r }
  | .waiting k => { s with threads := threads 0, left := Function.update s.left d (prog d k draw) }
  | _ => { s with threads := threads 0 }

def sharedStep (s : SharedTester n M) : TesterEvent n δ → Option (SharedTester n M)
  | .main => some { s with threads := mainStep jobs s.threads }
  | .worker d draw => some (sharedWorker jobs prog s d draw)

/-! ## Threads without their memory -/

def Worker.forget (w : Worker M) : Worker Unit := { w with mem := () }

def Tester.forget (t : Tester n M) : Tester n Unit := ⟨t.main, fun d => (t.workers d).forget, t.ok⟩

theorem forget_setWorker (t : Tester n M) (d : Fin n) (w : Worker M) :
    (t.setWorker d w).forget = t.forget.setWorker d w.forget := by
  unfold Tester.forget Tester.setWorker
  congr 1
  funext e
  dsimp only
  rw [Function.update_apply, Function.update_apply]
  split_ifs <;> rfl

theorem forget_mainStep (t : Tester n M) : (mainStep jobs t).forget = mainStep jobs t.forget := by
  have hset : ∀ main d w, ({ t.setWorker d w with main } : Tester n M).forget =
      { t.forget.setWorker d w.forget with main } :=
    fun main d w => congrArg (fun u : Tester n Unit => { u with main }) (forget_setWorker t d w)
  have hmain : t.forget.main = t.main := rfl
  unfold mainStep
  rw [hmain]
  cases t.main with
  | ready j | give k j | clear k j =>
    dsimp only
    split_ifs
    · exact hset _ _ _
    · rfl
  | collect k j =>
    have hreport : ∀ hj : j < n,
        (t.forget.workers ⟨j, hj⟩).testWorkerReport = (t.workers ⟨j, hj⟩).testWorkerReport := fun _ => rfl
    dsimp only
    simp only [hreport]
    split_ifs <;> rfl
  | failed j => rfl

/-- a worker goes on without its memory as with it, if it is given the result of the job it is at -/
theorem forget_testWorker {job : Fin n → ℤ → δ → M → ℤ × M} (d : Fin n) (draw : δ) (w : Worker M) {r : ℤ}
    (hr : ∀ k, w.pc = .running k → r = (job d k draw w.mem).1) :
    (testWorker jobs job d draw w).forget = testWorker jobs reported d r w.forget := by
  have hpc : w.forget.pc = w.pc := rfl
  have hjob : w.forget.testJobId = w.testJobId := rfl
  unfold testWorker
  rw [hpc, hjob]
  cases h : w.pc with
  | gate | waiting k =>
    dsimp only
    split_ifs <;> rfl
  | running k =>
    dsimp only [reported]
    rw [hr k h]
    split_ifs <;> rfl
  | stopped => rfl

/-! ## A memory for each worker -/

section Cells

variable {C V : Type} {jobs} {prog : Fin n → ℤ → δ → Prog (C → V) ℤ} {S : Fin n → Set C}

/-- the jobs of the workers, each run in one go -/
def runs (prog : Fin n → ℤ → δ → Prog (C → V) ℤ) (d : Fin n) (k : ℤ) (draw : δ) (m : C → V) : ℤ × (C → V) :=
  (prog d k draw).run m

/-- the memory has the cells of a worker as it has them itself, or will have them behind the job it is at -/
def Mirrors (prog : Fin n → ℤ → δ → Prog (C → V) ℤ) (S : Fin n → Set C) (d : Fin n) (left : Prog (C → V) ℤ) (m : C → V)
    (w : Worker (C → V)) : Prop :=
  match w.pc with
  | .running k => Within (S d) left ∧ ∃ draw, (left.run m).1 = (runs prog d k draw w.mem).1 ∧
      Set.EqOn (left.run m).2 (runs prog d k draw w.mem).2 (S d)
  | _ => Set.EqOn m w.mem (S d)

structure Shares (prog : Fin n → ℤ → δ → Prog (C → V) ℤ) (S : Fin n → Set C) (s : SharedTester n (C → V))
    (t : Tester n (C → V)) : Prop where
  threads : s.threads = t.forget
  mirrors : ∀ d, Mirrors prog S d (s.left d) s.mem (t.workers d)

/-- what happens to other cells does not matter -/
theorem Mirrors.congr {d : Fin n} {left : Prog (C → V) ℤ} {m m' : C → V} {w : Worker (C → V)}
    (h : Mirrors prog S d left m w) (hm : Set.EqOn m' m (S d)) : Mirrors prog S d left m' w := by
  unfold Mirrors at h ⊢
  cases hpc : w.pc with
  | running k =>
    rw [hpc] at h
    obtain ⟨hwithin, draw, hresult, hmem⟩ := h
    obtain ⟨hresult', hmem'⟩ := hwithin.run_congr hm
    exact ⟨hwithin, draw, hresult'.trans hresult, hmem'.trans hmem⟩
  | gate | waiting k | stopped =>
    rw [hpc] at h
    exact hm.trans h

theorem mirrors_iff {d : Fin n} {left : Prog (C → V) ℤ} {m : C → V} {w : Worker (C → V)} (hpc : ∀ k, w.pc ≠ .running k) :
    Mirrors prog S d left m w ↔ Set.EqOn m w.mem (S d) := by
  unfold Mirrors
  cases h : w.pc with
  | running k => exact absurd h (hpc k)
  | gate | waiting k | stopped => exact Iff.rfl

/-! ## Steps -/

section Step

variable {s : SharedTester n (C → V)} {t : Tester n (C → V)}

theorem setWorker_self (t : Tester n M) (d : Fin n) : t.setWorker d (t.workers d) = t := by
  unfold Tester.setWorker
  rw [Function.update_eq_self]

/-- one worker has moved, and the cells of the others are as they were -/
theorem Shares.setWorker (h : Shares prog S s t) {d : Fin n} {w : Worker (C → V)} {p : Prog (C → V) ℤ} {m : C → V}
    (hothers : ∀ e, e ≠ d → Set.EqOn m s.mem (S e)) (hd : Mirrors prog S d p m w) :
    Shares prog S ⟨(t.setWorker d w).forget, Function.update s.left d p, m⟩ (t.setWorker d w) := by
  refine ⟨rfl, fun e => ?_⟩
  rw [setWorker_apply]
  dsimp only
  by_cases hed : e = d
  · rw [hed, if_pos rfl, Function.update_self]
    exact hd
  · rw [if_neg hed, Function.update_of_ne hed]
    exact (h.mirrors e).congr (hothers e hed)

theorem Shares.main (h : Shares prog S s t) :
    Shares prog S { s with threads := mainStep jobs s.threads } (mainStep jobs t) := by
  constructor
  case threads => rw [forget_mainStep, h.threads]
  case mirrors =>
    intro d
    obtain ⟨hpc, -, hmem⟩ := mainStep_worker jobs t d
    have hd := h.mirrors d
    unfold Mirrors at hd ⊢
    rw [hpc, hmem]
    exact hd

/-- **A step of a worker** is a step of the worker with its own memory, or an access within a job, which does not show. -/
theorem Shares.worker (h : Shares prog S s t) (hdisjoint : ∀ d e, d ≠ e → Disjoint (S d) (S e))
    (hwithin : ∀ d k draw, Within (S d) (prog d k draw)) (d : Fin n) (draw : δ) :
    ∃ es t', run (testerStep jobs (runs prog)) t es = some t' ∧ Shares prog S (sharedWorker jobs prog s d draw) t' := by
  have hpc : (s.threads.workers d).pc = (t.workers d).pc := by
    rw [h.threads]
    rfl
  have hd := h.mirrors d
  -- the threads after a step of the worker with its own memory
  have hstep : ∀ draw r, (∀ k, (t.workers d).pc = .running k → r = (runs prog d k draw (t.workers d).mem).1) →
      s.threads.setWorker d (testWorker jobs reported d r (s.threads.workers d)) =
        (t.setWorker d (testWorker jobs (runs prog) d draw (t.workers d))).forget := by
    intro draw r hr
    rw [h.threads, forget_setWorker, forget_testWorker jobs d draw _ hr]
    rfl
  have hsame : ∀ e, e ≠ d → Set.EqOn s.mem s.mem (S e) := fun e _ => Set.eqOn_refl s.mem (S e)
  unfold sharedWorker
  dsimp only
  rw [hpc]
  cases hcase : (t.workers d).pc with
  | gate =>
    refine ⟨[.worker d draw], _, rfl, ?_⟩
    dsimp only
    rw [hstep draw 0 (by simp [hcase]), ← Function.update_eq_self d s.left]
    refine h.setWorker hsame ?_
    rw [mirrors_iff (by simp [hcase])] at hd
    rw [testWorker, hcase]
    dsimp only
    split_ifs
    · exact hd
    · exact (mirrors_iff (by simp [hcase])).2 hd
  | waiting k =>
    refine ⟨[.worker d draw], _, rfl, ?_⟩
    dsimp only
    rw [hstep draw 0 (by simp [hcase])]
    refine h.setWorker hsame ?_
    rw [mirrors_iff (by simp [hcase])] at hd
    rw [testWorker, hcase]
    dsimp only
    split_ifs
    · exact ⟨hwithin d k draw, draw, (hwithin d k draw).run_congr hd⟩
    · exact (mirrors_iff (by simp [hcase])).2 hd
  | running k =>
    unfold Mirrors at hd
    rw [hcase] at hd
    obtain ⟨hleft, draw₀, hresult, hmem⟩ := hd
    dsimp only
    cases hprog : s.left d with
    | step next rest =>
      rw [hprog] at hleft hresult hmem
      refine ⟨[], t, rfl, ?_⟩
      have hothers : ∀ e, e ≠ d → Set.EqOn (next s.mem) s.mem (S e) := fun e he =>
        hleft.unseen (hdisjoint d e he.symm) s.mem
      have hmirrors : Mirrors prog S d (rest s.mem) (next s.mem) (t.workers d) := by
        unfold Mirrors
        rw [hcase]
        exact ⟨hleft.rest s.mem, draw₀, hresult, hmem⟩
      have hshares := h.setWorker hothers hmirrors
      rwa [setWorker_self, ← h.threads] at hshares
    | done r =>
      rw [hprog] at hresult hmem
      refine ⟨[.worker d draw₀], _, rfl, ?_⟩
      dsimp only
      have hr : ∀ k', (t.workers d).pc = .running k' → r = (runs prog d k' draw₀ (t.workers d).mem).1 := by
        intro k' hk'
        rw [hcase] at hk'
        obtain rfl := WorkerPc.running.inj hk'
        exact hresult
      rw [hstep draw₀ r hr, ← Function.update_eq_self d s.left]
      refine h.setWorker hsame ?_
      rw [testWorker, hcase]
      dsimp only
      split_ifs <;> exact hmem
  | stopped =>
    refine ⟨[.worker d draw], _, rfl, ?_⟩
    dsimp only
    rw [hstep draw 0 (by simp [hcase]), ← Function.update_eq_self d s.left]
    refine h.setWorker hsame ?_
    rw [testWorker, hcase]
    exact hd

/-- **Apart, the workers are on their own.** As long as the jobs of two workers have no cell in common, every state of the
tester over one memory is one that it reaches with a memory for each worker, running each job in one go. -/
theorem shares_reachable (hdisjoint : ∀ d e, d ≠ e → Disjoint (S d) (S e))
    (hwithin : ∀ d k draw, Within (S d) (prog d k draw)) {m : C → V}
    (hr : Reachable (sharedStep jobs prog) (SharedTester.start m) s) :
    ∃ t, Reachable (testerStep jobs (runs prog)) (Tester.start fun _ => m) t ∧ Shares prog S s t := by
  have hstart : Shares prog S (SharedTester.start m) (Tester.start fun _ => m) := ⟨rfl, fun d => Set.eqOn_refl m (S d)⟩
  refine hr.simulates (Shares prog S) ?_ hstart
  intro s t e s' h hs
  cases e with
  | main =>
    obtain rfl := Option.some.inj hs
    exact ⟨[.main], _, rfl, h.main⟩
  | worker d draw =>
    obtain rfl := Option.some.inj hs
    exact h.worker hdisjoint hwithin d draw

end Step

end Cells

end RyazhaClk.MemTester
