/-
The main thread of the memory tester and its workers, which share a job number and a report for each worker.

The main thread calls the workers to a job by writing its number, waits for their reports one after the other and prints
"ok"; a worker polls its number, runs the job on its own buffer and reports. The steps of all threads interleave freely,
and what a job finds is a parameter.
- `lockstep`: the jobs come in order, and a worker runs only the one after the last "ok".
- `progress`: between two "ok" the state changes at most `7 * n + 3` times, and it can change unless the main thread has
  stopped or a worker has missed the number -2.
- `missed_forever`: a worker that has missed it keeps the tester from printing an "ok", for ever.
-/
import Mathlib.Tactic
import RyazhaClk.Lib.Transition

namespace RyazhaClk.MemTester

open Transition

/-! ## The threads -/

inductive WorkerPc where
  /-- polls for the number -2 -/
  | gate
  | waiting (currentJobId : ℤ)
  | running (currentJobId : ℤ)
  | stopped
deriving DecidableEq

/-- a worker with its part of the shared arrays; `passed` lists the jobs it has passed -/
structure Worker (M : Type) where
  pc : WorkerPc
  testJobId : ℤ
  testWorkerReport : ℤ
  mem : M
  passed : List ℤ

inductive MainPc where
  | ready (j : ℕ)
  | give (job : ℤ) (j : ℕ)
  | collect (job : ℤ) (j : ℕ)
  /-- has read a 1 from worker `j` -/
  | clear (job : ℤ) (j : ℕ)
  | failed (j : ℕ)
deriving DecidableEq

/-- `ok` lists the jobs that were printed as ok -/
structure Tester (n : ℕ) (M : Type) where
  main : MainPc
  workers : Fin n → Worker M
  ok : List ℤ

inductive TesterEvent (n : ℕ) (δ : Type) where
  | main
  /-- a step of worker `d`; `draw` is what a test it runs gets from outside -/
  | worker (d : Fin n) (draw : δ)

variable {n : ℕ} {M δ : Type}

def Tester.start (mem : Fin n → M) : Tester n M where
  main := .ready 0
  workers d := { pc := .gate, testJobId := 0, testWorkerReport := 0, mem := mem d, passed := [] }
  ok := []

def Tester.setWorker (s : Tester n M) (d : Fin n) (w : Worker M) : Tester n M :=
  { s with workers := Function.update s.workers d w }

variable (jobs : ℕ) (job : Fin n → ℤ → δ → M → ℤ × M)

/-- the job after the job `k`, of the stuck address test and `jobs` others -/
def nextJob (k : ℤ) : ℤ := if k + 1 < jobs then k + 1 else -1

def testWorker (d : Fin n) (draw : δ) (w : Worker M) : Worker M :=
  match w.pc with
  | .gate => if w.testJobId = -2 then { w with pc := .waiting (-1) } else w
  | .waiting k => if w.testJobId = k then { w with pc := .running k } else w
  | .running k =>
    let r := job d k draw w.mem
    if r.1 = 0 then
      { w with pc := .waiting (nextJob jobs k), testWorkerReport := 1, mem := r.2, passed := w.passed ++ [k] }
    else { w with pc := .stopped, testWorkerReport := -1, mem := r.2 }
  | .stopped => w

def mainStep (s : Tester n M) : Tester n M :=
  match s.main with
  | .ready j =>
    if h : j < n then
      { s.setWorker ⟨j, h⟩ { s.workers ⟨j, h⟩ with testJobId := -2 } with main := .ready (j + 1) }
    else { s with main := .give (-1) 0 }
  | .give k j =>
    if h : j < n then
      { s.setWorker ⟨j, h⟩ { s.workers ⟨j, h⟩ with testJobId := k } with main := .give k (j + 1) }
    else { s with main := .collect k 0 }
  | .collect k j =>
    if h : j < n then
      if (s.workers ⟨j, h⟩).testWorkerReport = -1 then { s with main := .failed j }
      else if (s.workers ⟨j, h⟩).testWorkerReport = 1 then { s with main := .clear k j }
      else s
    else { s with main := if k + 1 < jobs then .give (k + 1) 0 else .ready 0, ok := s.ok ++ [k] }
  | .clear k j =>
    if h : j < n then
      { s.setWorker ⟨j, h⟩ { s.workers ⟨j, h⟩ with testWorkerReport := 0 } with main := .collect k (j + 1) }
    else s
  | .failed _ => s

def testerStep (s : Tester n M) : TesterEvent n δ → Option (Tester n M)
  | .main => some (mainStep jobs s)
  | .worker d draw => some (s.setWorker d (testWorker jobs job d draw (s.workers d)))

/-! ## The invariant -/

/-- the job after `i` others -/
def jobSeq (i : ℕ) : ℤ := (i % (jobs + 1) : ℕ) - 1

/-- a worker that has not been called to the job `k` yet -/
structure Idle (k : ℤ) (ok : List ℤ) (w : Worker M) : Prop where
  pc : w.pc = .waiting k ∨ k = -1 ∧ w.pc = .gate
  job : w.testJobId ≠ k
  report : w.testWorkerReport = 0
  passed : w.passed = ok

/-- a worker that has been called to the job `k` and whose report has not been cleared -/
inductive Called (k : ℤ) (ok : List ℤ) (w : Worker M) : Prop where
  | missed (pc : w.pc = .gate) (job : w.testJobId = k) (stuck : k = -1) (report : w.testWorkerReport = 0)
      (passed : w.passed = ok)
  | working (pc : w.pc = .waiting k ∨ w.pc = .running k) (job : w.testJobId = k) (report : w.testWorkerReport = 0)
      (passed : w.passed = ok)
  | passed (pc : w.pc = .waiting (nextJob jobs k)) (job : w.testJobId = k) (report : w.testWorkerReport = 1)
      (passed : w.passed = ok ++ [k])
  | failed (pc : w.pc = .stopped) (job : w.testJobId = k) (report : w.testWorkerReport = -1) (passed : w.passed = ok)

/-- a worker whose report on the job `k` has been cleared -/
structure Done (k : ℤ) (ok : List ℤ) (w : Worker M) : Prop where
  pc : w.pc = .waiting (nextJob jobs k)
  job : w.testJobId = k
  report : w.testWorkerReport = 0
  passed : w.passed = ok ++ [k]

/-- the reports of the workers before `j` are cleared -/
def Collecting (s : Tester n M) (k : ℤ) (j : ℕ) : Prop :=
  k = jobSeq jobs s.ok.length ∧ j ≤ n ∧
    ∀ d : Fin n, if d.1 < j then Done jobs k s.ok (s.workers d) else Called jobs k s.ok (s.workers d)

def PhaseOk (s : Tester n M) : Prop :=
  match s.main with
  | .ready _ => jobSeq jobs s.ok.length = -1 ∧ ∀ d, Idle (-1) s.ok (s.workers d)
  | .give k j => k = jobSeq jobs s.ok.length ∧ j ≤ n ∧
      ∀ d : Fin n, if d.1 < j then Called jobs k s.ok (s.workers d) else Idle k s.ok (s.workers d)
  | .collect k j => Collecting jobs s k j
  | .clear k j => Collecting jobs s k j ∧ ∃ h : j < n, (s.workers ⟨j, h⟩).testWorkerReport = 1
  | .failed j => (∃ k, Collecting jobs s k j) ∧ ∃ h : j < n, (s.workers ⟨j, h⟩).testWorkerReport = -1

structure LockstepInv (s : Tester n M) : Prop where
  phase : PhaseOk jobs s
  order : s.ok = (List.range s.ok.length).map (jobSeq jobs)
  gate : ∀ d, (s.workers d).pc = .gate → (s.workers d).passed = []

variable {jobs job}

theorem nextJob_ne (hjobs : 0 < jobs) (k : ℤ) : nextJob jobs k ≠ k := by
  unfold nextJob
  split_ifs <;> omega

theorem nextJob_jobSeq (i : ℕ) : nextJob jobs (jobSeq jobs i) = jobSeq jobs (i + 1) := by
  have hlt : i % (jobs + 1) < jobs + 1 := Nat.mod_lt i (Nat.succ_pos jobs)
  unfold nextJob jobSeq
  rw [Nat.add_mod i 1]
  split_ifs with h
  · rw [Nat.mod_eq_of_lt (a := 1) (by omega), Nat.mod_eq_of_lt (a := i % (jobs + 1) + 1) (by omega)]
    push_cast
    ring
  · have hlast : i % (jobs + 1) = jobs := by omega
    rcases Nat.eq_zero_or_pos jobs with rfl | hpos
    · simp
    · rw [hlast, Nat.mod_eq_of_lt (a := 1) (by omega), Nat.mod_self]
      rfl

/-! ## Steps of a worker -/

section WorkerStep

variable {k : ℤ} {ok : List ℤ} {w : Worker M} (d : Fin n) (draw : δ)

theorem Idle.step (h : Idle k ok w) : Idle k ok (testWorker jobs job d draw w) := by
  rcases h.pc with hpc | ⟨rfl, hpc⟩
  · rw [testWorker, hpc]
    simp only [if_neg h.job]
    exact h
  · rw [testWorker, hpc]
    simp only
    split_ifs with hready
    · exact ⟨Or.inl rfl, h.job, h.report, h.passed⟩
    · exact h

theorem Called.step (hjobs : 0 < jobs) (h : Called jobs k ok w) : Called jobs k ok (testWorker jobs job d draw w) := by
  cases h with
  | missed pc hjob stuck report passed =>
    rw [testWorker, pc]
    simp only
    rw [if_neg (by rw [hjob, stuck]; decide)]
    exact .missed pc hjob stuck report passed
  | working pc hjob report passed =>
    rcases pc with pc | pc
    · rw [testWorker, pc]
      simp only [if_pos hjob]
      exact .working (Or.inr rfl) hjob report passed
    · rw [testWorker, pc]
      simp only
      split_ifs
      · exact .passed rfl hjob rfl (by rw [passed])
      · exact .failed rfl hjob rfl passed
  | passed pc hjob report passed =>
    rw [testWorker, pc]
    simp only
    rw [if_neg (by rw [hjob]; exact (nextJob_ne hjobs k).symm)]
    exact .passed pc hjob report passed
  | failed pc hjob report passed =>
    rw [testWorker, pc]
    exact .failed pc hjob report passed

theorem Done.step (hjobs : 0 < jobs) (h : Done jobs k ok w) : testWorker jobs job d draw w = w := by
  rw [testWorker, h.pc]
  simp only
  rw [if_neg (by rw [h.job]; exact (nextJob_ne hjobs k).symm)]

theorem Called.passed_of_report (h : Called jobs k ok w) (hreport : w.testWorkerReport = 1) :
    w.pc = .waiting (nextJob jobs k) ∧ w.testJobId = k ∧ w.passed = ok ++ [k] := by
  cases h with
  | missed _ _ _ report _ => rw [report] at hreport; exact absurd hreport (by decide)
  | working _ _ report _ => rw [report] at hreport; exact absurd hreport (by decide)
  | passed pc hjob _ passed => exact ⟨pc, hjob, passed⟩
  | failed _ _ report _ => rw [report] at hreport; exact absurd hreport (by decide)

end WorkerStep

/-! ## Steps of the main thread -/

section Step

variable {s t : Tester n M}

theorem setWorker_apply (s : Tester n M) (d e : Fin n) (w : Worker M) :
    (s.setWorker d w).workers e = if e = d then w else s.workers e :=
  Function.update_apply s.workers d w e

/-- a condition on each worker that a step of one of them keeps -/
theorem forall_setWorker {P : Fin n → Worker M → Prop} {d : Fin n} {w : Worker M} (h : ∀ e, P e (s.workers e))
    (hw : P d w) : ∀ e, P e ((s.setWorker d w).workers e) := by
  intro e
  rw [setWorker_apply]
  split_ifs with hed
  · rw [hed]
    exact hw
  · exact h e

/-- the worker `j` moves over, and with it the border between two conditions -/
theorem move_border {P Q : Worker M → Prop} {j : ℕ} (hj : j < n) {w : Worker M}
    (h : ∀ d : Fin n, if d.1 < j then P (s.workers d) else Q (s.workers d)) (hw : P w) :
    ∀ d : Fin n, if d.1 < j + 1 then P ((s.setWorker ⟨j, hj⟩ w).workers d) else Q ((s.setWorker ⟨j, hj⟩ w).workers d) := by
  intro d
  rw [setWorker_apply]
  have hd := h d
  by_cases hdj : d = ⟨j, hj⟩
  · rw [if_pos hdj, if_pos (by rw [hdj]; exact Nat.lt_succ_self j)]
    exact hw
  · have hne : d.1 ≠ j := fun heq => hdj (Fin.ext heq)
    rw [if_neg hdj]
    split_ifs at hd ⊢ <;> first | exact hd | omega

theorem at_border {P Q : Worker M → Prop} {j : ℕ} (hj : j < n)
    (h : ∀ d : Fin n, if d.1 < j then P (s.workers d) else Q (s.workers d)) : Q (s.workers ⟨j, hj⟩) := by
  have hd := h ⟨j, hj⟩
  rwa [if_neg (lt_irrefl j)] at hd

theorem border_step {P Q : Worker M → Prop} {j : ℕ} {d : Fin n} {w : Worker M}
    (h : ∀ e : Fin n, if e.1 < j then P (s.workers e) else Q (s.workers e))
    (hP : P (s.workers d) → P w) (hQ : Q (s.workers d) → Q w) :
    ∀ e : Fin n, if e.1 < j then P ((s.setWorker d w).workers e) else Q ((s.setWorker d w).workers e) := by
  refine forall_setWorker (P := fun e w => if e.1 < j then P w else Q w) h ?_
  have hd := h d
  split_ifs at hd ⊢
  · exact hP hd
  · exact hQ hd

theorem Collecting.worker (hjobs : 0 < jobs) {k : ℤ} {j : ℕ} (h : Collecting jobs s k j) (d : Fin n) (draw : δ) :
    Collecting jobs (s.setWorker d (testWorker jobs job d draw (s.workers d))) k j :=
  ⟨h.1, h.2.1, border_step h.2.2 (fun hd => by rwa [hd.step d draw hjobs]) fun hd => hd.step d draw hjobs⟩

/-- what a worker reports stays until it is cleared -/
theorem Called.report_step {k : ℤ} {ok : List ℤ} {w : Worker M} (hjobs : 0 < jobs) (h : Called jobs k ok w) (d : Fin n)
    (draw : δ) (hreport : w.testWorkerReport ≠ 0) : testWorker jobs job d draw w = w := by
  cases h with
  | missed _ _ _ report _ => exact absurd report hreport
  | working _ _ report _ => exact absurd report hreport
  | passed pc hjob _ _ =>
    rw [testWorker, pc]
    simp only
    rw [if_neg (by rw [hjob]; exact (nextJob_ne hjobs k).symm)]
  | failed pc _ _ _ => rw [testWorker, pc]

theorem Collecting.report_worker (hjobs : 0 < jobs) {k : ℤ} {j : ℕ} (h : Collecting jobs s k j) (hj : j < n)
    (hreport : (s.workers ⟨j, hj⟩).testWorkerReport ≠ 0) (d : Fin n) (draw : δ) :
    ((s.setWorker d (testWorker jobs job d draw (s.workers d))).workers ⟨j, hj⟩).testWorkerReport =
      (s.workers ⟨j, hj⟩).testWorkerReport := by
  rw [setWorker_apply]
  split_ifs with hd
  · rw [← hd, (at_border hj h.2.2).report_step hjobs _ draw hreport]
  · rfl

theorem PhaseOk.worker (hjobs : 0 < jobs) (h : PhaseOk jobs s) (d : Fin n) (draw : δ) :
    PhaseOk jobs (s.setWorker d (testWorker jobs job d draw (s.workers d))) := by
  unfold PhaseOk at h ⊢
  rw [show (s.setWorker d (testWorker jobs job d draw (s.workers d))).main = s.main from rfl]
  cases hmain : s.main with
  | ready j =>
    rw [hmain] at h
    exact ⟨h.1, forall_setWorker (P := fun _ w => Idle (-1) s.ok w) h.2 ((h.2 d).step d draw)⟩
  | give k j =>
    rw [hmain] at h
    exact ⟨h.1, h.2.1, border_step h.2.2 (fun hd => hd.step d draw hjobs) fun hd => hd.step d draw⟩
  | collect k j =>
    rw [hmain] at h
    exact Collecting.worker hjobs h d draw
  | clear k j =>
    rw [hmain] at h
    obtain ⟨hcollect, hj, hreport⟩ := h
    exact ⟨hcollect.worker hjobs d draw, hj,
      (hcollect.report_worker hjobs hj (by rw [hreport]; decide) d draw).trans hreport⟩
  | failed j =>
    rw [hmain] at h
    obtain ⟨⟨k, hcollect⟩, hj, hreport⟩ := h
    exact ⟨⟨k, hcollect.worker hjobs d draw⟩, hj,
      (hcollect.report_worker hjobs hj (by rw [hreport]; decide) d draw).trans hreport⟩

theorem Idle.next {k k' : ℤ} {ok : List ℤ} {w : Worker M} (h : Done jobs k ok w) (hk : k' = nextJob jobs k)
    (hne : k' ≠ k) : Idle k' (ok ++ [k]) w :=
  ⟨Or.inl (by rw [h.pc, hk]), by rw [h.job]; exact hne.symm, h.report, h.passed⟩

theorem PhaseOk.main (hjobs : 0 < jobs) (h : PhaseOk jobs s) : PhaseOk jobs (mainStep jobs s) := by
  unfold mainStep
  cases hmain : s.main with
  | ready j =>
    rw [PhaseOk, hmain] at h
    obtain ⟨hseq, hidle⟩ := h
    simp only
    split_ifs with hj
    · refine ⟨hseq, forall_setWorker (P := fun _ w => Idle (-1) s.ok w) hidle ?_⟩
      have hw := hidle ⟨j, hj⟩
      exact ⟨hw.pc, show (-2 : ℤ) ≠ -1 by decide, hw.report, hw.passed⟩
    · refine ⟨hseq.symm, Nat.zero_le n, fun d => ?_⟩
      rw [if_neg (Nat.not_lt_zero d.1)]
      exact hidle d
  | give k j =>
    rw [PhaseOk, hmain] at h
    obtain ⟨hseq, hle, hborder⟩ := h
    simp only
    split_ifs with hj
    · refine ⟨hseq, hj, move_border hj hborder ?_⟩
      have hw := at_border hj hborder
      rcases hw.pc with hpc | ⟨hk, hpc⟩
      · exact .working (Or.inl hpc) rfl hw.report hw.passed
      · exact .missed hpc rfl hk hw.report hw.passed
    · refine ⟨hseq, Nat.zero_le n, fun d => ?_⟩
      have hd := hborder d
      rw [if_pos (by omega)] at hd
      rwa [if_neg (Nat.not_lt_zero d.1)]
  | collect k j =>
    rw [PhaseOk, hmain] at h
    simp only
    by_cases hj : j < n
    · rw [dif_pos hj]
      split_ifs with hfailed hpassed
      · exact ⟨⟨k, h⟩, hj, hfailed⟩
      · exact ⟨h, hj, hpassed⟩
      · rw [PhaseOk, hmain]
        exact h
    · rw [dif_neg hj]
      obtain ⟨hseq, hle, hborder⟩ := h
      have hdone : ∀ d : Fin n, Done jobs k s.ok (s.workers d) := by
        intro d
        have hd := hborder d
        rwa [if_pos (by omega)] at hd
      have hnext : nextJob jobs k = jobSeq jobs (s.ok ++ [k]).length := by
        rw [hseq, nextJob_jobSeq, List.length_append, List.length_singleton]
      by_cases hk : k + 1 < jobs
      · have hk' : k + 1 = nextJob jobs k := by rw [nextJob, if_pos hk]
        rw [if_pos hk]
        refine ⟨hk'.trans hnext, Nat.zero_le n, fun d => ?_⟩
        rw [if_neg (Nat.not_lt_zero d.1)]
        exact Idle.next (hdone d) hk' (by omega)
      · have hk' : -1 = nextJob jobs k := by rw [nextJob, if_neg hk]
        rw [if_neg hk]
        exact ⟨(hk'.trans hnext).symm, fun d => Idle.next (hdone d) hk' (by omega)⟩
  | clear k j =>
    rw [PhaseOk, hmain] at h
    obtain ⟨⟨hseq, hle, hborder⟩, hj, hreport⟩ := h
    simp only
    rw [dif_pos hj]
    obtain ⟨hpc, hjob, hpassed⟩ := (at_border hj hborder).passed_of_report hreport
    exact ⟨hseq, hj, move_border hj hborder ⟨hpc, hjob, rfl, hpassed⟩⟩
  | failed j =>
    simp only
    rw [PhaseOk, hmain] at h ⊢
    exact h

theorem PhaseOk.ok_main (h : PhaseOk jobs s) :
    (mainStep jobs s).ok = s.ok ∨ (mainStep jobs s).ok = s.ok ++ [jobSeq jobs s.ok.length] := by
  unfold mainStep
  cases hmain : s.main with
  | collect k j =>
    rw [PhaseOk, hmain] at h
    simp only
    by_cases hj : j < n
    · rw [dif_pos hj]
      split_ifs <;> exact Or.inl rfl
    · rw [dif_neg hj]
      exact Or.inr (by rw [← h.1])
  | ready j | give k j | clear k j =>
    simp only
    split_ifs <;> exact Or.inl rfl
  | failed j => exact Or.inl rfl

/-- the main thread moves no worker -/
theorem mainStep_worker (jobs : ℕ) (s : Tester n M) (d : Fin n) : ((mainStep jobs s).workers d).pc = (s.workers d).pc ∧
    ((mainStep jobs s).workers d).passed = (s.workers d).passed ∧ ((mainStep jobs s).workers d).mem = (s.workers d).mem := by
  have hset : ∀ (j : Fin n) (w : Worker M), w.pc = (s.workers j).pc ∧ w.passed = (s.workers j).passed ∧
      w.mem = (s.workers j).mem → ((s.setWorker j w).workers d).pc = (s.workers d).pc ∧
        ((s.setWorker j w).workers d).passed = (s.workers d).passed ∧
        ((s.setWorker j w).workers d).mem = (s.workers d).mem := by
    intro j w hw
    rw [setWorker_apply]
    split_ifs with hd
    · rw [hd]
      exact hw
    · exact ⟨rfl, rfl, rfl⟩
  unfold mainStep
  split
  · split_ifs
    · exact hset _ _ ⟨rfl, rfl, rfl⟩
    · exact ⟨rfl, rfl, rfl⟩
  · split_ifs
    · exact hset _ _ ⟨rfl, rfl, rfl⟩
    · exact ⟨rfl, rfl, rfl⟩
  · split_ifs <;> exact ⟨rfl, rfl, rfl⟩
  · split_ifs
    · exact hset _ _ ⟨rfl, rfl, rfl⟩
    · exact ⟨rfl, rfl, rfl⟩
  · exact ⟨rfl, rfl, rfl⟩

theorem testWorker_gate (d : Fin n) (draw : δ) {w : Worker M} (h : (testWorker jobs job d draw w).pc = .gate) :
    testWorker jobs job d draw w = w := by
  cases hpc : w.pc with
  | gate =>
    simp only [testWorker, hpc] at h ⊢
    split_ifs at h ⊢
    rfl
  | waiting k =>
    simp only [testWorker, hpc] at h
    split_ifs at h
    exact absurd (hpc.symm.trans h) (by simp)
  | running k =>
    simp only [testWorker, hpc] at h
    split_ifs at h
  | stopped => rw [testWorker, hpc]

theorem LockstepInv.step (hjobs : 0 < jobs) {e : TesterEvent n δ} (h : LockstepInv jobs s)
    (hs : testerStep jobs job s e = some t) : LockstepInv jobs t := by
  cases e with
  | main =>
    obtain rfl : mainStep jobs s = t := Option.some.inj hs
    refine ⟨h.phase.main hjobs, ?_, fun d hpc => ?_⟩
    · rcases h.phase.ok_main with hok | hok
      · rw [hok]
        exact h.order
      · rw [hok, List.length_append, List.length_singleton, List.range_succ, List.map_append, ← h.order]
        rfl
    · obtain ⟨hsame, hpassed, -⟩ := mainStep_worker jobs s d
      rw [hpassed]
      exact h.gate d (hsame ▸ hpc)
  | worker d draw =>
    obtain rfl : s.setWorker d (testWorker jobs job d draw (s.workers d)) = t := Option.some.inj hs
    refine ⟨h.phase.worker hjobs d draw, h.order, ?_⟩
    refine forall_setWorker (P := fun _ w => w.pc = .gate → w.passed = []) h.gate fun hpc => ?_
    have hsame := testWorker_gate d draw hpc
    rw [hsame] at hpc ⊢
    exact h.gate d hpc

theorem LockstepInv.start (mem : Fin n → M) : LockstepInv jobs (Tester.start mem) := by
  refine ⟨⟨?_, fun d => ⟨Or.inr ⟨rfl, rfl⟩, show (0 : ℤ) ≠ -1 by decide, rfl, rfl⟩⟩, rfl, fun d _ => rfl⟩
  simp [jobSeq, Tester.start]

theorem LockstepInv.reachable (hjobs : 0 < jobs) {mem : Fin n → M}
    (hr : Reachable (testerStep jobs job) (Tester.start mem) s) : LockstepInv jobs s :=
  hr.inv (LockstepInv jobs) (fun _ _ _ h hs => h.step hjobs hs) (LockstepInv.start mem)

theorem LockstepInv.worker_cases (h : LockstepInv jobs s) (d : Fin n) :
    Idle (jobSeq jobs s.ok.length) s.ok (s.workers d) ∨ Called jobs (jobSeq jobs s.ok.length) s.ok (s.workers d) ∨
      Done jobs (jobSeq jobs s.ok.length) s.ok (s.workers d) := by
  have hcollect : ∀ {k j}, Collecting jobs s k j → Called jobs (jobSeq jobs s.ok.length) s.ok (s.workers d) ∨
      Done jobs (jobSeq jobs s.ok.length) s.ok (s.workers d) := by
    rintro k j ⟨rfl, -, hborder⟩
    have hd := hborder d
    split_ifs at hd
    · exact Or.inr hd
    · exact Or.inl hd
  have hphase := h.phase
  unfold PhaseOk at hphase
  split at hphase
  · rw [hphase.1]
    exact Or.inl (hphase.2 d)
  · obtain ⟨rfl, -, hborder⟩ := hphase
    have hd := hborder d
    split_ifs at hd
    · exact Or.inr (Or.inl hd)
    · exact Or.inl hd
  · exact Or.inr (hcollect hphase)
  · exact Or.inr (hcollect hphase.1)
  · exact Or.inr (hcollect hphase.1.choose_spec)

/-- **Lockstep.** In every interleaving the jobs are printed in order, every worker has passed those printed and at most
the next one, and no worker runs another job than the next one. -/
theorem lockstep (hjobs : 0 < jobs) {mem : Fin n → M} (hr : Reachable (testerStep jobs job) (Tester.start mem) s) :
    s.ok = (List.range s.ok.length).map (jobSeq jobs) ∧ ∀ d,
      ((s.workers d).passed = s.ok ∨ (s.workers d).passed = s.ok ++ [jobSeq jobs s.ok.length]) ∧
      ∀ k, (s.workers d).pc = .running k → k = jobSeq jobs s.ok.length ∧ (s.workers d).passed = s.ok := by
  have h := LockstepInv.reachable hjobs hr
  refine ⟨h.order, fun d => ?_⟩
  rcases h.worker_cases d with hw | hw | hw
  · refine ⟨Or.inl hw.passed, fun k hk => ?_⟩
    rcases hw.pc with hpc | ⟨-, hpc⟩ <;> rw [hk] at hpc <;> cases hpc
  · cases hw with
    | missed pc _ _ _ passed => exact ⟨Or.inl passed, fun k hk => by rw [pc] at hk; cases hk⟩
    | working pc _ _ passed =>
      refine ⟨Or.inl passed, fun k hk => ⟨?_, passed⟩⟩
      rcases pc with pc | pc
      · rw [hk] at pc
        cases pc
      · exact WorkerPc.running.inj (hk.symm.trans pc)
    | passed pc _ _ passed => exact ⟨Or.inr passed, fun k hk => by rw [pc] at hk; cases hk⟩
    | failed pc _ _ passed => exact ⟨Or.inl passed, fun k hk => by rw [pc] at hk; cases hk⟩
  · refine ⟨Or.inr hw.passed, fun k hk => ?_⟩
    rw [hw.pc] at hk
    cases hk

section Sample

/-- one worker, which runs the stuck address test and one other, both of which pass -/
def sampleStep : Tester 1 Unit → TesterEvent 1 Unit → Option (Tester 1 Unit) := testerStep 1 fun _ _ _ m => (0, m)

def sampleWorker : TesterEvent 1 Unit := .worker 0 ()

/-- the worker polls between -2 and -1, runs its test and is printed as ok -/
def sampleRun : List (TesterEvent 1 Unit) :=
  [.main, sampleWorker, .main, .main, .main, sampleWorker, sampleWorker, .main, .main, .main]

/-- the main thread writes -1 before the worker has polled -/
def missedRun : List (TesterEvent 1 Unit) := [.main, .main, .main]

end Sample

/-- the worker has passed what was printed -/
theorem sample_lockstep : ∃ s, run sampleStep (Tester.start fun _ => ()) sampleRun = some s ∧ s.ok = [-1] ∧
    ((s.workers 0).passed = [-1] ∨ (s.workers 0).passed = [-1, 0]) :=
  ⟨_, rfl, rfl, ((lockstep one_pos ⟨sampleRun, rfl⟩).2 0).1⟩

/-- a job that is listed as passed has returned zero -/
theorem passed_spec {mem : Fin n → M} (hr : Reachable (testerStep jobs job) (Tester.start mem) s) :
    ∀ d, ∀ k ∈ (s.workers d).passed, ∃ draw m, (job d k draw m).1 = 0 := by
  refine hr.inv (fun s => ∀ d, ∀ k ∈ (s.workers d).passed, ∃ draw m, (job d k draw m).1 = 0) ?_ ?_
  · intro s e t h hs
    cases e with
    | main =>
      obtain rfl : mainStep jobs s = t := Option.some.inj hs
      intro d
      rw [(mainStep_worker jobs s d).2.1]
      exact h d
    | worker d draw =>
      obtain rfl : s.setWorker d (testWorker jobs job d draw (s.workers d)) = t := Option.some.inj hs
      refine forall_setWorker (P := fun d w => ∀ k ∈ w.passed, ∃ draw m, (job d k draw m).1 = 0) h ?_
      cases hpc : (s.workers d).pc with
      | gate | waiting k =>
        simp only [testWorker, hpc]
        split_ifs <;> exact h d
      | stopped =>
        simp only [testWorker, hpc]
        exact h d
      | running k =>
        simp only [testWorker, hpc]
        split_ifs with hzero
        · intro k' hk'
          rcases List.mem_append.1 hk' with hk' | hk'
          · exact h d k' hk'
          · rw [List.mem_singleton.1 hk']
            exact ⟨draw, _, hzero⟩
        · exact h d
  · exact fun d k hk => absurd hk List.not_mem_nil

/-- the memory a worker has when it is about to run a job -/
def Prepared (jobs : ℕ) (Good : Fin n → ℤ → M → Prop) (d : Fin n) (w : Worker M) : Prop :=
  match w.pc with
  | .gate => Good d (-1) w.mem
  | .waiting k | .running k => (-1 ≤ k ∧ k < jobs) ∧ Good d k w.mem
  | .stopped => False

/-- **Jobs that pass in a row.** Where each job passes on what the one before leaves, no worker ever stops. -/
theorem never_failed (Good : Fin n → ℤ → M → Prop) (hjobs : 0 < jobs) {mem : Fin n → M}
    (hfirst : ∀ d, Good d (-1) (mem d))
    (hjob : ∀ d, ∀ k : ℤ, ∀ draw m, -1 ≤ k → k < jobs → Good d k m →
      (job d k draw m).1 = 0 ∧ Good d (nextJob jobs k) (job d k draw m).2)
    (hr : Reachable (testerStep jobs job) (Tester.start mem) s) :
    (∀ d, (s.workers d).pc ≠ .stopped) ∧ ∀ j, s.main ≠ .failed j := by
  have hprepared : ∀ d, Prepared jobs Good d (s.workers d) := by
    have hstart : ∀ d, Prepared jobs Good d ((Tester.start mem).workers d) := hfirst
    refine hr.inv (fun s => ∀ d, Prepared jobs Good d (s.workers d)) ?_ hstart
    intro s e t h hs
    cases e with
    | main =>
      obtain rfl : mainStep jobs s = t := Option.some.inj hs
      intro d
      obtain ⟨hpc, -, hmem⟩ := mainStep_worker jobs s d
      unfold Prepared
      rw [hpc, hmem]
      exact h d
    | worker d draw =>
      obtain rfl : s.setWorker d (testWorker jobs job d draw (s.workers d)) = t := Option.some.inj hs
      refine forall_setWorker (P := Prepared jobs Good) h ?_
      have hd := h d
      unfold Prepared at hd
      cases hpc : (s.workers d).pc with
      | gate =>
        rw [hpc] at hd
        simp only [testWorker, hpc]
        split_ifs
        · exact ⟨⟨le_rfl, by omega⟩, hd⟩
        · simp only [Prepared, hpc]
          exact hd
      | waiting k =>
        rw [hpc] at hd
        simp only [testWorker, hpc]
        split_ifs
        · exact hd
        · simp only [Prepared, hpc]
          exact hd
      | running k =>
        rw [hpc] at hd
        obtain ⟨⟨hlo, hhi⟩, hgood⟩ := hd
        obtain ⟨hzero, hnext⟩ := hjob d k draw _ hlo hhi hgood
        simp only [testWorker, hpc]
        rw [if_pos hzero]
        refine ⟨?_, hnext⟩
        unfold nextJob
        split_ifs <;> omega
      | stopped =>
        rw [hpc] at hd
        exact hd.elim
  have hrunning : ∀ d, (s.workers d).pc ≠ .stopped := by
    intro d hpc
    have hd := hprepared d
    rw [Prepared, hpc] at hd
    exact hd
  refine ⟨hrunning, fun j hmain => ?_⟩
  have hphase := (LockstepInv.reachable hjobs hr).phase
  rw [PhaseOk, hmain] at hphase
  obtain ⟨⟨k, hcollect⟩, hj, hreport⟩ := hphase
  cases at_border hj hcollect.2.2 with
  | missed _ _ _ report _ => rw [report] at hreport; exact absurd hreport (by decide)
  | working _ _ report _ => rw [report] at hreport; exact absurd hreport (by decide)
  | passed _ _ report _ => rw [report] at hreport; exact absurd hreport (by decide)
  | failed pc _ _ _ => exact hrunning _ pc

/-! ## A worker that misses its start -/

/-- the worker still polls for -2 when its number is the one of the first job -/
def Missed (s : Tester n M) (d : Fin n) : Prop := (s.workers d).pc = .gate ∧ (s.workers d).testJobId = -1

theorem LockstepInv.ok_of_gate (h : LockstepInv jobs s) {d : Fin n} (hpc : (s.workers d).pc = .gate) : s.ok = [] := by
  have hpassed := h.gate d hpc
  rcases h.worker_cases d with hw | hw | hw
  · rw [← hw.passed, hpassed]
  · cases hw with
    | missed _ _ _ _ passed => rw [← passed, hpassed]
    | working _ _ _ passed => rw [← passed, hpassed]
    | passed pc _ _ _ => rw [hpc] at pc; cases pc
    | failed pc _ _ _ => rw [hpc] at pc; cases pc
  · have hdone := hw.pc
    rw [hpc] at hdone
    cases hdone

theorem Missed.step (h : LockstepInv jobs s) {d : Fin n} (hm : Missed s d) {e : TesterEvent n δ}
    (hs : testerStep jobs job s e = some t) : Missed t d := by
  cases e with
  | worker e draw =>
    obtain rfl : s.setWorker e (testWorker jobs job e draw (s.workers e)) = t := Option.some.inj hs
    unfold Missed
    rw [setWorker_apply]
    split_ifs with hde
    · subst hde
      rw [testWorker, hm.1]
      simp only
      rw [if_neg (by rw [hm.2]; decide)]
      exact hm
    · exact hm
  | main =>
    obtain rfl : mainStep jobs s = t := Option.some.inj hs
    refine ⟨(mainStep_worker jobs s d).1.trans hm.1, ?_⟩
    have hphase := h.phase
    have hother : ∀ {j : Fin n} {w : Worker M}, (j = d → w.testJobId = -1) →
        ((s.setWorker j w).workers d).testJobId = -1 := by
      intro j w hw
      rw [setWorker_apply]
      split_ifs with hdj
      · exact hw hdj.symm
      · exact hm.2
    unfold mainStep
    unfold PhaseOk at hphase
    cases hmain : s.main with
    | ready j =>
      rw [hmain] at hphase
      exact absurd hm.2 (hphase.2 d).job
    | give k j =>
      rw [hmain] at hphase
      simp only
      split_ifs with hj
      · refine hother fun hd => ?_
        have hw := at_border hj hphase.2.2
        rw [hd] at hw
        rcases hw.pc with hpc | ⟨rfl, -⟩
        · exact absurd (hm.1.symm.trans hpc) (by simp)
        · rfl
      · exact hm.2
    | collect k j =>
      simp only
      split_ifs <;> exact hm.2
    | clear k j =>
      simp only
      split_ifs with hj
      · exact hother fun hd => by rw [hd]; exact hm.2
      · exact hm.2
    | failed j => exact hm.2

/-- **A missed start.** The worker is never started and no "ok" is ever printed, whatever the threads do. -/
theorem missed_forever (hjobs : 0 < jobs) {mem : Fin n → M}
    (hr : Reachable (testerStep jobs job) (Tester.start mem) s) {d : Fin n} (hm : Missed s d)
    {es : List (TesterEvent n δ)} (hrun : run (testerStep jobs job) s es = some t) : Missed t d ∧ t.ok = [] := by
  have hinv : LockstepInv jobs t ∧ Missed t d :=
    run_inv (C := fun _ _ => True) (fun s => LockstepInv jobs s ∧ Missed s d)
      (fun _ _ _ h _ hs => ⟨h.1.step hjobs hs, h.2.step h.1 hs⟩) allSteps_true ⟨LockstepInv.reachable hjobs hr, hm⟩ hrun
  exact ⟨hinv.2, hinv.1.ok_of_gate hinv.2.1⟩

/-- the run in which it happens -/
theorem sample_missed : ∃ s t, run sampleStep (Tester.start fun _ => ()) missedRun = some s ∧
    run sampleStep s [sampleWorker, .main, .main, sampleWorker, .main] = some t ∧ Missed t 0 ∧ t.ok = [] :=
  ⟨_, _, rfl, rfl, missed_forever one_pos (show Reachable sampleStep _ _ from ⟨missedRun, rfl⟩) ⟨rfl, rfl⟩
    (show run sampleStep _ [sampleWorker, .main, .main, sampleWorker, .main] = _ from rfl)⟩

/-! ## Progress -/

/-- `t` is reached from `s` by `m` steps that change the state; the others do nothing -/
inductive Moves (step : Tester n M → TesterEvent n δ → Option (Tester n M)) :
    ℕ → Tester n M → Tester n M → Prop where
  | nil (s : Tester n M) : Moves step 0 s s
  | cons {m : ℕ} {s t u : Tester n M} {e : TesterEvent n δ} (hs : step s e = some t) (hne : t ≠ s)
      (hrest : Moves step m t u) : Moves step (m + 1) s u

/-- the steps a worker can take before its report on the job `k` -/
def workerRank (k : ℤ) (w : Worker M) : ℕ :=
  match w.pc with
  | .gate => 3
  | .waiting k' => if k' = k then 2 else 0
  | .running _ => 1
  | .stopped => 0

/-- the steps the main thread can take before it prints or stops -/
def mainRank (n : ℕ) : MainPc → ℕ
  | .ready j => n - j + 3 * n + 3
  | .give _ j => n - j + 2 * n + 2
  | .collect _ j => 2 * (n - j) + 1
  | .clear _ j => 2 * (n - j)
  | .failed _ => 0

def rank (jobs : ℕ) (s : Tester n M) : ℕ :=
  mainRank n s.main + ∑ d, workerRank (jobSeq jobs s.ok.length) (s.workers d)

theorem workerRank_le (k : ℤ) (w : Worker M) : workerRank k w ≤ 3 := by
  unfold workerRank
  split
  · exact le_rfl
  · split_ifs <;> omega
  · omega
  · omega

theorem rank_le (s : Tester n M) : rank jobs s ≤ 7 * n + 3 := by
  have hmain : mainRank n s.main ≤ 4 * n + 3 := by
    cases s.main <;> simp only [mainRank] <;> omega
  have hsum : ∑ d, workerRank (jobSeq jobs s.ok.length) (s.workers d) ≤ ∑ _d : Fin n, 3 :=
    Finset.sum_le_sum fun d _ => workerRank_le _ _
  rw [Finset.sum_const, Finset.card_univ, Fintype.card_fin, smul_eq_mul] at hsum
  unfold rank
  omega

theorem mainStep_rank (jobs : ℕ) (s : Tester n M) : mainStep jobs s = s ∨ (mainStep jobs s).ok ≠ s.ok ∨
    (mainStep jobs s).ok = s.ok ∧ mainRank n (mainStep jobs s).main < mainRank n s.main := by
  unfold mainStep
  cases hmain : s.main with
  | ready j | give k j =>
    refine Or.inr (Or.inr ?_)
    simp only
    split_ifs <;> refine ⟨rfl, ?_⟩ <;> simp only [mainRank] <;> omega
  | collect k j =>
    simp only
    by_cases hj : j < n
    · rw [dif_pos hj]
      split_ifs
      · exact Or.inr (Or.inr ⟨rfl, by simp only [mainRank]; omega⟩)
      · exact Or.inr (Or.inr ⟨rfl, by simp only [mainRank]; omega⟩)
      · exact Or.inl rfl
    · rw [dif_neg hj]
      exact Or.inr (Or.inl (by simp))
  | clear k j =>
    simp only
    split_ifs
    · exact Or.inr (Or.inr ⟨rfl, by simp only [mainRank]; omega⟩)
    · exact Or.inl rfl
  | failed j => exact Or.inl rfl

theorem LockstepInv.worker_rank (hjobs : 0 < jobs) (h : LockstepInv jobs s) (d : Fin n) (draw : δ) :
    testWorker jobs job d draw (s.workers d) = s.workers d ∨
      workerRank (jobSeq jobs s.ok.length) (testWorker jobs job d draw (s.workers d)) <
        workerRank (jobSeq jobs s.ok.length) (s.workers d) := by
  have hgate : (s.workers d).pc = .gate → testWorker jobs job d draw (s.workers d) = s.workers d ∨
      workerRank (jobSeq jobs s.ok.length) (testWorker jobs job d draw (s.workers d)) <
        workerRank (jobSeq jobs s.ok.length) (s.workers d) := by
    intro hpc
    rw [testWorker, hpc]
    simp only
    split_ifs
    · refine Or.inr ?_
      simp only [workerRank, hpc]
      split_ifs <;> omega
    · exact Or.inl rfl
  rcases h.worker_cases d with hw | hw | hw
  · rcases hw.pc with hpc | ⟨-, hpc⟩
    · refine Or.inl ?_
      rw [testWorker, hpc]
      exact if_neg hw.job
    · exact hgate hpc
  · have hstay : (s.workers d).testWorkerReport ≠ 0 → testWorker jobs job d draw (s.workers d) = s.workers d :=
      hw.report_step hjobs d draw
    cases hw with
    | missed pc _ _ _ _ => exact hgate pc
    | working pc hjob report _ =>
      refine Or.inr ?_
      rcases pc with pc | pc
      · simp [testWorker, workerRank, pc, hjob]
      · rw [testWorker, pc]
        simp only [workerRank, pc]
        split_ifs
        · simp only [if_neg (nextJob_ne hjobs _)]
          omega
        · simp only
          omega
    | passed _ _ report _ => exact Or.inl (hstay (by rw [report]; decide))
    | failed _ _ report _ => exact Or.inl (hstay (by rw [report]; decide))
  · exact Or.inl (hw.step d draw hjobs)

/-- a step that changes the state and prints nothing brings the next "ok" nearer -/
theorem LockstepInv.rank_lt (hjobs : 0 < jobs) (h : LockstepInv jobs s) {e : TesterEvent n δ}
    (hs : testerStep jobs job s e = some t) (hne : t ≠ s) (hok : t.ok = s.ok) : rank jobs t < rank jobs s := by
  cases e with
  | main =>
    obtain rfl : mainStep jobs s = t := Option.some.inj hs
    rcases mainStep_rank jobs s with hsame | hprint | ⟨-, hlt⟩
    · exact absurd hsame hne
    · exact absurd hok hprint
    · have hsum : ∀ d, workerRank (jobSeq jobs s.ok.length) ((mainStep jobs s).workers d) =
          workerRank (jobSeq jobs s.ok.length) (s.workers d) := by
        intro d
        unfold workerRank
        rw [(mainStep_worker jobs s d).1]
      unfold rank
      rw [hok, Finset.sum_congr rfl fun d _ => hsum d]
      omega
  | worker d draw =>
    obtain rfl : s.setWorker d (testWorker jobs job d draw (s.workers d)) = t := Option.some.inj hs
    have hrank : testWorker jobs job d draw (s.workers d) = s.workers d ∨ _ := h.worker_rank hjobs d draw
    rcases hrank with hsame | hlt
    · rw [hsame] at hne
      exact absurd (by rw [Tester.setWorker, Function.update_eq_self]) hne
    · refine Nat.add_lt_add_left (Finset.sum_lt_sum (fun e _ => ?_) ⟨d, Finset.mem_univ d, ?_⟩) _
      · rw [setWorker_apply]
        split_ifs with hed
        · rw [hed]
          exact hlt.le
        · exact le_rfl
      · rw [setWorker_apply, if_pos rfl]
        exact hlt

theorem LockstepInv.ok_extends (h : LockstepInv jobs s) {e : TesterEvent n δ} (hs : testerStep jobs job s e = some t) :
    t.ok = s.ok ∨ s.ok.length < t.ok.length := by
  cases e with
  | main =>
    obtain rfl : mainStep jobs s = t := Option.some.inj hs
    rcases h.phase.ok_main with hok | hok
    · exact Or.inl hok
    · exact Or.inr (by simp [hok])
  | worker d draw =>
    obtain rfl : s.setWorker d (testWorker jobs job d draw (s.workers d)) = t := Option.some.inj hs
    exact Or.inl rfl

theorem LockstepInv.moves (hjobs : 0 < jobs) {m : ℕ} (hm : Moves (testerStep jobs job) m s t) (h : LockstepInv jobs s) :
    s.ok.length ≤ t.ok.length ∧ (t.ok = s.ok → m ≤ rank jobs s) := by
  induction hm with
  | nil s => exact ⟨le_rfl, fun _ => Nat.zero_le _⟩
  | @cons m s t u e hs hne hrest ih =>
    obtain ⟨hlen, hmoves⟩ := ih (h.step hjobs hs)
    rcases h.ok_extends hs with hok | hok
    · rw [hok] at hlen hmoves
      refine ⟨hlen, fun hsame => ?_⟩
      have hlt := h.rank_lt hjobs hs hne hok
      have hle := hmoves hsame
      omega
    · refine ⟨by omega, fun hsame => ?_⟩
      rw [hsame] at hlen
      omega

/-- **Progress.** The threads can always do something, unless the main thread has stopped or a worker has missed its
start; and at most `7 * n + 3` of their steps change anything before the next "ok". -/
theorem progress [Nonempty δ] (hjobs : 0 < jobs) {mem : Fin n → M}
    (hr : Reachable (testerStep jobs job) (Tester.start mem) s) :
    ((∃ e t, testerStep jobs job s e = some t ∧ t ≠ s) ∨ (∃ j, s.main = .failed j) ∨ ∃ d, Missed s d) ∧
      ∀ m t, Moves (testerStep jobs job) m s t → t.ok = s.ok → m ≤ 7 * n + 3 := by
  have h := LockstepInv.reachable hjobs hr
  refine ⟨?_, fun m t hm hok => ((h.moves hjobs hm).2 hok).trans (rank_le s)⟩
  have hmove : (mainStep jobs s).main ≠ s.main → ∃ e t, testerStep jobs job s e = some t ∧ t ≠ s := by
    intro hne
    exact ⟨.main, _, rfl, fun heq => hne (congrArg Tester.main heq)⟩
  have hphase := h.phase
  unfold PhaseOk at hphase
  cases hmain : s.main with
  | ready j | give k j =>
    refine Or.inl (hmove ?_)
    unfold mainStep
    rw [hmain]
    simp only
    split_ifs <;> simp
  | clear k j =>
    rw [hmain] at hphase
    obtain ⟨-, hj, -⟩ := hphase
    refine Or.inl (hmove ?_)
    unfold mainStep
    rw [hmain]
    simp only
    rw [dif_pos hj]
    simp
  | failed j => exact Or.inr (Or.inl ⟨j, rfl⟩)
  | collect k j =>
    rw [hmain] at hphase
    by_cases hj : j < n
    · have hmain' : (s.workers ⟨j, hj⟩).testWorkerReport = -1 ∨ (s.workers ⟨j, hj⟩).testWorkerReport = 1 →
          (mainStep jobs s).main ≠ s.main := by
        intro hreport
        unfold mainStep
        rw [hmain]
        simp only
        rw [dif_pos hj]
        split_ifs
        · simp
        · simp
        · rcases hreport with hreport | hreport <;> contradiction
      cases at_border hj hphase.2.2 with
      | missed pc hjob stuck _ _ => exact Or.inr (Or.inr ⟨⟨j, hj⟩, pc, hjob.trans stuck⟩)
      | working pc hjob report _ =>
        obtain ⟨draw⟩ := ‹Nonempty δ›
        refine Or.inl ⟨.worker ⟨j, hj⟩ draw, _, rfl, fun heq => ?_⟩
        have hsame := congrArg (fun t => ((t.workers ⟨j, hj⟩).pc, (t.workers ⟨j, hj⟩).testWorkerReport)) heq
        simp only [setWorker_apply, if_true] at hsame
        rcases pc with pc | pc
        · rw [testWorker, pc] at hsame
          simp [hjob] at hsame
        · rw [testWorker, pc] at hsame
          simp only at hsame
          split_ifs at hsame <;> simp at hsame
      | passed _ _ report _ => exact Or.inl (hmove (hmain' (Or.inr report)))
      | failed _ _ report _ => exact Or.inl (hmove (hmain' (Or.inl report)))
    · refine Or.inl (hmove ?_)
      unfold mainStep
      rw [hmain]
      simp only
      rw [dif_neg hj]
      simp only
      split_ifs <;> simp

/-- after the first "ok" the sample can go on, and changes at most ten times before the next -/
theorem sample_progress : ∃ s, run sampleStep (Tester.start fun _ => ()) sampleRun = some s ∧ s.ok = [-1] ∧
    (∃ e t, sampleStep s e = some t ∧ t ≠ s) ∧ ∀ m t, Moves sampleStep m s t → t.ok = s.ok → m ≤ 7 * 1 + 3 := by
  refine ⟨_, rfl, rfl, ?_⟩
  obtain ⟨hgo, hbound⟩ := progress one_pos (show Reachable sampleStep _ _ from ⟨sampleRun, rfl⟩)
  refine ⟨?_, hbound⟩
  rcases hgo with hmove | ⟨j, hfailed⟩ | ⟨d, hmissed, -⟩
  · exact hmove
  · cases hfailed
  · obtain rfl : d = 0 := Subsingleton.elim d 0
    cases hmissed

end Step

end RyazhaClk.MemTester
