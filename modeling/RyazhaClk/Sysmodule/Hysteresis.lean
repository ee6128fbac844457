/-
The hold of the governor thread on the way down, over runs of the whole system: the polls of a module, what each of them
computed, was to program and programmed, while every check of the thread finds the governor on.

The direction of a CPU poll is taken from the table entry, the configured minimum is applied behind it. Where the minimum
has been raised above the clock while the load asks for less, the poll is held as if it went down.

- `step_thread`: what a step does to the thread's variables of a module.
- `followsLoad_iff`: a run keeps to the hold exactly when no such poll is held; the GPU always does.
- `raised_minimum_held`: a CPU at 1020 MHz is not taken to a new minimum of 1224 MHz.
-/
import Mathlib.Tactic
import RyazhaClk.Lib.Hysteresis
import RyazhaClk.Sysmodule.Throttle

namespace RyazhaClk

open RyazhaClk.Transition RyazhaClk.Hysteresis

variable {P : Platform} {s s' : Sys} {m : HocClkModule} {e : Event} {es : List Event}

/-! ## The polls of a run -/

def GovernorThread.lastHz (th : GovernorThread) : HocClkModule → ℕ
  | .gpu => th.gpuLastHz
  | _ => th.cpuLastHz

def GovernorThread.downHoldRemaining (th : GovernorThread) : HocClkModule → ℕ
  | .gpu => th.gpuDownHoldRemaining
  | _ => th.cpuDownHoldRemaining

/-- where the thread stands when it polls the module -/
def updatePc : HocClkModule → GovernorPc
  | .gpu => .gpuUpdate
  | _ => .cpuUpdate

def Sys.load (s : Sys) : HocClkModule → ℕ
  | .gpu => s.env.gpuLoad
  | _ => s.env.cpuLoad

/-- what the poll computes, before the minimum -/
def computedHz (P : Platform) (m : HocClkModule) (s : Sys) : ℕ :=
  tableHz (P.gFreqTable m) (askedHz P s.cfg s.ctx m (s.load m))

/-- the poll of the module that a step is, if it is one; it writes when it requests a rate of the board -/
def pollOf (P : Platform) (m : HocClkModule) (s : Sys) : Event → Option (Poll ℕ)
  | .governor =>
    if s.thread.pc = updatePc m then
      some ⟨computedHz P m s, polledHz P s.cfg s.ctx m (s.load m) (minimumHz s),
        !((governorStep P s.cleared).board.requests m).isEmpty⟩
    else none
  | _ => none

/-- the polls of a run, in order -/
def polls (P : Platform) (m : HocClkModule) : Sys → List Event → List (Poll ℕ)
  | _, [] => []
  | s, e :: es => (pollOf P m s e).toList ++
    match step P s e with
    | some t => polls P m t es
    | none => []

/-- every poll of the run does what a follower with a hold of `DOWN_HOLD_TICKS` polls is for -/
def FollowsLoad (P : Platform) (m : HocClkModule) (s : Sys) (es : List Event) : Prop :=
  Along (PollOk DOWN_HOLD_TICKS) [] (polls P m s es)

/-! ## The runs in question -/

/-- a check of the thread finds the system running, the module's governor on and, for the CPU, no boost -/
def FindsGovernor (m : HocClkModule) (s : Sys) : Event → Prop
  | .governor =>
    match s.thread.pc with
    | .top => s.env.gRunning = true ∧
        (m = .cpu → s.gov.isCpuGovernorEnabled = true ∧ apmExtIsBoostMode s.env.apmMode = false)
    | .gpuCheck => m = .gpu → s.gov.isGpuGovernorEnabled = true
    | _ => True
  | _ => True

instance (m : HocClkModule) (s : Sys) (e : Event) : Decidable (FindsGovernor m s e) := by
  unfold FindsGovernor
  split
  · split <;> infer_instance
  · infer_instance

/-- the thread has programmed nothing yet, as each time it has found the governor off -/
def Fresh (m : HocClkModule) (s : Sys) : Prop := s.thread.lastHz m = 0 ∧ s.thread.downHoldRemaining m = 0

/-- the CPU table is one that `RefreshFreqTableRow` builds -/
def CpuRowBuilt (P : Platform) : Prop :=
  ∃ c freqs fuel, refreshFreqTableRow P.soc c .cpu freqs fuel = some (P.gFreqTable .cpu).list

/-- a CPU poll whose minimum is above the clock is held on its way up -/
def MinimumHeldBack (P : Platform) (m : HocClkModule) (s : Sys) : Event → Prop
  | .governor => m = .cpu ∧ s.thread.pc = .cpuUpdate ∧ computedHz P .cpu s < s.thread.cpuLastHz ∧
      s.thread.cpuLastHz < minimumHz s ∧ s.thread.cpuDownHoldRemaining ≠ 1
  | _ => False

instance (P : Platform) (m : HocClkModule) (s : Sys) (e : Event) : Decidable (MinimumHeldBack P m s e) := by
  unfold MinimumHeldBack
  split <;> infer_instance

/-! ## What a step does to the thread -/

theorem assignable_of_built (hrow : CpuRowBuilt P) {f : ℕ} (hf : f ∈ (P.gFreqTable .cpu).list) : 500000000 ≤ f := by
  obtain ⟨c, freqs, fuel, hrow⟩ := hrow
  rw [refreshFreqTableRow, if_neg (by simp), Option.some.injEq] at hrow
  rw [← hrow, List.mem_filter] at hf
  simpa [isAssignableHz] using hf.2

theorem computedHz_le_polledHz (m : HocClkModule) (s : Sys) (minHz : ℕ) :
    computedHz P m s ≤ polledHz P s.cfg s.ctx m (s.load m) minHz := by
  unfold computedHz polledHz clampMinHz
  dsimp only
  split_ifs <;> omega

theorem tick_thread (h : tick P s = some s') : s'.thread = s.thread := by
  obtain ⟨f, hf, h⟩ := Option.bind_eq_some_iff.1 h
  obtain ⟨_, b, -, -, rfl⟩ := tickFront_some hf
  have hfront : (frontAt P s b).sys.thread = s.thread := rfl
  split_ifs at h with hupdate
  · by_cases hb : boostSuspends (frontAt P s b).sys.cfg (frontAt P s b).isBoost = true
    · rw [setClocks, if_pos hb] at h
      obtain rfl := Option.some.inj h
      exact hfront
    · obtain ⟨s₁, s₂, s₃, s₄, hr⟩ := setClocks_rounds (Bool.eq_false_iff.2 hb) h
      exact hr.inputs.thread.trans hfront
  · obtain rfl := Option.some.inj h
    exact hfront

/-- the two variables of a module are what they were -/
def SameHold (m : HocClkModule) (th th' : GovernorThread) : Prop :=
  th'.lastHz m = th.lastHz m ∧ th'.downHoldRemaining m = th.downHoldRemaining m

theorem vrrCheck_sameHold (P : Platform) (m : HocClkModule) (s : Sys) : SameHold m s.thread (vrrCheck P s).thread := by
  unfold vrrCheck
  dsimp only
  split_ifs <;> cases m <;> exact ⟨rfl, rfl⟩

theorem vrrUpdate_sameHold (P : Platform) (fps : ℕ) (m : HocClkModule) (s : Sys) :
    SameHold m s.thread (vrrUpdate P fps s).thread := by
  have hshow : ∀ r, (showRate P s r).thread = s.thread := by
    intro r
    cases r <;> rfl
  have hkick : ∀ (x : ℕ) (t : Sys), t.thread = s.thread → SameHold m s.thread (vrrKick P x t).thread := by
    intro x t ht
    unfold vrrKick
    split_ifs <;> cases m <;> simp [SameHold, GovernorThread.lastHz, GovernorThread.downHoldRemaining, ht]
  unfold vrrUpdate
  extract_lets target maxDisplay minDisplay
  by_cases h : maxDisplay = minDisplay
  · rw [if_pos h]
    exact ⟨rfl, rfl⟩
  · rw [if_neg h]
    exact hkick _ _ (hshow _)

/-- what a poll of the module leaves in the thread's variables -/
structure Polls (s : Sys) (m : HocClkModule) (r : Poll ℕ) (th : GovernorThread) : Prop where
  remaining : th.downHoldRemaining m = downHold (goingDown (s.thread.lastHz m) r.computed) (s.thread.downHoldRemaining m)
  last : th.lastHz m = if r.wrote then r.programs else s.thread.lastHz m
  wrote : r.wrote = (!goingDown (s.thread.lastHz m) r.computed ||
    hold DOWN_HOLD_TICKS (goingDown (s.thread.lastHz m) r.computed) (s.thread.downHoldRemaining m) == 0)
  le : r.computed ≤ r.programs

theorem drive_thread (f : GovernorThread → ℕ) (P : Platform) (m : HocClkModule) (hz : ℕ) (w : Bool)
    (th th' : GovernorThread) (s : Sys) : f (drive P m hz w th th' s).thread = if w = true then f th else f th' := by
  unfold drive
  split_ifs <;> rfl

theorem cpuUpdate_thread (P : Platform) (s : Sys) :
    (cpuUpdate P s).thread.cpuLastHz =
        (if cpuWrites P s then polledHz P s.cfg s.ctx .cpu s.env.cpuLoad (minimumHz s) else s.thread.cpuLastHz) ∧
      (cpuUpdate P s).thread.cpuDownHoldRemaining =
        downHold (goingDown s.thread.cpuLastHz (computedHz P .cpu s)) s.thread.cpuDownHoldRemaining := by
  have hpolled : polledHz P s.cfg s.ctx .cpu s.env.cpuLoad (minimumHz s) = clampMinHz (minimumHz s)
      (tableHz (P.gFreqTable .cpu) (askedHz P s.cfg s.ctx .cpu s.env.cpuLoad)) := by
    rw [polledHz, if_pos rfl]
  constructor
  · rw [cpuWrites, hpolled]
    exact drive_thread GovernorThread.cpuLastHz _ _ _ _ _ _ _
  · exact (drive_thread GovernorThread.cpuDownHoldRemaining _ _ _ _ _ _ _).trans (ite_self _)

theorem gpuUpdate_thread (P : Platform) (s : Sys) :
    (gpuUpdate P s).thread.gpuLastHz =
        (if gpuWrites P s then polledHz P s.cfg s.ctx .gpu s.env.gpuLoad (minimumHz s) else s.thread.gpuLastHz) ∧
      (gpuUpdate P s).thread.gpuDownHoldRemaining =
        downHold (goingDown s.thread.gpuLastHz (computedHz P .gpu s)) s.thread.gpuDownHoldRemaining := by
  have hpolled : polledHz P s.cfg s.ctx .gpu s.env.gpuLoad (minimumHz s) =
      tableHz (P.gFreqTable .gpu) (askedHz P s.cfg s.ctx .gpu s.env.gpuLoad) := by
    rw [polledHz, if_neg (by decide)]
  constructor
  · rw [gpuWrites, hpolled, ← Bool.and_true (_ || _)]
    exact drive_thread GovernorThread.gpuLastHz _ _ _ _ _ _ _
  · exact (drive_thread GovernorThread.gpuDownHoldRemaining _ _ _ _ _ _ _).trans (ite_self _)

theorem cpuUpdate_polls (hrow : CpuRowBuilt P) (hpc : s.thread.pc = .cpuUpdate) : ∃ r,
    pollOf P .cpu s .governor = some r ∧ Polls s .cpu r (governorStep P s.cleared).thread := by
  have hwrote : (!((governorStep P s.cleared).board.requests .cpu).isEmpty) = cpuWrites P s := by
    rw [governorStep_requests P s (Or.inl rfl)]
    cases cpuWrites P s <;> simp [hpc]
  have hstep : (governorStep P s.cleared).thread = ((cpuUpdate P s.cleared).goto .gpuCheck).thread := by
    rw [governorStep, cleared_thread, hpc]
  obtain ⟨hlast, hhold⟩ := cpuUpdate_thread P s.cleared
  have hassign : isAssignableHz .cpu (polledHz P s.cfg s.ctx .cpu s.env.cpuLoad (minimumHz s)) = true := by
    have hentry : 500000000 ≤ computedHz P .cpu s := assignable_of_built hrow (tableHz_mem _ _)
    exact decide_eq_true (hentry.trans (computedHz_le_polledHz .cpu s (minimumHz s)))
  refine ⟨_, if_pos hpc, ?_⟩
  rw [hstep]
  constructor
  case remaining => exact hhold
  case last =>
    rw [hwrote]
    exact hlast
  case wrote =>
    rw [hwrote, cpuWrites, hassign, Bool.and_true]
    rfl
  case le => exact computedHz_le_polledHz .cpu s (minimumHz s)

theorem gpuUpdate_polls (hpc : s.thread.pc = .gpuUpdate) : ∃ r,
    pollOf P .gpu s .governor = some r ∧ Polls s .gpu r (governorStep P s.cleared).thread := by
  have hwrote : (!((governorStep P s.cleared).board.requests .gpu).isEmpty) = gpuWrites P s := by
    rw [governorStep_requests P s (Or.inr rfl)]
    cases gpuWrites P s <;> simp [hpc]
  have hstep : (governorStep P s.cleared).thread = ((gpuUpdate P s.cleared).goto .vrrCheck).thread := by
    rw [governorStep, cleared_thread, hpc]
  obtain ⟨hlast, hhold⟩ := gpuUpdate_thread P s.cleared
  refine ⟨_, if_pos hpc, ?_⟩
  rw [hstep]
  constructor
  case remaining => exact hhold
  case last =>
    rw [hwrote]
    exact hlast
  case wrote =>
    rw [hwrote]
    rfl
  case le => exact computedHz_le_polledHz .gpu s (minimumHz s)

/-- between its polls a module's variables stay, unless a check finds the governor off -/
theorem governorStep_sameHold (hm : Polled m) (hfinds : FindsGovernor m s .governor) (hpc : s.thread.pc ≠ updatePc m) :
    SameHold m s.thread (governorStep P s).thread := by
  unfold FindsGovernor at hfinds
  unfold governorStep
  cases h : s.thread.pc with
  | top =>
    rw [h] at hfinds
    obtain ⟨hrunning, hcpu⟩ := hfinds
    rcases hm with rfl | rfl
    · obtain ⟨hon, hboost⟩ := hcpu rfl
      simp [hrunning, hon, hboost, SameHold, Sys.goto, GovernorThread.lastHz, GovernorThread.downHoldRemaining]
    · simp only [hrunning, Bool.not_true, Bool.false_eq_true, if_false]
      split_ifs <;> exact ⟨rfl, rfl⟩
  | cpuUpdate =>
    rcases hm with rfl | rfl
    · exact absurd h hpc
    · unfold cpuUpdate drive
      dsimp only
      split_ifs <;> exact ⟨rfl, rfl⟩
  | gpuCheck =>
    rw [h] at hfinds
    rcases hm with rfl | rfl
    · dsimp only
      split_ifs <;> exact ⟨rfl, rfl⟩
    · simp [hfinds rfl, SameHold, Sys.goto, GovernorThread.lastHz, GovernorThread.downHoldRemaining]
  | gpuUpdate =>
    rcases hm with rfl | rfl
    · unfold gpuUpdate drive
      dsimp only
      split_ifs <;> exact ⟨rfl, rfl⟩
    · exact absurd h hpc
  | vrrCheck => exact vrrCheck_sameHold P m s
  | vrrUpdate fps => exact vrrUpdate_sameHold P fps m s

/-! ## Runs -/

/-- the thread's variables of a module say what the hold counter says of the polls so far -/
def TracksThread (m : HocClkModule) (h : List (Poll ℕ)) (th : GovernorThread) : Prop :=
  ∃ last, Tracks DOWN_HOLD_TICKS h (th.downHoldRemaining m) last ∧ last.getD 0 = th.lastHz m

theorem goingDown_iff {last : Option ℕ} {lastHz x : ℕ} (h : last.getD 0 = lastHz) :
    goingDown lastHz x = true ↔ ∃ L, last = some L ∧ x < L := by
  subst h
  cases last with
  | none => simp [goingDown]
  | some L =>
    simp only [goingDown, Option.getD_some, decide_eq_true_eq, Option.some.injEq, exists_eq_left']
    omega

theorem downHold_eq (down : Bool) (k : ℕ) : downHold down k = hold DOWN_HOLD_TICKS down k := rfl

/-- the tenth poll of a hold is the one that finds the counter at 1 -/
theorem hold_eq_zero_iff (k : ℕ) : hold DOWN_HOLD_TICKS true k = 0 ↔ k = 1 := by
  have hten : DOWN_HOLD_TICKS = 10 := rfl
  rw [hold, hten, if_neg (by simp)]
  by_cases hk : k = 0
  · simp [hk]
  · rw [if_neg hk]
    omega

/-- a step that is no poll of the module leaves its variables -/
theorem sameHold_of_not_poll (hm : Polled m) (hfinds : FindsGovernor m s e) (hpoll : pollOf P m s e = none)
    (h : step P s e = some s') : SameHold m s.thread s'.thread := by
  cases e with
  | external x =>
    obtain rfl := Option.some.inj h
    exact ⟨rfl, rfl⟩
  | tick =>
    have htick : tick P s.cleared = some s' := h
    rw [tick_thread htick]
    exact ⟨rfl, rfl⟩
  | governor =>
    obtain rfl := Option.some.inj h
    have hpc : s.thread.pc ≠ updatePc m := by
      intro hpc
      rw [pollOf, if_pos hpc] at hpoll
      exact absurd hpoll (by simp)
    exact @governorStep_sameHold P s.cleared m hm hfinds hpc

/-- a step that is a poll of the module -/
theorem polls_of_poll (hm : Polled m) (hrow : CpuRowBuilt P) {r : Poll ℕ} (hpoll : pollOf P m s e = some r)
    (h : step P s e = some s') : Polls s m r s'.thread := by
  cases e with
  | external x => exact absurd hpoll (by simp [pollOf])
  | tick => exact absurd hpoll (by simp [pollOf])
  | governor =>
    obtain rfl := Option.some.inj h
    have hpc : s.thread.pc = updatePc m := by
      by_contra hpc
      rw [pollOf, if_neg hpc] at hpoll
      exact absurd hpoll (by simp)
    rcases hm with rfl | rfl
    · obtain ⟨r', hr', hpolls⟩ := cpuUpdate_polls hrow hpc
      obtain rfl := Option.some.inj (hr'.symm.trans hpoll)
      exact hpolls
    · obtain ⟨r', hr', hpolls⟩ := gpuUpdate_polls (P := P) hpc
      obtain rfl := Option.some.inj (hr'.symm.trans hpoll)
      exact hpolls

theorem step_of_poll {r : Poll ℕ} (hpoll : pollOf P m s e = some r) : ∃ t, step P s e = some t := by
  cases e with
  | external x => exact absurd hpoll (by simp [pollOf])
  | tick => exact absurd hpoll (by simp [pollOf])
  | governor => exact ⟨_, rfl⟩

/-- a poll is held on its way up exactly when the minimum is -/
theorem heldBack_iff (hm : Polled m) {r : Poll ℕ} (hpoll : pollOf P m s e = some r) :
    (r.computed < s.thread.lastHz m ∧ s.thread.lastHz m < r.programs ∧ s.thread.downHoldRemaining m ≠ 1) ↔
      MinimumHeldBack P m s e := by
  cases e with
  | external x => exact absurd hpoll (by simp [pollOf])
  | tick => exact absurd hpoll (by simp [pollOf])
  | governor =>
    by_cases hpc : s.thread.pc = updatePc m
    · rw [pollOf, if_pos hpc, Option.some.injEq] at hpoll
      subst hpoll
      rcases hm with rfl | rfl
      · have hpolled : polledHz P s.cfg s.ctx .cpu (s.load .cpu) (minimumHz s) =
            clampMinHz (minimumHz s) (computedHz P .cpu s) := by
          rw [polledHz, if_pos rfl]
          rfl
        have hpc' : s.thread.pc = .cpuUpdate := hpc
        simp only [MinimumHeldBack, hpc', true_and, hpolled, GovernorThread.lastHz, GovernorThread.downHoldRemaining]
        unfold clampMinHz
        split_ifs <;> omega
      · have hpolled : polledHz P s.cfg s.ctx .gpu (s.load .gpu) (minimumHz s) = computedHz P .gpu s := by
          rw [polledHz, if_neg (by decide)]
          rfl
        simp only [MinimumHeldBack, reduceCtorEq, false_and, iff_false, hpolled]
        omega
    · rw [pollOf, if_neg hpc] at hpoll
      exact absurd hpoll (by simp)

theorem not_heldBack_of_not_poll (hpoll : pollOf P m s e = none) : ¬ MinimumHeldBack P m s e := by
  cases e with
  | external x => exact id
  | tick => exact id
  | governor =>
    rintro ⟨rfl, hpc, -⟩
    have hpc' : s.thread.pc = updatePc .cpu := hpc
    rw [pollOf, if_pos hpc'] at hpoll
    exact absurd hpoll (by simp)

theorem TracksThread.of_not_poll {h : List (Poll ℕ)} (ht : TracksThread m h s.thread) (hm : Polled m)
    (hfinds : FindsGovernor m s e) (hpoll : pollOf P m s e = none) (hs : step P s e = some s') :
    TracksThread m h s'.thread := by
  obtain ⟨hlast, hhold⟩ := sameHold_of_not_poll hm hfinds hpoll hs
  unfold TracksThread
  rw [hlast, hhold]
  exact ht

theorem TracksThread.of_poll {h : List (Poll ℕ)} {r : Poll ℕ} {th : GovernorThread} (ht : TracksThread m h s.thread)
    (hp : Polls s m r th) : TracksThread m (r :: h) th := by
  obtain ⟨last, htracks, hlast⟩ := ht
  refine ⟨if r.wrote then some r.programs else last, ?_, ?_⟩
  · rw [hp.remaining, downHold_eq]
    exact htracks.cons (by decide) (goingDown_iff hlast) hp.wrote
  · rw [hp.last]
    split_ifs
    · rfl
    · exact hlast

/-- a poll does what a follower is for exactly when it is not held on its way up -/
theorem TracksThread.pollOk_iff {h : List (Poll ℕ)} {r : Poll ℕ} {th : GovernorThread} (ht : TracksThread m h s.thread)
    (hp : Polls s m r th) (hm : Polled m) (hpoll : pollOf P m s e = some r) :
    PollOk DOWN_HOLD_TICKS h r ↔ ¬ MinimumHeldBack P m s e := by
  obtain ⟨last, htracks, hlast⟩ := ht
  rw [htracks.pollOk_iff (goingDown_iff hlast) hp.wrote hp.le, ← heldBack_iff hm hpoll]
  simp only [← hlast, hold_eq_zero_iff]
  cases last with
  | none => simp
  | some L => simp

/-- the polls of a run behind those of `h` -/
theorem along_polls_iff (hm : Polled m) (hrow : CpuRowBuilt P) {h : List (Poll ℕ)} (ht : TracksThread m h s.thread)
    (hfinds : AllSteps (step P) (FindsGovernor m) s es) :
    Along (PollOk DOWN_HOLD_TICKS) h (polls P m s es) ↔
      AllSteps (step P) (fun s e => ¬ MinimumHeldBack P m s e) s es := by
  induction es generalizing s h with
  | nil => exact Iff.rfl
  | cons e es ih =>
    obtain ⟨hfind, hrest⟩ := hfinds
    have hnext : ∀ h', (∀ t, step P s e = some t → TracksThread m h' t.thread) →
        (Along (PollOk DOWN_HOLD_TICKS) h' (match step P s e with | some t => polls P m t es | none => []) ↔
          ∀ t, step P s e = some t → AllSteps (step P) (fun s e => ¬ MinimumHeldBack P m s e) t es) := by
      intro h' ht'
      cases hs : step P s e with
      | none => exact iff_of_true trivial fun t ht => absurd ht (by simp)
      | some t =>
        simp only [Option.some.injEq, forall_eq']
        exact ih (ht' t hs) (hrest t hs)
    rw [polls, AllSteps]
    cases hpoll : pollOf P m s e with
    | none =>
      rw [Option.toList_none, List.nil_append, and_iff_right (not_heldBack_of_not_poll hpoll)]
      exact hnext h fun t hs => ht.of_not_poll hm hfind hpoll hs
    | some r =>
      obtain ⟨t, hs⟩ := step_of_poll hpoll
      rw [Option.toList_some, List.singleton_append, Along,
        ht.pollOk_iff (polls_of_poll hm hrow hpoll hs) hm hpoll]
      exact and_congr_right fun _ => hnext (r :: h) fun t' hs' => ht.of_poll (polls_of_poll hm hrow hpoll hs')

/-- **When a run keeps to the hold.** For every stretch of a run in which the thread finds the module's governor on. -/
theorem followsLoad_iff (hm : Polled m) (hrow : CpuRowBuilt P) (hfresh : Fresh m s)
    (hfinds : AllSteps (step P) (FindsGovernor m) s es) :
    FollowsLoad P m s es ↔ AllSteps (step P) (fun s e => ¬ MinimumHeldBack P m s e) s es := by
  apply along_polls_iff hm hrow _ hfinds
  refine ⟨none, ?_, hfresh.1.symm⟩
  rw [hfresh.2]
  exact .fresh

/-! ## Witnesses -/

/-- the CPU governor is on, and its configured minimum is read again at the second poll -/
def governedStart (cpuLoad minimum : ℕ) : Sys :=
  { sampleStart with
    env := { sampleEnv with cpuLoad := cpuLoad }
    cfg := { sampleConfig with
      configValues := fun k => if k = .cpuGovernorMinimumFreq then minimum else sampleConfig.configValues k }
    gov := ⟨true, false, false, true, false, false⟩
    thread := { sampleStart.thread with cpuTick := 49 } }

theorem sampleConsole_built : CpuRowBuilt sampleConsole := by
  refine ⟨Config.initial, [612000000, 1020000000, 1224000000, 1785000000], 0, ?_⟩
  decide

/-- two polls, the load gone at the second one -/
def loadDrops (minimum : ℕ) : List Event :=
  [.governor, .governor, .governor, .governor, .external (governedStart 0 minimum).world, .governor, .governor]

theorem loadDrops_followed :
    FollowsLoad sampleConsole .cpu (governedStart 500 612000000) (loadDrops 612000000) :=
  (followsLoad_iff (Or.inl rfl) sampleConsole_built ⟨rfl, rfl⟩ (by decide)).2 (by decide)

/-- **A raised minimum is held back.** The first poll programs 1020 MHz; the second one has 1224 MHz to program and waits. -/
theorem raised_minimum_held : Fresh .cpu (governedStart 500 1224000000) ∧
    AllSteps (step sampleConsole) (FindsGovernor .cpu) (governedStart 500 1224000000) (loadDrops 1224000000) ∧
    ¬ FollowsLoad sampleConsole .cpu (governedStart 500 1224000000) (loadDrops 1224000000) := by
  have hpolls : polls sampleConsole .cpu (governedStart 500 1224000000) (loadDrops 1224000000) =
      [⟨1020000000, 1020000000, true⟩, ⟨612000000, 1224000000, false⟩] := by decide
  refine ⟨⟨rfl, rfl⟩, by decide, ?_⟩
  rw [FollowsLoad, hpolls]
  rintro ⟨-, hok, -⟩
  exact absurd (hok.raises 1020000000 rfl (by decide)) (by decide)

end RyazhaClk
