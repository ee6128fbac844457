/-
Convergence of `SetClocks` outside boost: when one call leaves every module no governor drives at its goal, so that a
second call moves nothing.

Two things stand in the way. The loop writes a clock only when the stored frequency differs from the wanted one, so a
stored frequency that is no longer true keeps the clock where it is; and the governor's flags change behind the CPU and
GPU rounds, so a module released in the call is reset to stock behind the round that would have set its target.

- `setClocks_converges_iff`: the exact condition, for every reachable state.
- `second_call_still`: a settled state is a fixed point.
- `released_cpu_left_at_stock`: a CPU override survives the end of the CPU governor only in `gContext`.
-/
import Mathlib.Tactic
import RyazhaClk.Sysmodule.System

namespace RyazhaClk

open RyazhaClk.Transition

variable {P : Platform} {s s' s'' : Sys} {m : HocClkModule}

/-- the module is where its target or stock puts it -/
def AtGoal (P : Platform) (s : Sys) (m : HocClkModule) : Prop := clock s m = goalHz P s.env s.cfg s.ctx m

/-- the modules the clock manager writes -/
def Driven (m : HocClkModule) : Prop := m = .cpu ∨ m = .gpu ∨ m = .mem

/-- every module no governor drives is at its goal -/
def Settled (P : Platform) (s : Sys) : Prop := ∀ m, Driven m → owned s m = false → AtGoal P s m

/-- no clock, no flag and no voltage floor has moved -/
structure Still (s s' : Sys) : Prop where
  clocks : ∀ m, Driven m → clock s' m = clock s m
  floor : s'.board.hw.ramVmin = s.board.hw.ramVmin
  flags : s'.gov = s.gov

/-- the call that leads from `s` to `s'` has converged: `s'` is settled and another call moves nothing -/
def Converged (P : Platform) (s' : Sys) : Prop :=
  Settled P s' ∧ ∀ s'', setClocks P false s' = some s'' → Still s' s''

/-- a stored frequency that equals the rounded target is the module's clock -/
def Coherent (P : Platform) (s : Sys) (m : HocClkModule) : Prop :=
  targetHz s.cfg s.ctx m ≠ 0 → nearestTargetHz P s.cfg s.ctx m = s.ctx.freqs m →
    clock s m = nearestTargetHz P s.cfg s.ctx m

/-- the GPU clock the memory round starts with, for a GPU no governor drives -/
def gpuBeforeRescale (P : Platform) (s : Sys) : ℕ :=
  if targetHz s.cfg s.ctx .gpu ≠ 0 ∧ nearestTargetHz P s.cfg s.ctx .gpu = s.ctx.freqs .gpu then clock s .gpu
  else goalHz P s.env s.cfg s.ctx .gpu

/-- the condition on the state before the call, module by module and by what the governor does with it -/
structure ConvergesWhen (P : Platform) (s : Sys) : Prop where
  cpuKept : enabledCpu s = false → s.gov.isCpuGovernorEnabled = false → Coherent P s .cpu
  cpuReleased : enabledCpu s = false → s.gov.isCpuGovernorEnabled = true →
    stockHz s.env .cpu = goalHz P s.env s.cfg s.ctx .cpu
  gpuKept : enabledGpu s = false → s.gov.isGpuGovernorEnabled = false → memResets s = false →
    memRescales P s = false → Coherent P s .gpu
  /-- the memory round writes the GPU back at the table frequency next to it -/
  gpuRescaled : enabledGpu s = false → s.gov.isGpuGovernorEnabled = false → memResets s = false →
    memRescales P s = true → roundGpu P s.cfg s.ctx (gpuBeforeRescale P s) = goalHz P s.env s.cfg s.ctx .gpu
  gpuReleased : enabledGpu s = false → s.gov.isGpuGovernorEnabled = true →
    stockHz s.env .gpu = goalHz P s.env s.cfg s.ctx .gpu
  mem : Coherent P s .mem

/-! ## One call -/

theorem moduleOutcome_of_owned (ho : owned s m = true) : moduleOutcome P s m = clock s m := if_pos ho

/-- a round settles its module exactly when the stored frequency is coherent -/
theorem moduleOutcome_eq_goal_iff (ho : owned s m = false) :
    moduleOutcome P s m = goalHz P s.env s.cfg s.ctx m ↔ Coherent P s m := by
  rw [moduleOutcome, if_neg (by simp [ho]), goalHz]
  by_cases ht : targetHz s.cfg s.ctx m = 0
  · simp [ht, Coherent]
  · by_cases hn : nearestTargetHz P s.cfg s.ctx m = s.ctx.freqs m
    · simp [Coherent, ht, hn]
    · simp [Coherent, ht, hn]

theorem moduleOutcome_gpu (ho : owned s .gpu = false) : moduleOutcome P s .gpu = gpuBeforeRescale P s := by
  rw [moduleOutcome, if_neg (by simp [ho]), gpuBeforeRescale, goalHz]
  by_cases ht : targetHz s.cfg s.ctx .gpu = 0
  · simp [ht]
  · by_cases hn : nearestTargetHz P s.cfg s.ctx .gpu = s.ctx.freqs .gpu
    · simp [ht, hn]
    · simp [ht, hn]

theorem owned_cpu (s : Sys) : owned s .cpu = s.gov.isCpuGovernorEnabled := by simp [owned]

theorem owned_gpu (s : Sys) : owned s .gpu = s.gov.isGpuGovernorEnabled := by simp [owned]

theorem owned_mem (s : Sys) : owned s .mem = false := by simp [owned]

/-- the CPU no governor drives behind the call is at its goal exactly under the conditions on it -/
theorem cpu_settled_iff (hsync : s.gov.Synced) (o : Outcome P s s') (he : enabledCpu s = false) :
    AtGoal P s' .cpu ↔ (s.gov.isCpuGovernorEnabled = false → Coherent P s .cpu) ∧
      (s.gov.isCpuGovernorEnabled = true → stockHz s.env .cpu = goalHz P s.env s.cfg s.ctx .cpu) := by
  rw [AtGoal, o.inputs.goalHz, o.cpu, he, hsync.1]
  cases hc : s.gov.isCpuGovernorEnabled with
  | false =>
    have ho : owned s .cpu = false := by rw [owned_cpu, hc]
    simp [moduleOutcome_eq_goal_iff ho]
  | true => simp

theorem gpu_settled_iff (hsync : s.gov.Synced) (o : Outcome P s s') (he : enabledGpu s = false) :
    AtGoal P s' .gpu ↔
      (s.gov.isGpuGovernorEnabled = false → memResets s = false →
        (memRescales P s = false → Coherent P s .gpu) ∧
        (memRescales P s = true →
          roundGpu P s.cfg s.ctx (gpuBeforeRescale P s) = goalHz P s.env s.cfg s.ctx .gpu)) ∧
      (s.gov.isGpuGovernorEnabled = true → stockHz s.env .gpu = goalHz P s.env s.cfg s.ctx .gpu) := by
  rw [AtGoal, o.inputs.goalHz, o.gpu, he, hsync.2.1]
  cases hg : s.gov.isGpuGovernorEnabled with
  | false =>
    have ho : owned s .gpu = false := by rw [owned_gpu, hg]
    rw [memRoundGpu]
    cases hr : memResets s with
    | true => simp
    | false =>
      cases hm : memRescales P s with
      | true => simp [moduleOutcome_gpu ho]
      | false => simp [moduleOutcome_eq_goal_iff ho]
  | true => simp

theorem mem_settled_iff (o : Outcome P s s') : AtGoal P s' .mem ↔ Coherent P s .mem := by
  rw [AtGoal, o.inputs.goalHz, o.mem, moduleOutcome_eq_goal_iff (owned_mem s)]

/-- one call settles the modules exactly under the condition -/
theorem settled_iff (hsync : s.gov.Synced) (o : Outcome P s s') : Settled P s' ↔ ConvergesWhen P s := by
  have hocpu : owned s' .cpu = enabledCpu s := by rw [owned_cpu, o.cpuFlag]
  have hogpu : owned s' .gpu = enabledGpu s := by rw [owned_gpu, o.gpuFlag]
  constructor
  · intro h
    have hcpu : enabledCpu s = false → AtGoal P s' .cpu := fun he => h .cpu (Or.inl rfl) (by rw [hocpu, he])
    have hgpu : enabledGpu s = false → AtGoal P s' .gpu := fun he => h .gpu (Or.inr (Or.inl rfl)) (by rw [hogpu, he])
    have hmem : AtGoal P s' .mem := h .mem (Or.inr (Or.inr rfl)) (owned_mem s')
    exact {
      cpuKept := fun he => ((cpu_settled_iff hsync o he).1 (hcpu he)).1
      cpuReleased := fun he => ((cpu_settled_iff hsync o he).1 (hcpu he)).2
      gpuKept := fun he hg hr => (((gpu_settled_iff hsync o he).1 (hgpu he)).1 hg hr).1
      gpuRescaled := fun he hg hr => (((gpu_settled_iff hsync o he).1 (hgpu he)).1 hg hr).2
      gpuReleased := fun he => ((gpu_settled_iff hsync o he).1 (hgpu he)).2
      mem := (mem_settled_iff o).1 hmem }
  · intro h m hm ho
    rcases hm with rfl | rfl | rfl
    · have he : enabledCpu s = false := hocpu.symm.trans ho
      exact (cpu_settled_iff hsync o he).2 ⟨h.cpuKept he, h.cpuReleased he⟩
    · have he : enabledGpu s = false := hogpu.symm.trans ho
      exact (gpu_settled_iff hsync o he).2
        ⟨fun hg hr => ⟨h.gpuKept he hg hr, h.gpuRescaled he hg hr⟩, h.gpuReleased he⟩
    · exact (mem_settled_iff o).2 h.mem

/-! ## A second call -/

/-- a round leaves a settled module where it is -/
theorem moduleOutcome_of_settled (h : owned s m = false → AtGoal P s m) : moduleOutcome P s m = clock s m := by
  cases ho : owned s m with
  | true => exact moduleOutcome_of_owned ho
  | false =>
    have hgoal : clock s m = goalHz P s.env s.cfg s.ctx m := h ho
    rw [hgoal, moduleOutcome_eq_goal_iff ho]
    intro ht _
    rw [hgoal, goalHz, if_pos ht]

/-- **A settled state is a fixed point.** -/
theorem second_call_still (h9 : P.hos9 = true) (o : Outcome P s s') (hs : Settled P s')
    (h : setClocks P false s' = some s'') : Still s' s'' := by
  have o' : Outcome P s' s'' := setClocks_outcome h9 h
  have hcpu : enabledCpu s' = s'.gov.isCpuGovernorEnabled := by
    rw [o.cpuFlag, enabledCpu, enabledCpu, componentEnabled_congr o.inputs]
  have hgpu : enabledGpu s' = s'.gov.isGpuGovernorEnabled := by
    rw [o.gpuFlag, enabledGpu, enabledGpu, componentEnabled_congr o.inputs]
  have hvrr : enabledVrr s' = s'.gov.isVRREnabled := by
    rw [o.vrrFlag, enabledVrr, enabledVrr, componentEnabled_congr o.inputs]
  -- the memory round of the first call has stored its target, so the second one writes none
  have hstored : targetHz s'.cfg s'.ctx .mem ≠ 0 → nearestTargetHz P s'.cfg s'.ctx .mem = s'.ctx.freqs .mem := by
    rw [o.inputs.targetHz, o.inputs.nearestTargetHz, o.freqs .mem (Or.inr (Or.inr rfl))]
    intro ht
    rw [if_pos ⟨owned_mem s, ht⟩]
  have hnoRescale : memRescales P s' = false := by
    simp only [memRescales, Bool.and_eq_false_iff, decide_eq_false_iff_not]
    exact Or.inr fun hc => hc.2.1 (hstored hc.1)
  have hresets : memResets s' = memResets s := by rw [memResets, memResets, o.inputs.cfg, ← o.inputs.targetHz, o.inputs.cfg]
  have hclock : ∀ m, Driven m → moduleOutcome P s' m = clock s' m := fun m hm =>
    moduleOutcome_of_settled (hs m hm)
  refine ⟨?_, ?_, ?_⟩
  · rintro m (rfl | rfl | rfl)
    · rw [o'.cpu, hcpu, o.synced.1, Bool.not_and_self, if_neg Bool.false_ne_true, hclock .cpu (Or.inl rfl)]
    · rw [o'.gpu, hgpu, o.synced.2.1, Bool.not_and_self, if_neg Bool.false_ne_true,
        hclock .gpu (Or.inr (Or.inl rfl)), memRoundGpu, hnoRescale, if_neg Bool.false_ne_true]
      split_ifs with hr
      · -- the memory reset puts the GPU at its goal in both calls, also while a governor drives it
        cases hog : s'.gov.isGpuGovernorEnabled with
        | false => exact (hs .gpu (Or.inr (Or.inl rfl)) (by rw [owned_gpu, hog])).symm
        | true =>
          have he : enabledGpu s = true := o.gpuFlag.symm.trans hog
          rw [o.gpu, he, Bool.not_true, Bool.false_and, if_neg Bool.false_ne_true, memRoundGpu,
            if_pos (hresets ▸ hr), o.inputs.goalHz]
      · rfl
    · rw [o'.mem, hclock .mem (Or.inr (Or.inr rfl))]
  · rw [o'.ramVmin hstored]
    split_ifs with hz
    · have ht : targetHz s.cfg s.ctx .mem = 0 := by rw [← o.inputs.targetHz]; exact hz.1
      rw [o.ramVmin fun hne => absurd ht hne, if_pos ⟨ht, o.inputs.cfg ▸ hz.2.1, o.inputs.env ▸ hz.2.2⟩]
    · rfl
  · exact o.synced.ext o'.synced (o'.cpuFlag.trans hcpu) (o'.gpuFlag.trans hgpu) (o'.vrrFlag.trans hvrr)

/-- every call of `SetClocks` outside boost converges -/
def AlwaysConverges (P : Platform) : Prop :=
  ∀ s s', CallState P s → setClocks P false s = some s' → Converged P s'

/-- **When a call converges.** From HOS 9.0.0 on, where a reset writes the stock rate itself, a call of `SetClocks`
outside boost converges exactly under the condition `ConvergesWhen` on the state it starts in. -/
theorem setClocks_converges_iff (P : Platform) (h9 : P.hos9 = true) (s s' : Sys) (hr : CallState P s)
    (h : setClocks P false s = some s') : Converged P s' ↔ ConvergesWhen P s := by
  have o : Outcome P s s' := setClocks_outcome h9 h
  rw [← settled_iff (callState_synced hr) o]
  exact ⟨fun hc => hc.1, fun hs => ⟨hs, fun s'' h' => second_call_still h9 o hs h'⟩⟩

/-! ## Witnesses -/

/-- the governor drives the CPU, which is overridden to its stock rate, and the GPU is overridden to 307.2 MHz -/
def governedAtStock : External :=
  { sampleStart.world with
    gOverrideFreqs := fun m => match m with
      | .cpu => 1020000000
      | .gpu => 307200000
      | .governor => 2
      | _ => 0 }

/-- the governor is no longer told anything, and the memory is raised to 1733 MHz -/
def releasedAtStock : External :=
  { governedAtStock with
    gOverrideFreqs := fun m => match m with
      | .cpu => 1020000000
      | .gpu => 307200000
      | .mem => 1733000000
      | _ => 0
    gpuHz := 307200000 }

/-- a call that takes the CPU from its governor, keeps the GPU's target and raises the memory with its floor -/
theorem released_at_stock_converges : ∃ s s', CallState sampleConsole s ∧ setClocks sampleConsole false s = some s' ∧
    Converged sampleConsole s' ∧ s.gov.isCpuGovernorEnabled = true ∧ enabledCpu s = false ∧
    memRescales sampleConsole s = true ∧ clock s' .gpu = 307200000 ∧ clock s' .mem = 1733000000 := by
  have hcall : CallState sampleConsole _ :=
    ⟨_, _, ⟨sampleEnv, sampleConfig, sampleHw, false, [.tick, .external governedAtStock, .tick,
      .external releasedAtStock], rfl⟩, rfl, rfl, rfl, rfl⟩
  refine ⟨_, _, hcall, rfl, (setClocks_converges_iff sampleConsole rfl _ _ hcall rfl).2 ?_, rfl, by decide, by decide,
    by decide, by decide⟩
  exact {
    cpuKept := fun _ h => absurd h (by decide)
    cpuReleased := fun _ _ => by decide
    gpuKept := fun _ _ _ h => absurd h (by decide)
    gpuRescaled := fun _ _ _ _ => by decide
    gpuReleased := fun _ h => absurd h (by decide)
    mem := fun _ h => absurd h (by decide) }

/-- the CPU is overridden to 1785 MHz and the governor told to drive it -/
def governedCpu : External :=
  { sampleStart.world with
    gOverrideFreqs := fun m => match m with
      | .cpu => 1785000000
      | .governor => 2
      | _ => 0 }

/-- the governor is no longer told anything; the CPU override stays -/
def releasedCpu : External :=
  { governedCpu with gOverrideFreqs := fun m => if m = .cpu then 1785000000 else 0, cpuHz := 1785000000 }

/-- **A released module is left at stock.** The CPU keeps its override, but the call that ends its governor resets it
behind the round that would have set the target. -/
theorem released_cpu_left_at_stock : ¬ AlwaysConverges sampleConsole := by
  intro h
  have hc := h _ _ ⟨_, _, ⟨sampleEnv, sampleConfig, sampleHw, false, [.tick, .external governedCpu, .tick,
    .external releasedCpu], rfl⟩, rfl, rfl, rfl, rfl⟩ rfl
  have hgoal := hc.1 .cpu (Or.inl rfl) rfl
  exact absurd hgoal (by unfold AtGoal; decide)

end RyazhaClk
