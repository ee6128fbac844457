/-
The three layers of the governor setting (override, running title, global profile) and what `SetClocks` makes of them.

- `handleGovernor_merges_iff`: the state of every component behind `SetClocks` is the layers' merge, component by
  component, exactly when the first non-zero word sets each component that any layer sets.
- `override_discards_profile`: an override of the GPU governor switches off the CPU governor the title asks for.
-/
import Mathlib.Tactic
import RyazhaClk.Lib.Layers
import RyazhaClk.Sysmodule.SetClocks
import RyazhaClk.Sysmodule.System

namespace RyazhaClk

open Layers

/-! ## Model -/

inductive GovernorComponent where
  | cpu
  | gpu
  | vrr
deriving DecidableEq

/-- the byte of a component in a governor word -/
def GovernorComponent.state : GovernorComponent → ℕ → ℕ
  | .cpu => governorStateCpu
  | .gpu => governorStateGpu
  | .vrr => governorStateVrr

/-- the flag `HandleGovernor` sets for a component -/
def GovernorFlags.enabled (g : GovernorFlags) : GovernorComponent → Bool
  | .cpu => g.isCpuGovernorEnabled
  | .gpu => g.isGpuGovernorEnabled
  | .vrr => g.isVRREnabled

/-- the words of the three layers, highest first -/
def governorWords (cfg : Config) (ctx : Context) : List ℕ :=
  [ctx.overrideFreqs .governor, cfg.getAutoClockHz ctx.applicationId .governor ctx.profile true,
    cfg.getAutoClockHz HOCCLK_GLOBAL_PROFILE_TID .governor ctx.profile true]

/-- `effectiveCpu`, `effectiveGpu` and `effectiveVrr` of `HandleGovernor(targetHz)` -/
def effectiveState (cfg : Config) (ctx : Context) (targetHz : ℕ) (c : GovernorComponent) : ℕ :=
  resolveComponent (c.state targetHz) (c.state (resolveHz cfg ctx .governor true))

/-! ## The merge -/

/-- the purpose of the layers: each component from the highest layer that does not leave it alone -/
def mergedState (cfg : Config) (ctx : Context) (c : GovernorComponent) : ℕ :=
  firstSet ComponentGovernor_DoNotOverride ((governorWords cfg ctx).map c.state)

/-- a component some layer sets is set by the first non-zero word already -/
def FirstWordSets (cfg : Config) (ctx : Context) (c : GovernorComponent) : Prop :=
  c.state (firstSet 0 (governorWords cfg ctx)) ≠ ComponentGovernor_DoNotOverride ∨
    ∀ w ∈ governorWords cfg ctx, c.state w = ComponentGovernor_DoNotOverride

/-- `SetClocks` leaves every component in its merged state -/
def MergesLayers (s s' : Sys) : Prop :=
  ∀ c, effectiveState s.cfg s.ctx (targetHz s.cfg s.ctx .governor) c = mergedState s.cfg s.ctx c ∧
    s'.gov.enabled c = decide (mergedState s.cfg s.ctx c = ComponentGovernor_Enabled)

/-! ## Results -/

theorem GovernorComponent.state_zero (c : GovernorComponent) : c.state 0 = ComponentGovernor_DoNotOverride := by
  cases c <;> rfl

theorem resolveHz_governor (cfg : Config) (ctx : Context) :
    resolveHz cfg ctx .governor true = firstSet 0 (governorWords cfg ctx) := by
  unfold resolveHz governorWords
  by_cases ho : ctx.overrideFreqs .governor = 0
  · by_cases ha : cfg.getAutoClockHz ctx.applicationId .governor ctx.profile true = 0
    · simp only [ho, ha, ne_eq, not_true_eq_false, if_false, firstSet, if_true]
      split_ifs with hg
      · exact hg
      · rfl
    · simp [ho, ha, firstSet]
  · simp [ho, firstSet]

theorem resolveComponent_self (n : ℕ) : resolveComponent n n = n := by
  unfold resolveComponent
  split_ifs with h
  · exact h.symm
  · rfl
  · rfl

/-- the two words `HandleGovernor` resolves are one and the same -/
theorem effectiveState_targetHz (cfg : Config) (ctx : Context) (c : GovernorComponent) :
    effectiveState cfg ctx (targetHz cfg ctx .governor) c = c.state (firstSet 0 (governorWords cfg ctx)) := by
  have ht : targetHz cfg ctx .governor = resolveHz cfg ctx .governor true := rfl
  rw [effectiveState, ht, resolveComponent_self, resolveHz_governor]

theorem effectiveState_eq_merged_iff (cfg : Config) (ctx : Context) (c : GovernorComponent) :
    effectiveState cfg ctx (targetHz cfg ctx .governor) c = mergedState cfg ctx c ↔ FirstWordSets cfg ctx c := by
  rw [effectiveState_targetHz]
  exact part_firstSet_iff c.state c.state_zero (governorWords cfg ctx)

/-- the flags behind a call of `SetClocks` that boost does not suspend -/
theorem setClocks_enabled {P : Platform} {boost : Bool} {s s' : Sys} (hb : boostSuspends s.cfg boost = false)
    (h : setClocks P boost s = some s') (c : GovernorComponent) :
    s'.gov.enabled c = decide (effectiveState s.cfg s.ctx (targetHz s.cfg s.ctx .governor) c =
      ComponentGovernor_Enabled) := by
  obtain ⟨s₁, s₂, s₃, s₄, hr⟩ := setClocks_rounds hb h
  obtain ⟨-, -, -, -, -, hcpu, hgpu, hvrr, -⟩ := handleGovernor_some hr.governor
  rw [hr.gov']
  cases c with
  | cpu => exact hcpu.trans (componentEnabled_congr hr.in₃ _)
  | gpu => exact hgpu.trans (componentEnabled_congr hr.in₃ _)
  | vrr => exact hvrr.trans (componentEnabled_congr hr.in₃ _)

/-- **The governor's merge.** A call of `SetClocks` that boost does not suspend merges the layers exactly when every
component that some layer sets is set by the first non-zero word. -/
theorem handleGovernor_merges_iff {P : Platform} {boost : Bool} {s s' : Sys}
    (hb : boostSuspends s.cfg boost = false) (h : setClocks P boost s = some s') :
    MergesLayers s s' ↔ ∀ c, FirstWordSets s.cfg s.ctx c := by
  refine forall_congr' fun c => ?_
  rw [← effectiveState_eq_merged_iff, setClocks_enabled hb h c]
  constructor
  · intro hm
    exact hm.1
  · intro he
    rw [he]
    exact ⟨rfl, rfl⟩

/-! ## Witnesses -/

/-- the running title asks for the CPU governor, and `word` is the override -/
def titleGovernsCpu (word : ℕ) : Sys :=
  { sampleStart with
    cfg := { sampleConfig with
      gProfileMHzMap := fun tid p m => if tid = 1 ∧ p = .handheld ∧ m = .governor then 0x02 else 0 }
    ctx := { sampleStart.ctx with
      applicationId := 1
      overrideFreqs := fun m => if m = .governor then word else 0 } }

/-- without an override the title's word is all there is -/
theorem title_word_merges : ∃ s', setClocks sampleConsole false (titleGovernsCpu 0) = some s' ∧
    s'.gov.enabled .cpu = true ∧ MergesLayers (titleGovernsCpu 0) s' := by
  have h : setClocks sampleConsole false (titleGovernsCpu 0) = some _ := rfl
  refine ⟨_, h, by decide, (handleGovernor_merges_iff (by decide) h).2 ?_⟩
  intro c
  cases c
  · exact .inl (by decide)
  · exact .inr (by decide)
  · exact .inr (by decide)

/-- **An override of one component discards the others.** The title enables the CPU governor; an override that only
enables the GPU governor leaves the CPU's off. -/
theorem override_discards_profile : ∃ s', setClocks sampleConsole false (titleGovernsCpu 0x0200) = some s' ∧
    mergedState (titleGovernsCpu 0x0200).cfg (titleGovernsCpu 0x0200).ctx .cpu = ComponentGovernor_Enabled ∧
    s'.gov.enabled .cpu = false ∧ ¬ MergesLayers (titleGovernsCpu 0x0200) s' := by
  have h : setClocks sampleConsole false (titleGovernsCpu 0x0200) = some _ := rfl
  refine ⟨_, h, by decide, by decide, ?_⟩
  intro hm
  exact absurd (hm .cpu).2 (by decide)

end RyazhaClk
