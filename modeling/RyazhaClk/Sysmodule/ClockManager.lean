/-
The clock manager (`clock_manager.cpp`): the safety check that throttles to stock, the GPU voltage floor that follows
the memory clock, `SetClocks`, `RefreshContext` and `Tick`. Functions that only drive the board take what they read and
the board; functions that also store into `gContext` or the governor's flags take the whole state. `none` is the abort
on an unknown APM configuration. The telemetry that `RefreshContext` copies for clients is left out: it never forces a
refresh.

- `TickFront` is a `Tick` up to its decision; `TickFront.update` is that decision.
- `refreshContext_eq`: what a call stores, and when it reports a change.
- `tickFront_eq`: the front of a tick in terms of the resets it made and of the state it started in.
-/
import Mathlib.Tactic
import RyazhaClk.Sysmodule.Governor

namespace RyazhaClk

/-! ## Safety -/

/-- the two conditions under which `HandleSafetyFeatures` throttles: the handheld power limit, which the Lite reads from
a key of its own, and the SoC temperature -/
def shouldThrottle (P : Platform) (s : Sys) : Bool :=
  let limit := if P.console = .hoag then HocClkConfigValue.liteTDPLimit else .handheldTDPLimit
  (s.cfg.getConfigValue .handheldTDP ≠ 0 ∧ s.ctx.profile ≠ .docked ∧
    s.env.powerMw < -toS32 (s.cfg.getConfigValue limit)) ∨
  (toS32 (s.cfg.getConfigValue .thermalThrottleThreshold) < s.env.tempSocMilli.tdiv 1000 ∧
    s.cfg.getConfigValue .thermalThrottle ≠ 0)

/-- `ResetToStockClocks`, without the DFLL tuning -/
def resetToStockClocks (P : Platform) (env : Env) (b : Board) : Option Board :=
  (b.resetToStockModule P env .cpu).bind fun b => b.resetToStockModule P env .gpu

/-- `HandleSafetyFeatures`: whether the tick must not set clocks, and the state after the reset -/
def handleSafetyFeatures (P : Platform) (s : Sys) : Option (Bool × Sys) :=
  if shouldThrottle P s then (resetToStockClocks P s.env s.board).map fun b => (true, { s with board := b })
  else some (false, s)

/-! ## SetClocks -/

section Floor

variable (P : Platform) (env : Env) (cfg : Config) (ctx : Context)

/-- the GPU frequency the voltage update is applied with -/
def nearestGpuHz (b : Board) : ℕ :=
  getNearestHz (P.gFreqTable .gpu) (b.getHz env .gpu) (getMaxAllowedHz P.soc cfg .gpu ctx.profile)

def applyGpuDvfs (targetHz : ℕ) (b : Board) : Option Board :=
  let gpuHz := nearestGpuHz P env cfg ctx b
  let b := b.pcvHijackGpuVolts env (gpuVminFor P cfg targetHz)
  if targetHz ≠ 0 then some (b.setHz P .gpu gpuHz) else b.resetToStockModule P env .gpu

def dvfsReset (b : Board) : Option Board :=
  if dvfsHijack cfg then
    ((b.pcvHijackGpuVolts env 0).resetToStockModule P env .gpu).map fun b =>
      if targetHz cfg ctx .gpu ≠ 0 then b.setHz P .gpu (nearestTargetHz P cfg ctx .gpu) else b
  else some b

def handleFreqReset (module : HocClkModule) (isBoost didHijackPcv : Bool) (b : Board) : Option Board :=
  match module with
  | .cpu =>
    if !(isBoost || (cfg.getConfigValue .overwriteBoostMode ≠ 0 && isBoost)) then b.resetToStockModule P env .cpu
    else some b
  | .gpu => b.resetToStockModule P env .gpu
  | .mem =>
    (b.resetToStockModule P env .mem).bind fun b => if !didHijackPcv then dvfsReset P env cfg ctx b else some b
  | .display => some (if cfg.getConfigValue .overwriteRefreshRate ≠ 0 then b.resetToStockDisplay P else b)
  | .governor => some b

/-- set a module to its rounded target; a memory change takes the voltage floor with it, up first, down last -/
def writeTarget (module : HocClkModule) (oldHz : ℕ) (b : Board) : Option Board :=
  let hz := targetHz cfg ctx module
  let hijack : Bool := module = .mem && dvfsHijack cfg
  (if hijack && oldHz < hz then applyGpuDvfs P env cfg ctx hz b else some b).bind fun b =>
  let b := b.setHz P module (nearestTargetHz P cfg ctx module)
  if hijack && hz < oldHz then applyGpuDvfs P env cfg ctx hz b else some b

end Floor

/-- the body of the module loop for the modules up to the memory; `didHijackPcv` is false throughout -/
def setClocksModule (P : Platform) (isBoost : Bool) (module : HocClkModule) (s : Sys) : Option Sys :=
  if (module = .cpu && s.gov.isCpuGovernorEnabled) || (module = .gpu && s.gov.isGpuGovernorEnabled) then some s
  else if targetHz s.cfg s.ctx module ≠ 0 then
    if nearestTargetHz P s.cfg s.ctx module ≠ s.ctx.freqs module then
      (writeTarget P s.env s.cfg s.ctx module (s.board.getHz s.env module) s.board).map fun b =>
        { s with board := b, ctx := s.ctx.setFreq module (nearestTargetHz P s.cfg s.ctx module) }
    else some s
  else (handleFreqReset P s.env s.cfg s.ctx module isBoost false s.board).map fun b => { s with board := b }

/-- the body of the module loop for the display -/
def setClocksDisplay (P : Platform) (isBoost : Bool) (s : Sys) : Option Sys :=
  if s.gov.isVRREnabled then some s
  else if s.cfg.getConfigValue .overwriteRefreshRate ≠ 0 then
    let hz := targetHz s.cfg s.ctx .display
    if hz ≠ 0 then some { s with board := s.board.setHz P .display hz, ctx := s.ctx.setFreq .display hz }
    else (handleFreqReset P s.env s.cfg s.ctx .display isBoost false s.board).map fun b => { s with board := b }
  else some s

/-- `SetHz(CPU, GetHz(CPU))` -/
def rewriteCpu (P : Platform) (s : Sys) : Sys :=
  { s with board := s.board.setHz P .cpu (s.board.getHz s.env .cpu) }

/-- whether boost suspends `SetClocks` -/
def boostSuspends (cfg : Config) (isBoost : Bool) : Bool := isBoost && cfg.getConfigValue .overwriteBoostMode = 0

def leaveBoost (P : Platform) (s : Sys) : Sys :=
  if s.prepareBoostExit then { rewriteCpu P s with prepareBoostExit := false } else s

def setClocks (P : Platform) (isBoost : Bool) (s : Sys) : Option Sys :=
  if boostSuspends s.cfg isBoost then some { rewriteCpu P s with prepareBoostExit := true }
  else
    (setClocksModule P isBoost .cpu (leaveBoost P s)).bind fun s =>
    (setClocksModule P isBoost .gpu s).bind fun s =>
    (setClocksModule P isBoost .mem s).bind fun s =>
    (handleGovernor P (targetHz s.cfg s.ctx .governor) s).bind fun s =>
    setClocksDisplay P isBoost s

/-! ## RefreshContext -/

/-- store the running title and the profile; true when one of them moved -/
def refreshTitle (s : Sys) : Bool × Sys :=
  (s.env.applicationId != s.ctx.applicationId || s.env.profile != s.ctx.profile,
   { s with ctx := { s.ctx with applicationId := s.env.applicationId, profile := s.env.profile } })

/-- the reset to stock on a title or profile change -/
def resetForTitle (P : Platform) (env : Env) (cfg : Config) (b : Board) : Option Board :=
  (b.resetToStock P env).bind fun b =>
  if dvfsHijack cfg then (b.pcvHijackGpuVolts env 0).resetToStockModule P env .gpu else some b

/-- store a module's clock and override; true when one of them moved. A clock that reads 0 is not stored. -/
def refreshModule (module : HocClkModule) (s : Sys) : Bool × Sys :=
  let hz := s.board.getHz s.env module
  let moved : Bool := hz ≠ 0 ∧ hz ≠ s.ctx.freqs module
  let freqs := if moved then Function.update s.ctx.freqs module hz else s.ctx.freqs
  let overrideHz := s.cfg.getOverrideHz module
  let overridden : Bool := overrideHz ≠ s.ctx.overrideFreqs module
  (moved || overridden,
   { s with ctx := { s.ctx with
       freqs := freqs
       overrideFreqs := Function.update s.ctx.overrideFreqs module overrideHz } })

/-- the loop over the modules -/
def refreshModules : List HocClkModule → Bool × Sys → Bool × Sys
  | [], r => r
  | m :: ms, r =>
    let q := refreshModule m r.2
    refreshModules ms (r.1 || q.1, q.2)

/-- `RefreshContext`: whether something changed, and the state that has stored it -/
def refreshContext (P : Platform) (s : Sys) : Option (Bool × Sys) :=
  let (titleChanged, s) := refreshTitle s
  (if titleChanged then resetForTitle P s.env s.cfg s.board else some s.board).map fun b =>
    refreshModules HocClkModule.all (titleChanged, { s with board := b })

/-! ## Tick -/

/-- a tick up to its decision whether to set clocks -/
structure TickFront where
  sys : Sys
  isBoost : Bool
  shouldSkipClockSet : Bool
  contextChanged : Bool
  /-- `config::Refresh` was asked and reloaded the file; it is only asked when the context has not changed -/
  reloaded : Bool
  /-- the real GPU clock was compared and differs from the stored one; only when nothing changed so far -/
  gpuOverwritten : Bool

/-- the clocks are set -/
def TickFront.update (f : TickFront) : Bool :=
  (f.contextChanged || f.reloaded || f.gpuOverwritten) && !f.shouldSkipClockSet

def tickFront (P : Platform) (s : Sys) : Option TickFront :=
  (handleSafetyFeatures P s).bind fun (skip, s) =>
  (refreshContext P s).map fun (changed, s) =>
    let reload := if changed then (false, s.cfg) else s.cfg.refresh s.env.file
    let s := { s with cfg := reload.2 }
    { sys := s
      isBoost := apmExtIsBoostMode s.env.apmMode
      shouldSkipClockSet := skip
      contextChanged := changed
      reloaded := reload.1
      gpuOverwritten := !changed && !reload.1 && s.env.realGpuHz != s.ctx.freqs .gpu }

def tick (P : Platform) (s : Sys) : Option Sys :=
  (tickFront P s).bind fun f => if f.update then setClocks P f.isBoost f.sys else some f.sys

/-! ## What a refresh stores and reports -/

/-- the stored title or profile is out of date -/
def titleMoved (s : Sys) : Bool := s.env.applicationId != s.ctx.applicationId || s.env.profile != s.ctx.profile

/-- the stored clock or override of a module is out of date -/
def moduleMoved (s : Sys) (m : HocClkModule) : Bool :=
  decide (s.board.getHz s.env m ≠ 0 ∧ s.board.getHz s.env m ≠ s.ctx.freqs m) ||
    decide (s.cfg.getOverrideHz m ≠ s.ctx.overrideFreqs m)

/-- the clock stored for a module; a reading of 0 keeps the old one -/
def storedFreq (s : Sys) (m : HocClkModule) : ℕ :=
  if s.board.getHz s.env m ≠ 0 then s.board.getHz s.env m else s.ctx.freqs m

/-- `gContext` once everything watched has been stored -/
def storedContext (s : Sys) : Context :=
  { s.ctx with
    applicationId := s.env.applicationId
    profile := s.env.profile
    freqs := storedFreq s
    overrideFreqs := s.cfg.getOverrideHz }

theorem refreshModule_eq (m : HocClkModule) (s : Sys) : refreshModule m s =
    (moduleMoved s m, { s with ctx := { s.ctx with
      freqs := Function.update s.ctx.freqs m (storedFreq s m)
      overrideFreqs := Function.update s.ctx.overrideFreqs m (s.cfg.getOverrideHz m) } }) := by
  have hfreqs : (if s.board.getHz s.env m ≠ 0 ∧ s.board.getHz s.env m ≠ s.ctx.freqs m then
      Function.update s.ctx.freqs m (s.board.getHz s.env m) else s.ctx.freqs) =
      Function.update s.ctx.freqs m (storedFreq s m) := by
    unfold storedFreq
    by_cases h0 : s.board.getHz s.env m = 0
    · simp [h0]
    · by_cases hf : s.board.getHz s.env m = s.ctx.freqs m
      · simp [hf]
      · simp [h0, hf]
  simp only [refreshModule, moduleMoved, decide_eq_true_eq, hfreqs]

/-- the loop stores every module of the list and reports whether one of them was out of date at its start -/
theorem refreshModules_eq (ms : List HocClkModule) (hms : ms.Nodup) (r : Bool) (s : Sys) :
    refreshModules ms (r, s) = (r || ms.any (moduleMoved s), { s with ctx := { s.ctx with
      freqs := fun m => if m ∈ ms then storedFreq s m else s.ctx.freqs m
      overrideFreqs := fun m => if m ∈ ms then s.cfg.getOverrideHz m else s.ctx.overrideFreqs m } }) := by
  induction ms generalizing r s with
  | nil => simp [refreshModules]
  | cons m ms ih =>
    obtain ⟨hm, hms'⟩ := List.nodup_cons.1 hms
    rw [refreshModules, refreshModule_eq]
    dsimp only
    rw [ih hms']
    set s' : Sys := { s with ctx := { s.ctx with
      freqs := Function.update s.ctx.freqs m (storedFreq s m)
      overrideFreqs := Function.update s.ctx.overrideFreqs m (s.cfg.getOverrideHz m) } } with hs'
    -- storing one module changes nothing another one is compared with
    have hfreq : ∀ m', m' ≠ m → s'.ctx.freqs m' = s.ctx.freqs m' := fun m' h => by simp [hs', Function.update_of_ne h]
    have hover : ∀ m', m' ≠ m → s'.ctx.overrideFreqs m' = s.ctx.overrideFreqs m' := fun m' h => by
      simp [hs', Function.update_of_ne h]
    have hne : ∀ m' ∈ ms, m' ≠ m := fun m' h => ne_of_mem_of_not_mem h hm
    have hmoved : ms.any (moduleMoved s') = ms.any (moduleMoved s) := by
      rw [Bool.eq_iff_iff, List.any_eq_true, List.any_eq_true]
      refine exists_congr fun m' => and_congr_right fun h => ?_
      simp only [moduleMoved, hfreq m' (hne m' h), hover m' (hne m' h)]
      rfl
    have hfreqs : (fun m' => if m' ∈ ms then storedFreq s' m' else s'.ctx.freqs m') =
        fun m' => if m' ∈ m :: ms then storedFreq s m' else s.ctx.freqs m' := by
      funext m'
      by_cases h : m' = m
      · subst h
        simp [hm, hs']
      · simp only [List.mem_cons, h, false_or, storedFreq, hfreq m' h]
        rfl
    have hovers : (fun m' => if m' ∈ ms then s'.cfg.getOverrideHz m' else s'.ctx.overrideFreqs m') =
        fun m' => if m' ∈ m :: ms then s.cfg.getOverrideHz m' else s.ctx.overrideFreqs m' := by
      funext m'
      by_cases h : m' = m
      · subst h
        simp [hm, hs']
      · simp only [List.mem_cons, h, false_or, hover m' h]
        rfl
    rw [hmoved, hfreqs, hovers, List.any_cons, Bool.or_assoc]

/-- **RefreshContext stores what it watches.** It reports a change exactly when the title, the profile, a clock or an
override it stored before is out of date, the clocks as the reset of a title change leaves them. -/
theorem refreshContext_eq (P : Platform) (s : Sys) : refreshContext P s =
    (if titleMoved s then resetForTitle P s.env s.cfg s.board else some s.board).map fun b =>
      (titleMoved s || HocClkModule.all.any (moduleMoved { s with board := b }),
       { s with board := b, ctx := storedContext { s with board := b } }) := by
  unfold refreshContext refreshTitle
  simp only [titleMoved]
  congr 1
  funext b
  rw [refreshModules_eq _ (by decide)]
  simp only [HocClkModule.mem_all, if_true]
  rfl

/-! ## The front of a tick -/

/-- the board behind the safety check -/
def boardAfterSafety (P : Platform) (s : Sys) : Option Board :=
  if shouldThrottle P s then resetToStockClocks P s.env s.board else some s.board

/-- the board behind the reset of a title change -/
def boardAfterTitle (P : Platform) (s : Sys) (b : Board) : Option Board :=
  if titleMoved s then resetForTitle P s.env s.cfg b else some b

/-- the front of a tick of which the resets left the board `b` -/
def frontAt (P : Platform) (s : Sys) (b : Board) : TickFront :=
  let s' := { s with board := b }
  let changed := titleMoved s || HocClkModule.all.any (moduleMoved s')
  let reload := if changed then (false, s.cfg) else s.cfg.refresh s.env.file
  { sys := { s' with ctx := storedContext s', cfg := reload.2 }
    isBoost := apmExtIsBoostMode s.env.apmMode
    shouldSkipClockSet := shouldThrottle P s
    contextChanged := changed
    reloaded := reload.1
    gpuOverwritten := !changed && !reload.1 && s.env.realGpuHz != storedFreq s' .gpu }

theorem tickFront_eq (P : Platform) (s : Sys) :
    tickFront P s = (boardAfterSafety P s).bind fun b => (boardAfterTitle P s b).map (frontAt P s) := by
  unfold tickFront handleSafetyFeatures boardAfterSafety boardAfterTitle
  by_cases ht : shouldThrottle P s = true
  · simp only [ht, if_true, Option.bind_map, refreshContext_eq, Option.map_map]
    refine congrArg _ (funext fun b => congrArg₂ Option.map (funext fun b' => ?_) rfl)
    simp only [Function.comp_apply, frontAt, ht]
    rfl
  · have hf : shouldThrottle P s = false := Bool.eq_false_iff.2 ht
    simp only [hf, refreshContext_eq, Option.map_map, Option.bind_some, if_false, Bool.false_eq_true]
    refine congrArg₂ Option.map (funext fun b' => ?_) rfl
    simp only [Function.comp_apply, frontAt, hf]
    rfl

theorem tickFront_some {P : Platform} {s : Sys} {f : TickFront} (h : tickFront P s = some f) :
    ∃ b₀ b, boardAfterSafety P s = some b₀ ∧ boardAfterTitle P s b₀ = some b ∧ f = frontAt P s b := by
  rw [tickFront_eq, Option.bind_eq_some_iff] at h
  obtain ⟨b₀, hb₀, h⟩ := h
  obtain ⟨b, hb, rfl⟩ := Option.map_eq_some_iff.1 h
  exact ⟨b₀, b, hb₀, hb, rfl⟩

theorem tickFront_skip {P : Platform} {s : Sys} {f : TickFront} (h : tickFront P s = some f) :
    f.shouldSkipClockSet = shouldThrottle P s := by
  obtain ⟨_, _, _, _, rfl⟩ := tickFront_some h
  rfl

end RyazhaClk
