/-
The state of the clock manager: what it last stored of the world (`gContext`), the governor's flags and the governor
thread's local variables, the board and the configuration. The environment is part of the state and changes only between
steps.

- `targetHz`: the clock a module should run at, from the override, the running title's profile or the global profile.
-/
import Mathlib.Tactic
import RyazhaClk.Sysmodule.Board

namespace RyazhaClk

/-- `gContext`, without the fields that are only reported to clients -/
structure Context where
  applicationId : ℕ
  profile : HocClkProfile
  freqs : HocClkModule → ℕ
  overrideFreqs : HocClkModule → ℕ
  isSaltyNXInstalled : Bool

/-- `gContext.freqs[module] = hz` -/
def Context.setFreq (ctx : Context) (module : HocClkModule) (hz : ℕ) : Context :=
  { ctx with freqs := Function.update ctx.freqs module hz }

/-- which components a governor drives, and which it drove after the last `HandleGovernor` -/
@[ext] structure GovernorFlags where
  isCpuGovernorEnabled : Bool
  isGpuGovernorEnabled : Bool
  isVRREnabled : Bool
  lastCpuGovernorState : Bool
  lastGpuGovernorState : Bool
  lastVrrGovernorState : Bool
deriving DecidableEq

/-- where the governor thread stands; the `Update` places hold `gContextMutex` for their step -/
inductive GovernorPc where
  | top
  | cpuUpdate
  | gpuCheck
  | gpuUpdate
  | vrrCheck
  | vrrUpdate (fps : ℕ)
deriving DecidableEq

/-- the local variables of `GovernorThread` -/
structure GovernorThread where
  pc : GovernorPc
  cpuDownHoldRemaining : ℕ
  cpuLastHz : ℕ
  gpuDownHoldRemaining : ℕ
  gpuLastHz : ℕ
  minHz : ℕ
  cpuTick : ℕ
  vrrTick : ℕ
  vrrFocusTick : ℕ
deriving DecidableEq

structure Sys where
  env : Env
  cfg : Config
  board : Board
  ctx : Context
  gov : GovernorFlags
  thread : GovernorThread
  /-- the static of `SetClocks` -/
  prepareBoostExit : Bool

/-- `Initialize`: nothing is known of the world and no governor runs -/
def Sys.initial (env : Env) (cfg : Config) (hw : Hw) (saltyNX : Bool) : Sys where
  env := env
  cfg := cfg
  board := ⟨hw, []⟩
  ctx := ⟨0, .handheld, fun _ => 0, fun _ => 0, saltyNX⟩
  gov := ⟨false, false, false, false, false, false⟩
  thread := ⟨.top, 0, 0, 0, 0, 612, 0, 0, 0⟩
  prepareBoostExit := false

/-! ## Targets -/

/-- the override, else the clock of the running title, else of the global profile -/
def resolveHz (cfg : Config) (ctx : Context) (module : HocClkModule) (returnRaw : Bool) : ℕ :=
  let targetHz := ctx.overrideFreqs module
  if targetHz ≠ 0 then targetHz
  else
    let targetHz := cfg.getAutoClockHz ctx.applicationId module ctx.profile returnRaw
    if targetHz ≠ 0 then targetHz
    else cfg.getAutoClockHz HOCCLK_GLOBAL_PROFILE_TID module ctx.profile returnRaw

/-- the target of `SetClocks`; only the clocks of the modules up to the memory are scaled from MHz -/
def targetHz (cfg : Config) (ctx : Context) (module : HocClkModule) : ℕ :=
  resolveHz cfg ctx module (HocClkModule.mem.index < module.index)

/-- the capped and rounded target of a module -/
def nearestTargetHz (P : Platform) (cfg : Config) (ctx : Context) (module : HocClkModule) : ℕ :=
  getNearestHz (P.gFreqTable module) (targetHz cfg ctx module) (getMaxAllowedHz P.soc cfg module ctx.profile)

/-- `DVFSMode_Hijack` -/
def dvfsHijack (cfg : Config) : Bool := cfg.getConfigValue .dvfsMode = 1

@[simp] theorem Context.setFreq_same (ctx : Context) (m : HocClkModule) (hz : ℕ) : (ctx.setFreq m hz).freqs m = hz := by
  simp [Context.setFreq]

@[simp] theorem Context.setFreq_of_ne (ctx : Context) {m m' : HocClkModule} (hz : ℕ) (h : m' ≠ m) :
    (ctx.setFreq m hz).freqs m' = ctx.freqs m' := by
  simp [Context.setFreq, Function.update_of_ne h]

@[simp] theorem resolveHz_setFreq (cfg : Config) (ctx : Context) (m m' : HocClkModule) (hz : ℕ) (raw : Bool) :
    resolveHz cfg (ctx.setFreq m hz) m' raw = resolveHz cfg ctx m' raw := rfl

@[simp] theorem targetHz_setFreq (cfg : Config) (ctx : Context) (m m' : HocClkModule) (hz : ℕ) :
    targetHz cfg (ctx.setFreq m hz) m' = targetHz cfg ctx m' := rfl

@[simp] theorem nearestTargetHz_setFreq (P : Platform) (cfg : Config) (ctx : Context) (m m' : HocClkModule) (hz : ℕ) :
    nearestTargetHz P cfg (ctx.setFreq m hz) m' = nearestTargetHz P cfg ctx m' := rfl

end RyazhaClk
