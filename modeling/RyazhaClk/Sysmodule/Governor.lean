/-
The governor (`governor.cpp`): `HandleGovernor`, which `SetClocks` calls to decide which components the governor drives,
and the polling thread, which then drives them. The thread is a step function: each step is one section it runs without
giving up the lock, or one check it makes without the lock; between the check of a flag and the update it guards other
threads may run.

- `governorStep_frame`: what no step of the thread changes.
- `handleGovernor_some`: what a call of `HandleGovernor` changes, flags and resets.
-/
import Mathlib.Tactic
import RyazhaClk.Sysmodule.State

namespace RyazhaClk

/-! ## HandleGovernor -/

/-- `GovernorStateCpu`, `GovernorStateGpu` and `GovernorStateVrr` unpack the bytes of a governor word -/
def governorStateCpu (p : ℕ) : ℕ := p % 256

def governorStateGpu (p : ℕ) : ℕ := p / 256 % 256

def governorStateVrr (p : ℕ) : ℕ := p / 65536 % 256

def ComponentGovernor_DoNotOverride : ℕ := 0

def ComponentGovernor_Disabled : ℕ := 1

def ComponentGovernor_Enabled : ℕ := 2

/-- the local function `resolve` of `HandleGovernor` -/
def resolveComponent (app temp : ℕ) : ℕ :=
  if temp = ComponentGovernor_Disabled then ComponentGovernor_Disabled
  else if temp ≠ ComponentGovernor_DoNotOverride then temp
  else app

/-- whether a component of the governor word `targetHz` ends up enabled, `HandleGovernor` resolving a second word itself -/
def componentEnabled (state : ℕ → ℕ) (cfg : Config) (ctx : Context) (targetHz : ℕ) : Bool :=
  resolveComponent (state targetHz) (state (resolveHz cfg ctx .governor true)) = ComponentGovernor_Enabled

/-- reset a component to stock when it leaves the governor -/
def releaseModule (P : Platform) (env : Env) (module : HocClkModule) (new last : Bool) (b : Board) : Option Board :=
  if !new && last then b.resetToStockModule P env module else some b

def handleGovernor (P : Platform) (targetHz : ℕ) (s : Sys) : Option Sys :=
  let newCpu := componentEnabled governorStateCpu s.cfg s.ctx targetHz
  let newGpu := componentEnabled governorStateGpu s.cfg s.ctx targetHz
  let newVrr := componentEnabled governorStateVrr s.cfg s.ctx targetHz
  (releaseModule P s.env .cpu newCpu s.gov.lastCpuGovernorState s.board).bind fun b =>
  (releaseModule P s.env .gpu newGpu s.gov.lastGpuGovernorState b).bind fun b =>
  let b := if !newVrr && s.gov.lastVrrGovernorState then b.resetToStockDisplay P else b
  -- the last states are only stored when one of them changed, which stores nothing new otherwise
  let last := if newCpu != s.gov.lastCpuGovernorState || newGpu != s.gov.lastGpuGovernorState ||
    newVrr != s.gov.lastVrrGovernorState then (newCpu, newGpu, newVrr)
    else (s.gov.lastCpuGovernorState, s.gov.lastGpuGovernorState, s.gov.lastVrrGovernorState)
  some { s with board := b, gov := ⟨newCpu, newGpu, newVrr, last.1, last.2.1, last.2.2⟩ }

/-! ## GovernorThread -/

/-- the frequency the load asks for, cut at the target and at the cap where there are any -/
def governorDesiredHz (t : FreqTable) (load targetHz maxHz : ℕ) : ℕ :=
  let desiredHz := schedutilTargetHz load t.last
  let desiredHz := if targetHz ≠ 0 ∧ targetHz < desiredHz then targetHz else desiredHz
  if maxHz ≠ 0 ∧ maxHz < desiredHz then maxHz else desiredHz

/-- the table entry of a poll -/
def governorNewHz (t : FreqTable) (load targetHz maxHz : ℕ) : ℕ := tableHz t (governorDesiredHz t load targetHz maxHz)

/-- the configured minimum, applied after the cap -/
def clampMinHz (minHz newHz : ℕ) : ℕ := if newHz < minHz then minHz else newHz

def DOWN_HOLD_TICKS : ℕ := 10

/-- the hold counter after a poll -/
def downHold (goingDown : Bool) (remaining : ℕ) : ℕ :=
  let remaining := if !goingDown then 0 else if remaining = 0 then DOWN_HOLD_TICKS else remaining
  remaining - 1

/-- the write at the end of a poll with the stores behind it; without it only the thread's variables move on -/
def drive (P : Platform) (module : HocClkModule) (newHz : ℕ) (write : Bool) (written kept : GovernorThread)
    (s : Sys) : Sys :=
  if write then
    { s with board := s.board.setHz P module newHz, ctx := s.ctx.setFreq module newHz, thread := written }
  else { s with thread := kept }

/-- the locked section of the CPU governor -/
def cpuUpdate (P : Platform) (s : Sys) : Sys :=
  let th := s.thread
  let newHz := governorNewHz (P.gFreqTable .cpu) s.env.cpuLoad (resolveHz s.cfg s.ctx .cpu false)
    (getMaxAllowedHz P.soc s.cfg .cpu s.ctx.profile)
  let goingDown : Bool := th.cpuLastHz ≠ 0 ∧ newHz < th.cpuLastHz
  let hold := downHold goingDown th.cpuDownHoldRemaining
  let refresh : Bool := 50 < th.cpuTick + 1
  let minHz := if refresh then s.cfg.getConfigValue .cpuGovernorMinimumFreq % 2 ^ 32 else th.minHz
  let cpuTick := if refresh then 0 else th.cpuTick + 1
  let newHz := clampMinHz minHz newHz
  let th := { th with cpuDownHoldRemaining := hold, minHz := minHz, cpuTick := cpuTick }
  drive P .cpu newHz ((!goingDown || hold == 0) && isAssignableHz .cpu newHz) { th with cpuLastHz := newHz } th s

/-- the locked section of the GPU governor -/
def gpuUpdate (P : Platform) (s : Sys) : Sys :=
  let th := s.thread
  let newHz := governorNewHz (P.gFreqTable .gpu) s.env.gpuLoad (resolveHz s.cfg s.ctx .gpu false)
    (getMaxAllowedHz P.soc s.cfg .gpu s.ctx.profile)
  let goingDown : Bool := th.gpuLastHz ≠ 0 ∧ newHz < th.gpuLastHz
  let hold := downHold goingDown th.gpuDownHoldRemaining
  let th := { th with gpuDownHoldRemaining := hold }
  drive P .gpu newHz ((!goingDown || hold == 0) && isAssignableHz .gpu newHz) { th with gpuLastHz := newHz } th s

/-- the display rate for a frame rate: itself if allowed, else its first multiple that is -/
def vrrRate (fps minDisplay maxDisplay : ℕ) : Option ℕ :=
  if minDisplay ≤ fps ∧ fps ≤ maxDisplay then some fps
  else ((List.range' 1 9).map (fps * ·)).find? fun hz => minDisplay ≤ hz ∧ hz ≤ maxDisplay

/-- `SetHz(Display, hz)` with the stores into `gContext` behind it -/
def showRate (P : Platform) (s : Sys) : Option ℕ → Sys
  | some hz => { s with board := s.board.setHz P .display hz, ctx := s.ctx.setFreq .display hz }
  | none => s

/-- every 50 updates the display is sent back to its maximum -/
def vrrKick (P : Platform) (maxDisplay : ℕ) (s : Sys) : Sys :=
  if 50 < s.thread.vrrTick + 1 then
    { s with board := s.board.setHz P .display maxDisplay, thread := { s.thread with vrrTick := 0 } }
  else { s with thread := { s.thread with vrrTick := s.thread.vrrTick + 1 } }

/-- the locked section of the display governor -/
def vrrUpdate (P : Platform) (fps : ℕ) (s : Sys) : Sys :=
  let targetHz := resolveHz s.cfg s.ctx .display false
  let maxDisplay := if targetHz ≠ 0 then targetHz % 256 else 60
  let minDisplay := if P.console = .aula then 45 else 40
  if maxDisplay = minDisplay then s else vrrKick P maxDisplay (showRate P s (vrrRate fps minDisplay maxDisplay))

/-- the check of the display governor up to the reading of the frame rate -/
def vrrCheck (P : Platform) (s : Sys) : Sys :=
  if s.gov.isVRREnabled && s.ctx.profile != .docked && s.ctx.isSaltyNXInstalled then
    let focusDue : Bool := 100 < s.thread.vrrFocusTick + 1
    let th := { s.thread with vrrFocusTick := if focusDue then 0 else s.thread.vrrFocusTick + 1 }
    if focusDue && s.env.outOfFocus then
      { s with board := s.board.resetToStockDisplay P, thread := { th with pc := .top } }
    else if s.env.fps ≠ 254 then { s with thread := { th with pc := .vrrUpdate s.env.fps } }
    else { s with thread := { th with pc := .top } }
  else { s with thread := { s.thread with pc := .top } }

/-- leave the thread at the given place -/
def Sys.goto (s : Sys) (pc : GovernorPc) : Sys := { s with thread := { s.thread with pc := pc } }

/-- `cpuDownHoldRemaining = 0; cpuLastHz = 0;` -/
def Sys.forgetCpu (s : Sys) : Sys := { s with thread := { s.thread with cpuDownHoldRemaining := 0, cpuLastHz := 0 } }

def Sys.forgetGpu (s : Sys) : Sys := { s with thread := { s.thread with gpuDownHoldRemaining := 0, gpuLastHz := 0 } }

/-- one step of `GovernorThread` -/
def governorStep (P : Platform) (s : Sys) : Sys :=
  match s.thread.pc with
  | .top =>
    if !s.env.gRunning then s.forgetCpu.forgetGpu
    else if s.gov.isCpuGovernorEnabled then
      if apmExtIsBoostMode s.env.apmMode then s.forgetCpu.goto .gpuCheck else s.goto .cpuUpdate
    else s.forgetCpu.goto .gpuCheck
  | .cpuUpdate => (cpuUpdate P s).goto .gpuCheck
  | .gpuCheck => if s.gov.isGpuGovernorEnabled then s.goto .gpuUpdate else s.forgetGpu.goto .vrrCheck
  | .gpuUpdate => (gpuUpdate P s).goto .vrrCheck
  | .vrrCheck => vrrCheck P s
  | .vrrUpdate fps => (vrrUpdate P fps s).goto .top

/-! ## What a thread step changes -/

/-- what the governor thread never changes -/
structure ThreadFrame (s s' : Sys) : Prop where
  env : s'.env = s.env
  cfg : s'.cfg = s.cfg
  gov : s'.gov = s.gov
  ctx : s'.ctx = { s.ctx with freqs := s'.ctx.freqs }
  boost : s'.prepareBoostExit = s.prepareBoostExit

theorem drive_frame (P : Platform) (m : HocClkModule) (hz : ℕ) (w : Bool) (th th' : GovernorThread) (s : Sys) :
    ThreadFrame s (drive P m hz w th th' s) := by
  unfold drive
  split_ifs <;> exact ⟨rfl, rfl, rfl, rfl, rfl⟩

theorem vrrCheck_frame (P : Platform) (s : Sys) : ThreadFrame s (vrrCheck P s) := by
  unfold vrrCheck
  dsimp only
  split_ifs <;> exact ⟨rfl, rfl, rfl, rfl, rfl⟩

theorem vrrUpdate_frame (P : Platform) (fps : ℕ) (s : Sys) : ThreadFrame s (vrrUpdate P fps s) := by
  have hshow : ∀ r, ThreadFrame s (showRate P s r) := by
    intro r
    cases r <;> exact ⟨rfl, rfl, rfl, rfl, rfl⟩
  have hkick : ∀ (m : ℕ) (t : Sys), ThreadFrame s t → ThreadFrame s (vrrKick P m t) := by
    intro m t ht
    unfold vrrKick
    split_ifs <;> exact ⟨ht.env, ht.cfg, ht.gov, ht.ctx, ht.boost⟩
  by_cases h : (if resolveHz s.cfg s.ctx .display false ≠ 0 then resolveHz s.cfg s.ctx .display false % 256 else 60) =
      if P.console = .aula then 45 else 40
  · rw [vrrUpdate, if_pos h]
    exact ⟨rfl, rfl, rfl, rfl, rfl⟩
  · rw [vrrUpdate, if_neg h]
    exact hkick _ _ (hshow _)

theorem governorStep_frame (P : Platform) (s : Sys) : ThreadFrame s (governorStep P s) := by
  have hgoto : ∀ (t : Sys) (pc : GovernorPc), ThreadFrame s t → ThreadFrame s (t.goto pc) :=
    fun t pc ht => ⟨ht.env, ht.cfg, ht.gov, ht.ctx, ht.boost⟩
  unfold governorStep
  split
  · split_ifs <;> exact ⟨rfl, rfl, rfl, rfl, rfl⟩
  · exact hgoto _ _ (drive_frame P .cpu _ _ _ _ s)
  · split_ifs <;> exact ⟨rfl, rfl, rfl, rfl, rfl⟩
  · exact hgoto _ _ (drive_frame P .gpu _ _ _ _ s)
  · exact vrrCheck_frame P s
  · exact hgoto _ _ (vrrUpdate_frame P _ s)

/-! ## The governor's stored states -/

/-- the stored states are the flags -/
def GovernorFlags.Synced (g : GovernorFlags) : Prop :=
  g.lastCpuGovernorState = g.isCpuGovernorEnabled ∧ g.lastGpuGovernorState = g.isGpuGovernorEnabled ∧
    g.lastVrrGovernorState = g.isVRREnabled

/-- flags and stored states together are determined by the flags -/
theorem GovernorFlags.Synced.ext {g g' : GovernorFlags} (h : g.Synced) (h' : g'.Synced)
    (hc : g'.isCpuGovernorEnabled = g.isCpuGovernorEnabled) (hg : g'.isGpuGovernorEnabled = g.isGpuGovernorEnabled)
    (hv : g'.isVRREnabled = g.isVRREnabled) : g' = g := by
  refine GovernorFlags.ext hc hg hv ?_ ?_ ?_
  · rw [h'.1, hc, h.1]
  · rw [h'.2.1, hg, h.2.1]
  · rw [h'.2.2, hv, h.2.2]

/-- what a call of `HandleGovernor` does -/
theorem handleGovernor_some {P : Platform} {hz : ℕ} {s s' : Sys} (h : handleGovernor P hz s = some s') :
    ∃ b₁ b₂,
      releaseModule P s.env .cpu (componentEnabled governorStateCpu s.cfg s.ctx hz) s.gov.lastCpuGovernorState
        s.board = some b₁ ∧
      releaseModule P s.env .gpu (componentEnabled governorStateGpu s.cfg s.ctx hz) s.gov.lastGpuGovernorState
        b₁ = some b₂ ∧
      s'.board = (if !componentEnabled governorStateVrr s.cfg s.ctx hz && s.gov.lastVrrGovernorState then
        b₂.resetToStockDisplay P else b₂) ∧
      s'.gov.isCpuGovernorEnabled = componentEnabled governorStateCpu s.cfg s.ctx hz ∧
      s'.gov.isGpuGovernorEnabled = componentEnabled governorStateGpu s.cfg s.ctx hz ∧
      s'.gov.isVRREnabled = componentEnabled governorStateVrr s.cfg s.ctx hz ∧
      s'.gov.Synced ∧
      s' = { s with board := s'.board, gov := s'.gov } := by
  rw [handleGovernor, Option.bind_eq_some_iff] at h
  obtain ⟨b₁, h₁, h⟩ := h
  obtain ⟨b₂, h₂, h⟩ := Option.bind_eq_some_iff.1 h
  obtain rfl := Option.some.inj h
  refine ⟨b₁, b₂, h₁, h₂, rfl, rfl, rfl, rfl, ?_, rfl⟩
  unfold GovernorFlags.Synced
  dsimp only
  split_ifs with hne
  · exact ⟨rfl, rfl, rfl⟩
  · -- nothing changed, so the stored states already are the new flags
    simp only [Bool.or_eq_true, bne_iff_ne, ne_eq, not_or, not_not] at hne
    exact ⟨hne.1.1.symm, hne.1.2.symm, hne.2.symm⟩

end RyazhaClk
