/-
The sysmodule as a transition system: the main loop's `Tick`, the steps of the governor thread, and the world. Each tick
and each locked section of the governor thread holds `gContextMutex`, so a run is a sequence of these steps in any order.
Between them the world moves: the readings, the configuration the clients write, the overrides, the configuration file,
and the rates in PCV, which the system itself and games change. The log holds the operations of the last step.

- `step`: one step of the system, `ReachableState` what its runs reach.
- `reachable_synced`: in every reachable state the states the governor has stored are its flags.
-/
import Mathlib.Tactic
import RyazhaClk.Lib.Transition
import RyazhaClk.Sysmodule.SetClocks

namespace RyazhaClk

open RyazhaClk.Transition

/-! ## Events -/

/-- what the world may be after it has moved; the file's time and the loaded flag change only through `Refresh` -/
structure External where
  env : Env
  configValues : HocClkConfigValue → ℕ
  gProfileMHzMap : ℕ → HocClkProfile → HocClkModule → ℕ
  gProfileCountMap : ℕ → ℕ
  gOverrideFreqs : HocClkModule → ℕ
  cpuHz : ℕ
  gpuHz : ℕ
  memHz : ℕ

inductive Event where
  | external (x : External)
  | tick
  | governor

/-- start the log of a step -/
def Sys.cleared (s : Sys) : Sys := { s with board := { s.board with trace := [] } }

def Sys.move (s : Sys) (x : External) : Sys :=
  { s with
    env := x.env
    cfg := { s.cfg with
      configValues := x.configValues
      gProfileMHzMap := x.gProfileMHzMap
      gProfileCountMap := x.gProfileCountMap
      gOverrideFreqs := x.gOverrideFreqs }
    board := { s.board with hw := { s.board.hw with cpuHz := x.cpuHz, gpuHz := x.gpuHz, memHz := x.memHz } } }

/-- one step; `none` is the abort of a tick -/
def step (P : Platform) (s : Sys) : Event → Option Sys
  | .external x => some (s.cleared.move x)
  | .tick => tick P s.cleared
  | .governor => some (governorStep P s.cleared)

/-- a state some run of the sysmodule reaches -/
def ReachableState (P : Platform) (s : Sys) : Prop :=
  ∃ env cfg hw saltyNX, Reachable (step P) (Sys.initial env cfg hw saltyNX) s

/-- a state in which a tick outside boost calls `SetClocks` in some run -/
def CallState (P : Platform) (s : Sys) : Prop :=
  ∃ s₀ f, ReachableState P s₀ ∧ tickFront P s₀.cleared = some f ∧ f.update = true ∧ f.isBoost = false ∧ s = f.sys

@[simp] theorem cleared_env (s : Sys) : s.cleared.env = s.env := rfl

@[simp] theorem cleared_cfg (s : Sys) : s.cleared.cfg = s.cfg := rfl

@[simp] theorem cleared_ctx (s : Sys) : s.cleared.ctx = s.ctx := rfl

@[simp] theorem cleared_gov (s : Sys) : s.cleared.gov = s.gov := rfl

@[simp] theorem cleared_hw (s : Sys) : s.cleared.board.hw = s.board.hw := rfl

@[simp] theorem cleared_trace (s : Sys) : s.cleared.board.trace = [] := rfl

@[simp] theorem cleared_thread (s : Sys) : s.cleared.thread = s.thread := rfl

/-! ## The governor's flags over runs -/

theorem setClocks_synced {P : Platform} {boost : Bool} {s s' : Sys} (hs : s.gov.Synced)
    (h : setClocks P boost s = some s') : s'.gov.Synced := by
  by_cases hb : boostSuspends s.cfg boost = true
  · rw [setClocks, if_pos hb] at h
    obtain rfl := Option.some.inj h
    exact hs
  · obtain ⟨s₁, s₂, s₃, s₄, hr⟩ := setClocks_rounds (Bool.eq_false_iff.2 hb) h
    obtain ⟨_, _, _, _, _, _, _, _, hsync, _⟩ := handleGovernor_some hr.governor
    rwa [hr.gov']

theorem step_synced {P : Platform} {s s' : Sys} {e : Event} (hs : s.gov.Synced) (h : step P s e = some s') :
    s'.gov.Synced := by
  cases e with
  | external x =>
    obtain rfl := Option.some.inj h
    exact hs
  | governor =>
    obtain rfl := Option.some.inj h
    rw [(governorStep_frame P s.cleared).gov]
    exact hs
  | tick =>
    obtain ⟨f, hf, h⟩ := Option.bind_eq_some_iff.1 h
    obtain ⟨_, b, -, -, rfl⟩ := tickFront_some hf
    have hfront : (frontAt P s.cleared b).sys.gov.Synced := hs
    split_ifs at h
    · exact setClocks_synced hfront h
    · obtain rfl := Option.some.inj h
      exact hfront

/-- in every reachable state the states the governor has stored are its flags -/
theorem reachable_synced {P : Platform} {s : Sys} (h : ReachableState P s) : s.gov.Synced := by
  obtain ⟨env, cfg, hw, saltyNX, hr⟩ := h
  exact Reachable.inv (fun s => s.gov.Synced) (fun _ _ _ hs hstep => step_synced hs hstep) ⟨rfl, rfl, rfl⟩ hr

theorem tickFront_gov {P : Platform} {s : Sys} {f : TickFront} (h : tickFront P s = some f) : f.sys.gov = s.gov := by
  obtain ⟨_, _, _, _, rfl⟩ := tickFront_some h
  rfl

theorem callState_synced {P : Platform} {s : Sys} (h : CallState P s) : s.gov.Synced := by
  obtain ⟨s₀, f, hr, hf, -, -, rfl⟩ := h
  rw [tickFront_gov hf, cleared_gov]
  exact reachable_synced hr

/-! ## A console to run the model on -/

/-- a Mariko console with short tables and one middle GPU frequency -/
def sampleConsole : Platform where
  soc := .mariko
  console := .iowa
  hos9 := true
  bracket := 0
  gFreqTable
    | .cpu => ⟨612000000, [1020000000, 1224000000, 1785000000]⟩
    | .gpu => ⟨76800000, [153600000, 230400000, 268800000, 307200000, 384000000, 460800000, 614400000, 768000000]⟩
    | _ => ⟨665600000, [1331200000, 1600000000, 1733000000, 1866000000, 2133000000]⟩

/-- handheld, cool, in the home menu -/
def sampleEnv : Env where
  apmMode := 0x00020000
  applicationId := 1
  profile := .handheld
  powerMw := -3000
  tempSocMilli := 40000
  realGpuHz := 230400000
  displayHz := 60
  cpuLoad := 0
  gpuLoad := 0
  fps := 254
  outOfFocus := false
  hijackOk := true
  gRunning := true
  file := ⟨1, []⟩

/-- the defaults, loaded from an empty file -/
def sampleConfig : Config := Config.initial.load ⟨1, []⟩

/-- the stock rates of the handheld configuration -/
def sampleHw : Hw := ⟨1020000000, 230400000, 1600000000, 0, 0⟩

def sampleStart : Sys := Sys.initial sampleEnv sampleConfig sampleHw false

/-- the world as it is, for a move that changes one thing -/
def Sys.world (s : Sys) : External where
  env := s.env
  configValues := s.cfg.configValues
  gProfileMHzMap := s.cfg.gProfileMHzMap
  gProfileCountMap := s.cfg.gProfileCountMap
  gOverrideFreqs := s.cfg.gOverrideFreqs
  cpuHz := s.board.hw.cpuHz
  gpuHz := s.board.hw.gpuHz
  memHz := s.board.hw.memHz

example : (run (step sampleConsole) sampleStart [.tick, .tick]).map (fun s => s.board.hw) = some sampleHw := by decide

end RyazhaClk
