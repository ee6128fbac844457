/-
The CPU undervolt of a running console (`SetDfllTunings` in `board_volt.cpp`): two tuning registers of the DFLL, written
from a table for clocks below the break point and one for clocks from it on.

Both arms of the Mariko branch return, so the code behind them, which restores the registers for a level of 0 and for a
clock that left the high range, is never reached and has no place here; neither has the boot value it would restore. What
PCV does to the registers when the clock changes is a parameter.

- `setDfllTunings_overwrites`, `setDfllTunings_unwritten`: a call either sets both registers or none.
- `tunedByState_iff`: when the registers after a call say nothing about the calls before it.
- `tuning_survives_reset`, `tuning_survives_crossing`: an undervolt that stays when it is switched off, and one that
  stays below the break point.
-/
import Mathlib.Tactic
import RyazhaClk.Lib.Transition
import RyazhaClk.Sysmodule.Board

namespace RyazhaClk

open Transition

/-! ## Tables -/

structure EristaCpuUvEntry where
  tune0 : ℕ
  tune1 : ℕ

structure MarikoCpuUvEntry where
  tune0_low : ℕ
  tune0_high : ℕ
  tune1_low : ℕ
  tune1_high : ℕ

def eristaCpuUvTable : List EristaCpuUvEntry :=
  [⟨0xFFEAD0FF, 0x0⟩, ⟨0xffff, 0x27007ff⟩, ⟨0xefff, 0x27407ff⟩, ⟨0xdfff, 0x27807ff⟩, ⟨0xdfdf, 0x27a07ff⟩,
   ⟨0xcfdf, 0x37007ff⟩]

def marikoCpuUvLow : List MarikoCpuUvEntry :=
  [⟨0xffa0, 0xffff, 0x21107ff, 0⟩, ⟨0x0, 0xffdf, 0x21107ff, 0x27207ff⟩, ⟨0xffdf, 0xffdf, 0x21107ff, 0x27307ff⟩,
   ⟨0xffff, 0xffdf, 0x21107ff, 0x27407ff⟩, ⟨0x0, 0xffdf, 0x21607ff, 0x27707ff⟩, ⟨0x0, 0xffdf, 0x21607ff, 0x27807ff⟩,
   ⟨0x0, 0xdfff, 0x21607ff, 0x27b07ff⟩, ⟨0xdfff, 0xdfff, 0x21707ff, 0x27b07ff⟩,
   ⟨0xdfff, 0xdfff, 0x21707ff, 0x27c07ff⟩, ⟨0xdfff, 0xdfff, 0x21707ff, 0x27d07ff⟩,
   ⟨0xdfff, 0xdfff, 0x21707ff, 0x27e07ff⟩, ⟨0xdfff, 0xdfff, 0x21707ff, 0x27f07ff⟩]

def marikoCpuUvHigh : List MarikoCpuUvEntry :=
  [⟨0x0, 0xffff, 0, 0⟩, ⟨0x0, 0xffdf, 0, 0x27207ff⟩, ⟨0x0, 0xffdf, 0, 0x27307ff⟩, ⟨0x0, 0xffdf, 0, 0x27407ff⟩,
   ⟨0x0, 0xffdf, 0, 0x27707ff⟩, ⟨0x0, 0xffdf, 0, 0x27807ff⟩, ⟨0x0, 0xdfff, 0, 0x27b07ff⟩, ⟨0x0, 0xdfff, 0, 0x27c07ff⟩,
   ⟨0x0, 0xdfff, 0, 0x27d07ff⟩, ⟨0x0, 0xdfff, 0, 0x27e07ff⟩, ⟨0x0, 0xdfff, 0, 0x27f07ff⟩, ⟨0x0, 0xdfff, 0, 0x27f07ff⟩]

/-! ## Registers -/

/-- `CL_DVFS_TUNE0_0` and `CL_DVFS_TUNE1_0` -/
structure DfllTune where
  tune0 : ℕ
  tune1 : ℕ
deriving DecidableEq

structure DfllState where
  cpuHz : ℕ
  tune : DfllTune
deriving DecidableEq

def MarikoCpuUvEntry.low (e : MarikoCpuUvEntry) : DfllTune := ⟨e.tune0_low, e.tune1_low⟩

def MarikoCpuUvEntry.high (e : MarikoCpuUvEntry) : DfllTune := ⟨e.tune0_high, e.tune1_high⟩

namespace DfllState

def writeTune (s : DfllState) (tune : DfllTune) : DfllState := { s with tune := tune }

/-- `if (levelLow)`; a level behind the table has no defined result -/
def installLow (levelLow : ℕ) (s : DfllState) : Option DfllState :=
  if levelLow ≠ 0 then (marikoCpuUvLow[levelLow - 1]?).map fun e => s.writeTune e.low else some s

/-- `if (levelHigh)` -/
def installHigh (levelHigh : ℕ) (s : DfllState) : Option DfllState :=
  if levelHigh ≠ 0 then (marikoCpuUvHigh[levelHigh - 1]?).map fun e => s.writeTune e.high else some s

/-- `SetDfllTunings` -/
def setDfllTunings (soc : HocClkSocType) (levelLow levelHigh tbreakPoint : ℕ) (s : DfllState) : Option DfllState :=
  match soc with
  | .mariko =>
    if s.cpuHz < tbreakPoint ∧ (levelLow ≠ 0 ∨ levelHigh ≠ 0) then s.installLow levelLow
    else (s.installLow levelLow).bind fun s => s.installHigh levelHigh
  | .erista => (eristaCpuUvTable[levelLow]?).map fun e => s.writeTune ⟨e.tune0, e.tune1⟩

end DfllState

/-- `CalculateTbreak` -/
def calculateTbreak (soc : HocClkSocType) (table : ℕ) : ℕ :=
  match soc with
  | .erista => 1581000000
  | .mariko => if table = 3 then 1683000000 else 1581000000

namespace DfllState

/-- `HandleCpuUv`; the configured values become `u32` -/
def handleCpuUv (soc : HocClkSocType) (c : Config) (s : DfllState) : Option DfllState :=
  match soc with
  | .erista => s.setDfllTunings .erista (c.getConfigValue .eristaCpuUV % 2 ^ 32) 0 1581000000
  | .mariko =>
    s.setDfllTunings .mariko (c.getConfigValue .marikoCpuUVLow % 2 ^ 32) (c.getConfigValue .marikoCpuUVHigh % 2 ^ 32)
      (calculateTbreak .mariko (c.getConfigValue .tableConf % 2 ^ 32))

/-- a new CPU clock, and what PCV makes of the registers -/
def changeClock (retune : ℕ → ℕ → DfllTune → DfllTune) (hz : ℕ) (s : DfllState) : DfllState :=
  ⟨hz, retune s.cpuHz hz s.tune⟩

/-- `SetHz` of the CPU: the rate is set twice ("Voltage bug workaround") -/
def setHz (retune : ℕ → ℕ → DfllTune → DfllTune) (soc : HocClkSocType) (c : Config) (hz : ℕ) (s : DfllState) :
    Option DfllState :=
  let s := (s.changeClock retune hz).changeClock retune hz
  if c.getConfigValue .liveCpuUv ≠ 0 then s.handleCpuUv soc c else some s

end DfllState

inductive DfllEvent where
  /-- a clock change that is not the sysmodule's -/
  | clock (hz : ℕ)
  | setHz (c : Config) (hz : ℕ)
  | setDfllTunings (levelLow levelHigh tbreakPoint : ℕ)

def dfllStep (retune : ℕ → ℕ → DfllTune → DfllTune) (soc : HocClkSocType) (s : DfllState) : DfllEvent → Option DfllState
  | .clock hz => some (s.changeClock retune hz)
  | .setHz c hz => s.setHz retune soc c hz
  | .setDfllTunings levelLow levelHigh tbreakPoint => s.setDfllTunings soc levelLow levelHigh tbreakPoint

/-! ## What a call writes -/

namespace DfllState

theorem installLow_zero (s : DfllState) : s.installLow 0 = some s := rfl

theorem installHigh_zero (s : DfllState) : s.installHigh 0 = some s := rfl

theorem installLow_of_ne {levelLow : ℕ} (h : levelLow ≠ 0) (s : DfllState) :
    s.installLow levelLow = (marikoCpuUvLow[levelLow - 1]?).map fun e => s.writeTune e.low := if_pos h

theorem installHigh_of_ne {levelHigh : ℕ} (h : levelHigh ≠ 0) (s : DfllState) :
    s.installHigh levelHigh = (marikoCpuUvHigh[levelHigh - 1]?).map fun e => s.writeTune e.high := if_pos h

/-- the registers before a level is written do not matter -/
theorem installLow_writeTune {levelLow : ℕ} (h : levelLow ≠ 0) (s : DfllState) (tune : DfllTune) :
    (s.writeTune tune).installLow levelLow = s.installLow levelLow := by
  rw [installLow_of_ne h, installLow_of_ne h]
  rfl

theorem installHigh_writeTune {levelHigh : ℕ} (h : levelHigh ≠ 0) (s : DfllState) (tune : DfllTune) :
    (s.writeTune tune).installHigh levelHigh = s.installHigh levelHigh := by
  rw [installHigh_of_ne h, installHigh_of_ne h]
  rfl

theorem setDfllTunings_below {s : DfllState} {levelLow levelHigh tbreakPoint : ℕ} (hhz : s.cpuHz < tbreakPoint)
    (hlevel : levelLow ≠ 0 ∨ levelHigh ≠ 0) :
    s.setDfllTunings .mariko levelLow levelHigh tbreakPoint = s.installLow levelLow := if_pos ⟨hhz, hlevel⟩

theorem setDfllTunings_from {s : DfllState} {levelLow levelHigh tbreakPoint : ℕ} (hhz : tbreakPoint ≤ s.cpuHz) :
    s.setDfllTunings .mariko levelLow levelHigh tbreakPoint =
      (s.installLow levelLow).bind fun s => s.installHigh levelHigh := if_neg fun h => absurd h.1 (not_lt.2 hhz)

/-- a call that sets the registers sets both, whatever they held -/
theorem setDfllTunings_overwrites {s : DfllState} {levelLow levelHigh tbreakPoint : ℕ}
    (h : levelLow ≠ 0 ∨ levelHigh ≠ 0 ∧ tbreakPoint ≤ s.cpuHz) (tune : DfllTune) :
    (s.writeTune tune).setDfllTunings .mariko levelLow levelHigh tbreakPoint =
      s.setDfllTunings .mariko levelLow levelHigh tbreakPoint := by
  by_cases hlow : levelLow = 0
  · obtain ⟨hhigh, hhz⟩ : levelHigh ≠ 0 ∧ tbreakPoint ≤ s.cpuHz := h.resolve_left fun h => h hlow
    have hhz' : tbreakPoint ≤ (s.writeTune tune).cpuHz := hhz
    rw [setDfllTunings_from hhz, setDfllTunings_from hhz', hlow, installLow_zero, installLow_zero]
    exact installHigh_writeTune hhigh s tune
  · by_cases hhz : s.cpuHz < tbreakPoint
    · have hhz' : (s.writeTune tune).cpuHz < tbreakPoint := hhz
      rw [setDfllTunings_below hhz (Or.inl hlow), setDfllTunings_below hhz' (Or.inl hlow)]
      exact installLow_writeTune hlow s tune
    · have hhz' : tbreakPoint ≤ (s.writeTune tune).cpuHz := not_lt.1 hhz
      rw [setDfllTunings_from (not_lt.1 hhz), setDfllTunings_from hhz', installLow_writeTune hlow]

/-- any other call changes nothing, also where the code behind the returns would restore the registers -/
theorem setDfllTunings_unwritten {s : DfllState} {levelHigh tbreakPoint : ℕ}
    (h : levelHigh = 0 ∨ s.cpuHz < tbreakPoint) : s.setDfllTunings .mariko 0 levelHigh tbreakPoint = some s := by
  by_cases hhigh : levelHigh = 0
  · by_cases hhz : s.cpuHz < tbreakPoint
    · rw [setDfllTunings, if_neg (fun hc => hc.2.elim (fun h => h rfl) fun h => h hhigh), hhigh]
      rfl
    · rw [setDfllTunings_from (not_lt.1 hhz), hhigh]
      rfl
  · rw [setDfllTunings_below (h.resolve_left hhigh) (Or.inr hhigh), installLow_zero]

/-- a low level alone is installed at any clock -/
theorem setDfllTunings_low {levelLow : ℕ} (h : levelLow ≠ 0) (s : DfllState) :
    s.setDfllTunings .mariko levelLow 0 0 = (marikoCpuUvLow[levelLow - 1]?).map fun e => s.writeTune e.low := by
  rw [setDfllTunings_from (Nat.zero_le _), installLow_of_ne h]
  cases marikoCpuUvLow[levelLow - 1]? <;> rfl

end DfllState

/-! ## Histories -/

/-- a row of the low table is none of the high table -/
theorem low_ne_high : ∀ e ∈ marikoCpuUvLow, ∀ f ∈ marikoCpuUvHigh, e.low ≠ f.high := by
  decide

/-- below the break point a call with a low level leaves a row of the low table -/
theorem setDfllTunings_below_low {s t : DfllState} {levelLow levelHigh tbreakPoint : ℕ} (hlow : levelLow ≠ 0)
    (hhz : s.cpuHz < tbreakPoint) (h : s.setDfllTunings .mariko levelLow levelHigh tbreakPoint = some t) :
    ∃ e ∈ marikoCpuUvLow, t.tune = e.low := by
  rw [DfllState.setDfllTunings_below hhz (Or.inl hlow), DfllState.installLow_of_ne hlow, Option.map_eq_some_iff] at h
  obtain ⟨e, he, rfl⟩ := h
  exact ⟨e, List.mem_of_getElem? he, rfl⟩

section

variable (retune : ℕ → ℕ → DfllTune → DfllTune) (boot : DfllState) (levelLow levelHigh tbreakPoint clock : ℕ)

/-- the registers after the call are the same behind every history that ends at this clock, and below the break point
none leaves a row of the high table in them -/
structure TunedByState : Prop where
  historyFree : HistoryFree (dfllStep retune .mariko) (fun s => s.cpuHz = clock)
    (fun s => (s.setDfllTunings .mariko levelLow levelHigh tbreakPoint).map DfllState.tune) boot
  highGone : clock < tbreakPoint → ∀ es s t, run (dfllStep retune .mariko) boot es = some s → s.cpuHz = clock →
    s.setDfllTunings .mariko levelLow levelHigh tbreakPoint = some t → ∀ f ∈ marikoCpuUvHigh, t.tune ≠ f.high

variable {retune boot levelLow levelHigh tbreakPoint clock}

theorem tunedByState_of (h : levelLow ≠ 0 ∨ levelHigh ≠ 0 ∧ tbreakPoint ≤ clock) :
    TunedByState retune boot levelLow levelHigh tbreakPoint clock where
  historyFree := by
    refine HistoryFree.of_const ?_ boot
    intro s t hs ht
    have hst : s = t.writeTune s.tune := by
      cases s
      cases t
      dsimp only at hs ht
      rw [hs, ht]
      rfl
    rw [← ht] at h
    rw [hst, DfllState.setDfllTunings_overwrites h]
  highGone hhz es s t _ hs hcall f hf := by
    have hlow : levelLow ≠ 0 := h.elim id fun h => absurd hhz (not_lt.2 h.2)
    obtain ⟨e, he, htune⟩ := setDfllTunings_below_low hlow (hs ▸ hhz) hcall
    rw [htune]
    exact low_ne_high e he f hf

/-- the history that installs a low level at a clock -/
theorem run_low (retune : ℕ → ℕ → DfllTune → DfllTune) (boot : DfllState) (clock : ℕ) {level : ℕ} (h : level ≠ 0)
    {e : MarikoCpuUvEntry} (he : marikoCpuUvLow[level - 1]? = some e) :
    run (dfllStep retune .mariko) boot [.clock clock, .setDfllTunings level 0 0] = some ⟨clock, e.low⟩ := by
  rw [run_cons, dfllStep, Option.bind_some, run_cons, dfllStep, DfllState.setDfllTunings_low h, he]
  rfl

/-- **Exactly when the registers are a function of the call and the clock.** Any other call writes nothing and leaves
what earlier calls installed. -/
theorem tunedByState_iff : TunedByState retune boot levelLow levelHigh tbreakPoint clock ↔
    levelLow ≠ 0 ∨ levelHigh ≠ 0 ∧ tbreakPoint ≤ clock := by
  refine ⟨?_, tunedByState_of⟩
  intro h
  by_contra hcond
  rw [not_or, not_not, not_and_or, not_not, not_le] at hcond
  obtain ⟨rfl, hkeep⟩ := hcond
  -- the first and the last level differ, and the call leaves either
  have hfirst := run_low retune boot clock one_ne_zero rfl
  have hlast := run_low retune boot clock (by decide : (12 : ℕ) ≠ 0) rfl
  have hsame := h.historyFree _ _ _ _ hfirst hlast rfl rfl
  dsimp only at hsame
  rw [DfllState.setDfllTunings_unwritten hkeep, DfllState.setDfllTunings_unwritten hkeep, Option.map_some,
    Option.map_some, Option.some.injEq] at hsame
  have hne : (⟨0xffa0, 0x21107ff⟩ : DfllTune) ≠ ⟨0xdfff, 0x21707ff⟩ := by decide
  exact hne hsame

end

/-- An undervolt switched off stays in the registers: the same call at the same clock leaves the boot values without it,
row 4 of the high table behind it. -/
theorem tuning_survives_reset :
    let boot : DfllState := ⟨1785000000, ⟨0xCFFF, 0xFF072201⟩⟩
    run (dfllStep (fun _ _ tune => tune) .mariko) boot [.setDfllTunings 0 0 1581000000] = some boot ∧
    run (dfllStep (fun _ _ tune => tune) .mariko) boot [.setDfllTunings 0 4 1581000000, .setDfllTunings 0 0 1581000000] =
      some ⟨1785000000, ⟨0xffdf, 0x27407ff⟩⟩ ∧
    ¬ TunedByState (fun _ _ tune => tune) boot 0 0 1581000000 1785000000 := by
  refine ⟨by decide, by decide, ?_⟩
  intro h
  have hsame := h.historyFree [] [.setDfllTunings 0 4 1581000000] _ _ rfl rfl rfl rfl
  revert hsame
  decide

/-- with a high level only, a clock that drops below the break point keeps the high tuning -/
theorem tuning_survives_crossing :
    run (dfllStep (fun _ _ tune => tune) .mariko) ⟨1785000000, ⟨0xCFFF, 0xFF072201⟩⟩
      [.setDfllTunings 0 4 1581000000, .clock 1020000000, .setDfllTunings 0 4 1581000000] =
      some ⟨1020000000, ⟨0xffdf, 0x27407ff⟩⟩ := by
  decide

/-! ## The board's clock -/

theorem cpuHz_installLow {s t : DfllState} {levelLow : ℕ} (h : s.installLow levelLow = some t) : t.cpuHz = s.cpuHz := by
  by_cases hlow : levelLow = 0
  · rw [hlow, DfllState.installLow_zero] at h
    rw [Option.some.inj h]
  · rw [DfllState.installLow_of_ne hlow, Option.map_eq_some_iff] at h
    obtain ⟨e, -, rfl⟩ := h
    rfl

theorem cpuHz_installHigh {s t : DfllState} {levelHigh : ℕ} (h : s.installHigh levelHigh = some t) :
    t.cpuHz = s.cpuHz := by
  by_cases hhigh : levelHigh = 0
  · rw [hhigh, DfllState.installHigh_zero] at h
    rw [Option.some.inj h]
  · rw [DfllState.installHigh_of_ne hhigh, Option.map_eq_some_iff] at h
    obtain ⟨e, -, rfl⟩ := h
    rfl

/-- a call leaves the clock alone -/
theorem cpuHz_setDfllTunings {soc : HocClkSocType} {s t : DfllState} {levelLow levelHigh tbreakPoint : ℕ}
    (h : s.setDfllTunings soc levelLow levelHigh tbreakPoint = some t) : t.cpuHz = s.cpuHz := by
  cases soc with
  | mariko =>
    by_cases hlow : s.cpuHz < tbreakPoint ∧ (levelLow ≠ 0 ∨ levelHigh ≠ 0)
    · rw [DfllState.setDfllTunings, if_pos hlow] at h
      exact cpuHz_installLow h
    · rw [DfllState.setDfllTunings, if_neg hlow, Option.bind_eq_some_iff] at h
      obtain ⟨u, hu, ht⟩ := h
      rw [cpuHz_installHigh ht, cpuHz_installLow hu]
  | erista =>
    rw [DfllState.setDfllTunings, Option.map_eq_some_iff] at h
    obtain ⟨e, -, rfl⟩ := h
    rfl

/-- **The clock is the one the board layer has**, with or without a live undervolt. -/
theorem setHz_refines {P : Platform} {retune : ℕ → ℕ → DfllTune → DfllTune} {c : Config} {hz : ℕ} {s t : DfllState}
    (h : s.setHz retune P.soc c hz = some t) (b : Board) : t.cpuHz = (b.setHz P .cpu hz).hw.cpuHz := by
  rw [Board.setHz_cpu_cpuHz]
  unfold DfllState.setHz at h
  dsimp only at h
  by_cases hlive : c.getConfigValue .liveCpuUv ≠ 0
  · rw [if_pos hlive] at h
    unfold DfllState.handleCpuUv at h
    cases hsoc : P.soc with
    | mariko =>
      rw [hsoc] at h
      exact cpuHz_setDfllTunings h
    | erista =>
      rw [hsoc] at h
      exact cpuHz_setDfllTunings h
  · rw [if_neg hlive] at h
    rw [← Option.some.inj h]
    rfl

end RyazhaClk
