/-
The undervolt levels the store accepts, and the tables `SetDfllTunings` looks them up in. The store takes any value for the
three levels; four ways lead from there to the tables, none with a check of its own.

- `setDfllTunings_isSome_iff`: the levels a single call can look up.
- `cpuUvInRange_iff`: on each way every access is within its table exactly when the levels fit at the clock the way leaves,
  or the way does not tune.
- `level_behind_table`: a level of 6 from the file is looked up in the table of six rows.
-/
import RyazhaClk.Sysmodule.DfllTunings
import RyazhaClk.Sysmodule.System

namespace RyazhaClk

/-! ## The ways to the tables -/

inductive CpuUvFault where
  /-- an access behind a table -/
  | outOfTable
  /-- `Unknown apm configuration` -/
  | unknownConfiguration
deriving DecidableEq

/-- an access behind a table has no result -/
def DfllState.checked : Option DfllState → Except CpuUvFault DfllState
  | some s => .ok s
  | none => .error .outOfTable

section Paths

variable (P : Platform) (env : Env) (retune : ℕ → ℕ → DfllTune → DfllTune) (requestHz : ℕ) (c : Config)

/-- `ResetToStockCpu`; `requestHz` is the clock the system makes of a request before 9.0.0 -/
def DfllState.resetToStockCpu (s : DfllState) : Except CpuUvFault DfllState :=
  if P.hos9 then
    match findApmConfiguration env.apmMode with
    | some apm => checked (s.setHz retune P.soc c (apm.hz .cpu))
    | none => .error .unknownConfiguration
  else .ok (s.changeClock retune requestHz)

/-- `SetDfllTunings` under `LiveCpuUv`, behind a reset -/
def DfllState.tuneLive (s : DfllState) : Except CpuUvFault DfllState :=
  if c.getConfigValue .liveCpuUv ≠ 0 then checked (s.handleCpuUv P.soc c) else .ok s

inductive CpuUvPath where
  | setHz (hz : ℕ)
  | handleCpuUv
  /-- `HandleFreqReset` of the CPU -/
  | handleFreqReset (isBoost : Bool)
  | resetToStockClocks
deriving DecidableEq

namespace CpuUvPath

def run (s : DfllState) : CpuUvPath → Except CpuUvFault DfllState
  | setHz hz => DfllState.checked (s.setHz retune P.soc c hz)
  | handleCpuUv => DfllState.checked (s.handleCpuUv P.soc c)
  | handleFreqReset isBoost =>
    (if !(isBoost || (c.getConfigValue .overwriteBoostMode ≠ 0 && isBoost)) then s.resetToStockCpu P env retune requestHz c
      else .ok s).bind fun s => s.tuneLive P c
  | resetToStockClocks => (s.resetToStockCpu P env retune requestHz c).bind fun s => s.tuneLive P c

/-- no access leaves a table -/
def InRange (s : DfllState) (path : CpuUvPath) : Prop := path.run P env retune requestHz c s ≠ .error .outOfTable

/-- the stock clock of the CPU; none for a configuration that is not known -/
def stockClock : Option ℕ :=
  if P.hos9 then (findApmConfiguration env.apmMode).map fun apm => apm.hz .cpu else some requestHz

/-- the clock the levels are looked up at -/
def clock (s : DfllState) : CpuUvPath → Option ℕ
  | setHz hz => some hz
  | handleCpuUv => some s.cpuHz
  | handleFreqReset isBoost => if isBoost then some s.cpuHz else stockClock P env requestHz
  | resetToStockClocks => stockClock P env requestHz

/-- `HandleCpuUv` looks them up, the others when `LiveCpuUv` is on -/
def Tunes (path : CpuUvPath) : Prop := path = handleCpuUv ∨ c.getConfigValue .liveCpuUv ≠ 0

end CpuUvPath

end Paths

/-- the configured levels, as `u32`, have rows in the tables that are used at a clock -/
def LevelsFit (soc : HocClkSocType) (c : Config) (hz : ℕ) : Prop :=
  match soc with
  | .erista => c.getConfigValue .eristaCpuUV % 2 ^ 32 < eristaCpuUvTable.length
  | .mariko => c.getConfigValue .marikoCpuUVLow % 2 ^ 32 ≤ marikoCpuUvLow.length ∧
      (hz < calculateTbreak .mariko (c.getConfigValue .tableConf % 2 ^ 32) ∨
        c.getConfigValue .marikoCpuUVHigh % 2 ^ 32 ≤ marikoCpuUvHigh.length)

/-! ## One call -/

variable {soc : HocClkSocType} {c : Config} {s t : DfllState} {levelLow levelHigh tbreakPoint hz : ℕ}

theorem isSome_row_iff {α : Type*} {l : List α} {i : ℕ} : (l[i]?).isSome ↔ i < l.length := by
  rw [Option.isSome_iff_ne_none, ne_eq, List.getElem?_eq_none_iff, not_le]

theorem isSome_level_iff {α : Type*} {l : List α} {level : ℕ} (h : level ≠ 0) :
    (l[level - 1]?).isSome ↔ level ≤ l.length := by
  rw [isSome_row_iff]
  omega

theorem installLow_isSome_iff : (s.installLow levelLow).isSome ↔ levelLow ≤ marikoCpuUvLow.length := by
  by_cases hlow : levelLow = 0
  · rw [hlow, DfllState.installLow_zero]
    simp
  · rw [DfllState.installLow_of_ne hlow, Option.isSome_map, isSome_level_iff hlow]

theorem installHigh_isSome_iff : (s.installHigh levelHigh).isSome ↔ levelHigh ≤ marikoCpuUvHigh.length := by
  by_cases hhigh : levelHigh = 0
  · rw [hhigh, DfllState.installHigh_zero]
    simp
  · rw [DfllState.installHigh_of_ne hhigh, Option.isSome_map, isSome_level_iff hhigh]

/-- **The levels of a call** that have rows, for any clock and break point. -/
theorem setDfllTunings_isSome_iff : (s.setDfllTunings .mariko levelLow levelHigh tbreakPoint).isSome ↔
    levelLow ≤ marikoCpuUvLow.length ∧ (s.cpuHz < tbreakPoint ∨ levelHigh ≤ marikoCpuUvHigh.length) := by
  by_cases hhz : s.cpuHz < tbreakPoint
  · by_cases hlevel : levelLow ≠ 0 ∨ levelHigh ≠ 0
    · rw [DfllState.setDfllTunings_below hhz hlevel, installLow_isSome_iff]
      simp [hhz]
    · rw [not_or, not_not, not_not] at hlevel
      obtain ⟨rfl, rfl⟩ := hlevel
      rw [DfllState.setDfllTunings_unwritten (Or.inl rfl)]
      simp
  · rw [DfllState.setDfllTunings_from (not_lt.1 hhz)]
    simp only [hhz, false_or]
    rw [← installLow_isSome_iff (s := s)]
    cases s.installLow levelLow with
    | none => simp
    | some u => simp [installHigh_isSome_iff]

theorem handleCpuUv_isSome_iff : (s.handleCpuUv soc c).isSome ↔ LevelsFit soc c s.cpuHz := by
  cases soc with
  | mariko => exact setDfllTunings_isSome_iff
  | erista => rw [DfllState.handleCpuUv, DfllState.setDfllTunings, Option.isSome_map, isSome_row_iff, LevelsFit]

/-! ## Every way -/

section Paths

variable {P : Platform} {env : Env} {retune : ℕ → ℕ → DfllTune → DfllTune} {requestHz : ℕ}

theorem checked_inRange_iff {r : Option DfllState} : DfllState.checked r ≠ .error .outOfTable ↔ r.isSome := by
  cases r <;> simp [DfllState.checked]

theorem checked_ok_iff {r : Option DfllState} : DfllState.checked r = .ok t ↔ r = some t := by
  cases r <;> simp [DfllState.checked]

theorem bind_inRange_iff {r : Except CpuUvFault DfllState} {f : DfllState → Except CpuUvFault DfllState} :
    r.bind f ≠ .error .outOfTable ↔ r ≠ .error .outOfTable ∧ ∀ t, r = .ok t → f t ≠ .error .outOfTable := by
  cases r <;> simp [Except.bind]

theorem setHz_isSome_iff :
    (s.setHz retune soc c hz).isSome ↔ (c.getConfigValue .liveCpuUv ≠ 0 → LevelsFit soc c hz) := by
  unfold DfllState.setHz
  dsimp only
  by_cases hlive : c.getConfigValue .liveCpuUv ≠ 0
  · rw [if_pos hlive, handleCpuUv_isSome_iff]
    simp only [hlive, ne_eq, not_false_eq_true, forall_const]
    rfl
  · simp [hlive]

/-- the clock is the one that was set -/
theorem cpuHz_setHz (h : s.setHz retune soc c hz = some t) : t.cpuHz = hz := by
  unfold DfllState.setHz at h
  dsimp only at h
  split_ifs at h with hlive
  · unfold DfllState.handleCpuUv at h
    cases soc with
    | mariko => exact cpuHz_setDfllTunings h
    | erista => exact cpuHz_setDfllTunings h
  · rw [← Option.some.inj h]
    rfl

theorem tuneLive_inRange_iff :
    s.tuneLive P c ≠ .error .outOfTable ↔ (c.getConfigValue .liveCpuUv ≠ 0 → LevelsFit P.soc c s.cpuHz) := by
  unfold DfllState.tuneLive
  by_cases hlive : c.getConfigValue .liveCpuUv ≠ 0
  · rw [if_pos hlive, checked_inRange_iff, handleCpuUv_isSome_iff]
    simp [hlive]
  · simp [hlive]

/-- a reset, and what is tuned behind it -/
theorem reset_inRange_iff :
    (s.resetToStockCpu P env retune requestHz c).bind (fun s => s.tuneLive P c) ≠ .error .outOfTable ↔
      (c.getConfigValue .liveCpuUv ≠ 0 → ∀ hz, CpuUvPath.stockClock P env requestHz = some hz → LevelsFit P.soc c hz) := by
  unfold DfllState.resetToStockCpu CpuUvPath.stockClock
  rw [bind_inRange_iff]
  split_ifs with hhos
  · cases hapm : findApmConfiguration env.apmMode with
    | none => simp
    | some apm =>
      simp only [checked_inRange_iff, setHz_isSome_iff, checked_ok_iff, tuneLive_inRange_iff, Option.map_some,
        Option.some.injEq, forall_eq']
      refine and_iff_left_of_imp fun h t ht hlive => ?_
      rw [cpuHz_setHz ht]
      exact h hlive
  · simp only [ne_eq, reduceCtorEq, not_false_eq_true, Except.ok.injEq, forall_eq', true_and, Option.some.injEq]
    exact tuneLive_inRange_iff

/-- **Undervolt levels in range**: on each way to the tables, exactly when the configured levels fit at the clock the way
leaves, or it does not tune. -/
theorem cpuUvInRange_iff (P : Platform) (env : Env) (retune : ℕ → ℕ → DfllTune → DfllTune) (requestHz : ℕ) (c : Config)
    (s : DfllState) (path : CpuUvPath) : path.InRange P env retune requestHz c s ↔
      (path.Tunes c → ∀ hz, path.clock P env requestHz s = some hz → LevelsFit P.soc c hz) := by
  unfold CpuUvPath.InRange CpuUvPath.Tunes
  cases path with
  | setHz hz =>
    rw [CpuUvPath.run, checked_inRange_iff, setHz_isSome_iff]
    simp [CpuUvPath.clock]
  | handleCpuUv =>
    rw [CpuUvPath.run, checked_inRange_iff, handleCpuUv_isSome_iff]
    simp [CpuUvPath.clock]
  | handleFreqReset isBoost =>
    cases isBoost with
    | true =>
      have hkeep : CpuUvPath.run P env retune requestHz c s (.handleFreqReset true) = s.tuneLive P c := rfl
      rw [hkeep, tuneLive_inRange_iff]
      simp [CpuUvPath.clock]
    | false =>
      have hreset : CpuUvPath.run P env retune requestHz c s (.handleFreqReset false) =
          (s.resetToStockCpu P env retune requestHz c).bind fun s => s.tuneLive P c := by
        simp [CpuUvPath.run]
      rw [hreset, reset_inRange_iff]
      simp [CpuUvPath.clock]
  | resetToStockClocks =>
    rw [CpuUvPath.run, reset_inRange_iff]
    simp [CpuUvPath.clock]

instance (path : CpuUvPath) : Decidable (path.InRange P env retune requestHz c s) := inferInstanceAs (Decidable (_ ≠ _))

end Paths

/-- the file sets level 6, the store takes it, and the next clock looks up the seventh row of six -/
theorem level_behind_table :
    let c := (Config.initial.refresh ⟨2, [⟨"values", "erista_cpu_uv", "6"⟩, ⟨"values", "live_cpu_uv", "1"⟩]⟩).2
    hocclkValidConfigValue .eristaCpuUV 6 = true ∧ c.getConfigValue .eristaCpuUV = 6 ∧
      ¬ CpuUvPath.InRange { sampleConsole with soc := .erista } sampleEnv (fun _ _ tune => tune) 1020000000 c
        ⟨1020000000, ⟨0xFFEAD0FF, 0⟩⟩ (.setHz 1785000000) := by
  decide +kernel

end RyazhaClk
