/-
The board layer (`board_freq.cpp`, `board_freq.hpp`, `board_volt.cpp`): the clocks as the sysmodule reads and writes
them, the resets to the stock rates of the current APM configuration, and the GPU voltage floor it installs in PCV.

The hardware is the three PCV rates, the middle frequency injected behind PCV's back (`currentInjectedHz`), and the
floor the sysmodule believes installed (`ramVmin`). Every operation is logged with the hardware it leaves, so that
"between two hardware operations" is a statement about the log. PCV keeps the rate it is asked for. Before HOS 9.0.0 a
reset is a request to the APM service; what the service does to the clocks then arrives as a change of the environment.
The DFLL tuning registers, which follow the CPU clock, are not part of this state.

- `setHz_gpu_view`: a GPU rate is read back as written, also through the injected frequency.
- `resetToStockModule_some`: what a reset does from HOS 9.0.0 on.
- `gpuVminFor_low`: no floor is asked for up to 1600 MHz.
-/
import Mathlib.Tactic
import RyazhaClk.Sysmodule.FreqTable

namespace RyazhaClk

/-! ## Environment and hardware -/

/-- what does not change while the sysmodule runs -/
structure Platform where
  soc : HocClkSocType
  console : HocClkConsoleType
  /-- `hosversionAtLeast(9,0,0)` -/
  hos9 : Bool
  /-- `GetGpuSpeedoBracket` -/
  bracket : ℕ
  gFreqTable : HocClkModule → FreqTable

/-- the readings the sysmodule takes; system services it asserts on are taken to answer -/
structure Env where
  /-- `apmExtGetCurrentPerformanceConfiguration` -/
  apmMode : ℕ
  /-- `GetCurrentApplicationId` -/
  applicationId : ℕ
  /-- `GetProfile` -/
  profile : HocClkProfile
  /-- `GetPowerMw(HocClkPowerSensor_Avg)` -/
  powerMw : ℤ
  /-- `tmp451TempSoc` -/
  tempSocMilli : ℤ
  /-- `GetRealHz(HocClkModule_GPU)` -/
  realGpuHz : ℕ
  /-- `display::GetRate` -/
  displayHz : ℕ
  /-- `GetPartLoad(HocClkPartLoad_CPUMax)` -/
  cpuLoad : ℕ
  /-- `GetPartLoad(HocClkPartLoad_GPU)` -/
  gpuLoad : ℕ
  /-- `GetSaltyNXFPS` -/
  fps : ℕ
  /-- `isApplicationOutOfFocus` fails or answers true -/
  outOfFocus : Bool
  /-- the write of `PcvHijackGpuVolts` into PCV succeeds -/
  hijackOk : Bool
  /-- `clockManager::gRunning`, set by `main` and by the exit command -/
  gRunning : Bool
  file : ConfigFile

structure Hw where
  cpuHz : ℕ
  gpuHz : ℕ
  memHz : ℕ
  currentInjectedHz : ℕ
  ramVmin : ℕ
deriving DecidableEq

namespace Hw

/-- the middle frequencies of Mariko, set through gm20b rather than PCV -/
def useGm20b (soc : HocClkSocType) (hz : ℕ) : Bool :=
  soc = .mariko ∧ hz % 38400000 = 0 ∧ hz % 76800000 ≠ 0 ∧ hz < 1228800000

/-- the clocks after a rate has been set; PCV gets the next multiple of 76.8 MHz for a middle frequency -/
def set (soc : HocClkSocType) (module : HocClkModule) (hz : ℕ) (hw : Hw) : Hw :=
  match module with
  | .cpu => { hw with cpuHz := hz }
  | .gpu =>
    if useGm20b soc hz then
      { hw with gpuHz := (hz + 76800000 - 1) / 76800000 * 76800000, currentInjectedHz := hz }
    else { hw with gpuHz := hz, currentInjectedHz := 0 }
  | .mem => { hw with memHz := hz }
  | .governor | .display => hw

/-- the GPU clock as `GetHz` answers it: the injected frequency, if there is one -/
def gpuView (hw : Hw) : ℕ := if hw.currentInjectedHz ≠ 0 then hw.currentInjectedHz else hw.gpuHz

end Hw

inductive HwOp where
  | setHz (module : HocClkModule) (hz : ℕ)
  /-- `apmExtSysRequestPerformanceMode` -/
  | apmRequest
  /-- `PcvHijackGpuVolts` past its early return -/
  | hijack (vmin : ℕ)
deriving DecidableEq

/-- the hardware and the log of operations, each with the hardware it leaves -/
structure Board where
  hw : Hw
  trace : List (HwOp × Hw)
deriving DecidableEq

/-! ## The GPU voltage floor -/

def marikoRamTable : List (List ℕ) :=
  [[2133, 2200, 2266, 2300, 2366, 2400, 2433, 2466, 2533, 2566, 2600, 2633, 2700, 2733, 2766, 2833, 2866, 2900, 2933,
    3033, 3066, 3100],
   [2300, 2366, 2433, 2466, 2533, 2566, 2633, 2700, 2733, 2800, 2833, 2900, 2933, 2966, 3033, 3066, 3100, 3133, 3166,
    3200, 3233, 3266],
   [2433, 2466, 2533, 2566, 2600, 2666, 2766, 2800, 2833, 2866, 2933, 2966, 3033, 3066, 3100, 3133, 3166, 3200, 3233,
    3300, 3333, 3366],
   [2500, 2533, 2600, 2633, 2666, 2733, 2800, 2866, 2900, 2966, 3033, 3100, 3166, 3200, 3233, 3266, 3300, 3333, 3366,
    3400, 3400, 3400]]

def gpuVoltArray : List ℕ :=
  [590, 600, 610, 620, 630, 640, 650, 660, 670, 680, 690, 700, 710, 720, 730, 740, 750, 760, 770, 780, 790, 800]

def eristaRamFreqs : List ℕ :=
  [1733, 1800, 1866, 1920, 1958, 1996, 2035, 2073, 2112, 2131, 2150, 2169, 2188, 2227, 2265, 2304, 2342, 2380, 2400]

/-- the voltage column of each bracket of the Erista table -/
def eristaRamVolts : List (List ℕ) :=
  [[725, 730, 735, 740, 745, 750, 755, 760, 765, 770, 775, 780, 785, 790, 795, 800, 805, 810, 815],
   [715, 720, 725, 730, 735, 740, 745, 750, 755, 760, 765, 770, 775, 780, 785, 790, 795, 800, 805],
   [705, 710, 715, 720, 725, 730, 735, 740, 745, 750, 755, 760, 765, 770, 775, 780, 785, 790, 795],
   [695, 700, 705, 710, 715, 720, 725, 730, 735, 740, 745, 750, 755, 760, 765, 770, 775, 780, 785]]

/-- the voltage of the first row that reaches the frequency, else of the last row -/
def rowVolt (rows : List (ℕ × ℕ)) (freqMhz : ℕ) : ℕ :=
  match rows.find? (fun r => freqMhz ≤ r.1) with
  | some r => r.2
  | none => (rows.getLast?.map Prod.snd).getD 800

/-- the ramp of Mariko between 1633 MHz and the first entry of the bracket, in steps of 5 mV -/
def rampVolt (freqMhz bracket bracketStart : ℕ) : ℕ :=
  let rampStartVolt := if bracket = 0 then 535 else 525
  let rampSpan := 590 - rampStartVolt
  let raw := rampStartVolt + ((freqMhz - 1633) * rampSpan) / (bracketStart - 1633)
  let volt := ((raw + 2) / 5) * 5
  min (max volt rampStartVolt) 590

def getMinimumGpuVmin (soc : HocClkSocType) (freqMhz bracket : ℕ) : ℕ :=
  if freqMhz ≤ 1600 then 0
  else
    let bracket := if 4 ≤ bracket then 0 else bracket
    match soc with
    | .mariko =>
      let row := (marikoRamTable[bracket]?).getD []
      let bracketStart := (row.head?).getD 0
      if 1633 ≤ freqMhz ∧ freqMhz < bracketStart then rampVolt freqMhz bracket bracketStart
      else rowVolt (row.zip gpuVoltArray) freqMhz
    | .erista => rowVolt (eristaRamFreqs.zip ((eristaRamVolts[bracket]?).getD [])) freqMhz

/-- a 64-bit configuration value assigned to an `s32` -/
def toS32 (n : ℕ) : ℤ := if n % 2 ^ 32 < 2 ^ 31 then (n % 2 ^ 32 : ℕ) else (n % 2 ^ 32 : ℕ) - 2 ^ 32

/-- the floor `ApplyGpuDvfs` installs for a memory frequency: the table's value, offset by the configured value but not
below -80, and at most 1000 mV; 0 stays 0 -/
def gpuVminFor (P : Platform) (c : Config) (targetHz : ℕ) : ℕ :=
  let dvfsOffset := max (toS32 (c.getConfigValue .dvfsOffset)) (-80)
  let vmin := getMinimumGpuVmin P.soc (targetHz / 1000000) P.bracket
  min (if vmin ≠ 0 then ((vmin : ℤ) + dvfsOffset).toNat else vmin) 1000

namespace Board

/-! ## Operations -/

def emit (b : Board) (op : HwOp) (hw : Hw) : Board := ⟨hw, b.trace ++ [(op, hw)]⟩

/-- `SetHz`; the governor module has no clock -/
def setHz (P : Platform) (module : HocClkModule) (hz : ℕ) (b : Board) : Board :=
  if module = .governor then b else b.emit (.setHz module hz) (b.hw.set P.soc module hz)

/-- `GetHz`; the governor module has no PCV module of its own and reads the CPU bus -/
def getHz (env : Env) (module : HocClkModule) (b : Board) : ℕ :=
  match module with
  | .display => env.displayHz
  | .gpu => b.hw.gpuView
  | .cpu | .governor => b.hw.cpuHz
  | .mem => b.hw.memHz

/-- `ResetToStockModule`; an unknown APM configuration throws -/
def resetToStockModule (P : Platform) (env : Env) (module : HocClkModule) (b : Board) : Option Board :=
  if P.hos9 then (findApmConfiguration env.apmMode).map fun apm => b.setHz P module (apm.hz module)
  else some (b.emit .apmRequest b.hw)

/-- `ResetToStock` -/
def resetToStock (P : Platform) (env : Env) (b : Board) : Option Board :=
  if P.hos9 then
    (findApmConfiguration env.apmMode).map fun apm =>
      ((b.setHz P .cpu apm.cpu_hz).setHz P .gpu apm.gpu_hz).setHz P .mem apm.mem_hz
  else some (b.emit .apmRequest b.hw)

/-- `ResetToStockDisplay` -/
def resetToStockDisplay (P : Platform) (b : Board) : Board := b.setHz P .display 60

/-- `PcvHijackGpuVolts` -/
def pcvHijackGpuVolts (env : Env) (vmin : ℕ) (b : Board) : Board :=
  if b.hw.ramVmin = vmin then b
  else if env.hijackOk then b.emit (.hijack vmin) { b.hw with ramVmin := vmin }
  else b.emit (.hijack vmin) b.hw

/-! ## Lemmas -/

variable {P : Platform} {env : Env} {b b' : Board}

@[simp] theorem emit_hw (op : HwOp) (hw : Hw) : (b.emit op hw).hw = hw := rfl

@[simp] theorem emit_trace (op : HwOp) (hw : Hw) : (b.emit op hw).trace = b.trace ++ [(op, hw)] := rfl

theorem setHz_hw (m : HocClkModule) (hz : ℕ) : (b.setHz P m hz).hw = b.hw.set P.soc m hz := by
  unfold setHz
  split_ifs with h
  · subst h; rfl
  · rfl

@[simp] theorem setHz_cpu_cpuHz (hz : ℕ) : (b.setHz P .cpu hz).hw.cpuHz = hz := rfl

@[simp] theorem setHz_cpu_memHz (hz : ℕ) : (b.setHz P .cpu hz).hw.memHz = b.hw.memHz := rfl

@[simp] theorem setHz_cpu_gpuView (hz : ℕ) : (b.setHz P .cpu hz).hw.gpuView = b.hw.gpuView := rfl

@[simp] theorem setHz_cpu_ramVmin (hz : ℕ) : (b.setHz P .cpu hz).hw.ramVmin = b.hw.ramVmin := rfl

@[simp] theorem setHz_mem_cpuHz (hz : ℕ) : (b.setHz P .mem hz).hw.cpuHz = b.hw.cpuHz := rfl

@[simp] theorem setHz_mem_memHz (hz : ℕ) : (b.setHz P .mem hz).hw.memHz = hz := rfl

@[simp] theorem setHz_mem_gpuView (hz : ℕ) : (b.setHz P .mem hz).hw.gpuView = b.hw.gpuView := rfl

@[simp] theorem setHz_mem_ramVmin (hz : ℕ) : (b.setHz P .mem hz).hw.ramVmin = b.hw.ramVmin := rfl

@[simp] theorem setHz_display_hw (hz : ℕ) : (b.setHz P .display hz).hw = b.hw := rfl

@[simp] theorem setHz_governor (hz : ℕ) : b.setHz P .governor hz = b := rfl

theorem set_gpu (soc : HocClkSocType) (hz : ℕ) (hw : Hw) : ∃ g i, hw.set soc .gpu hz =
    { hw with gpuHz := g, currentInjectedHz := i } := by
  simp only [Hw.set]
  split_ifs
  · exact ⟨_, _, rfl⟩
  · exact ⟨_, _, rfl⟩

@[simp] theorem setHz_gpu_cpuHz (hz : ℕ) : (b.setHz P .gpu hz).hw.cpuHz = b.hw.cpuHz := by
  obtain ⟨g, i, h⟩ := set_gpu P.soc hz b.hw
  rw [setHz_hw, h]

@[simp] theorem setHz_gpu_memHz (hz : ℕ) : (b.setHz P .gpu hz).hw.memHz = b.hw.memHz := by
  obtain ⟨g, i, h⟩ := set_gpu P.soc hz b.hw
  rw [setHz_hw, h]

@[simp] theorem setHz_gpu_ramVmin (hz : ℕ) : (b.setHz P .gpu hz).hw.ramVmin = b.hw.ramVmin := by
  obtain ⟨g, i, h⟩ := set_gpu P.soc hz b.hw
  rw [setHz_hw, h]

/-- a GPU rate is read back as written, a middle frequency from the injected value -/
@[simp] theorem setHz_gpu_view (hz : ℕ) : (b.setHz P .gpu hz).hw.gpuView = hz := by
  rw [setHz_hw]
  simp only [Hw.set]
  split_ifs with h
  · -- a middle frequency is no multiple of 76.8 MHz, so it is not 0
    have hne : hz ≠ 0 := by
      rintro rfl
      simp [Hw.useGm20b] at h
    simp [Hw.gpuView, hne]
  · simp [Hw.gpuView]

@[simp] theorem hijack_gpuView (vmin : ℕ) : (b.pcvHijackGpuVolts env vmin).hw.gpuView = b.hw.gpuView := by
  unfold pcvHijackGpuVolts
  split_ifs <;> rfl

@[simp] theorem hijack_cpuHz (vmin : ℕ) : (b.pcvHijackGpuVolts env vmin).hw.cpuHz = b.hw.cpuHz := by
  unfold pcvHijackGpuVolts
  split_ifs <;> rfl

@[simp] theorem hijack_memHz (vmin : ℕ) : (b.pcvHijackGpuVolts env vmin).hw.memHz = b.hw.memHz := by
  unfold pcvHijackGpuVolts
  split_ifs <;> rfl

/-- a write that succeeds installs the floor -/
theorem hijack_ramVmin (vmin : ℕ) :
    (b.pcvHijackGpuVolts env vmin).hw.ramVmin = if env.hijackOk then vmin else b.hw.ramVmin := by
  unfold pcvHijackGpuVolts
  by_cases h : b.hw.ramVmin = vmin
  · simp [h]
  · rw [if_neg h]
    split_ifs <;> rfl

/-! ## Requests -/

/-- the rates requested for a module, in order -/
def requests (m : HocClkModule) (b : Board) : List ℕ :=
  b.trace.filterMap fun e => match e.1 with
    | .setHz m' hz => if m' = m then some hz else none
    | _ => none

@[simp] theorem requests_setHz_same {m : HocClkModule} (hm : m ≠ .governor) (hz : ℕ) :
    (b.setHz P m hz).requests m = b.requests m ++ [hz] := by
  simp [requests, setHz, hm]

@[simp] theorem requests_setHz_of_ne {m m' : HocClkModule} (h : m' ≠ m) (hz : ℕ) :
    (b.setHz P m' hz).requests m = b.requests m := by
  unfold requests setHz
  split_ifs
  · rfl
  · simp [h]

@[simp] theorem requests_apmRequest (m : HocClkModule) (hw : Hw) :
    (b.emit .apmRequest hw).requests m = b.requests m := by
  simp [requests]

@[simp] theorem requests_hijack (m : HocClkModule) (vmin : ℕ) :
    (b.pcvHijackGpuVolts env vmin).requests m = b.requests m := by
  unfold pcvHijackGpuVolts
  split_ifs <;> simp [requests]

/-- what a reset to stock does from HOS 9.0.0 on -/
theorem resetToStockModule_some {m : HocClkModule} (h9 : P.hos9 = true)
    (h : b.resetToStockModule P env m = some b') :
    ∃ apm, findApmConfiguration env.apmMode = some apm ∧ b' = b.setHz P m (apm.hz m) := by
  rw [resetToStockModule, if_pos h9, Option.map_eq_some_iff] at h
  obtain ⟨apm, hapm, rfl⟩ := h
  exact ⟨apm, hapm, rfl⟩

end Board

theorem getMinimumGpuVmin_low {freqMhz : ℕ} (soc : HocClkSocType) (bracket : ℕ) (h : freqMhz ≤ 1600) :
    getMinimumGpuVmin soc freqMhz bracket = 0 := if_pos h

theorem gpuVminFor_low (P : Platform) (c : Config) {hz : ℕ} (h : hz ≤ 1600000000) : gpuVminFor P c hz = 0 := by
  have hmhz : hz / 1000000 ≤ 1600 := by omega
  simp [gpuVminFor, getMinimumGpuVmin_low P.soc P.bracket hmhz]

end RyazhaClk
