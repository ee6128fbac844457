/-
The patcher functions of `erista::Patch` on the words of the image, and the table that drives them. The memory table
function sorts and rewrites the three configured maxima, static data of the loader, as it goes.

- the instances: every function validates its match before its first write to the image.
- `entries`: the table of the scan.
-/
import RyazhaClk.Loader.PcvPatchers

namespace RyazhaClk.Loader.Erista

open Validated

variable (C : CustomizeTable) (env : PcvEnv)

/-! ## CPU and GPU -/

def cpuVoltDvfsPattern : List (BitVec 32) := [1227, 1000, 100, 1000, 0]

/-- the second condition is the undervolt level, the value written the minimum voltage -/
def cpuVoltDvfs (ptr : ℤ) : PatchM Unit := do
  let w ← image
  rUnless (matchesAt w (ptr + 5) cpuVoltDvfsPattern) .invalidCpuMinVolt
  patchIfSet ptr C.eristaCpuVmin
  if C.eristaCpuUV ≠ 0 then patchOffset (ptr - 2) (BitVec.ofNat 32 C.eristaCpuVmin) else pure ()
  patchIfSet (ptr + 5) C.eristaCpuMaxVolt

def cpuVoltageThermalPattern : List (BitVec 32) :=
  [950, 1132, 0, 950, 1227, 0, 825, 1227, 15000, 825, 1170, 60000, 825, 1132, 80000]

def cpuVoltThermals (ptr : ℤ) : PatchM Unit := do
  let w ← image
  rUnless (matchesAt w (ptr - 6) cpuVoltageThermalPattern) .invalidCpuMinVolt
  patchIfSet ptr C.eristaCpuVmin
  patchIfSet (ptr + 3) C.eristaCpuVmin
  patchIfSet (ptr + 6) C.eristaCpuVmin
  patchIfSet (ptr - 2) C.eristaCpuMaxVolt
  patchIfSet (ptr + 1) C.eristaCpuMaxVolt
  patchIfSet (ptr + 4) C.eristaCpuMaxVolt
  patchIfSet (ptr + 7) C.eristaCpuMaxVolt

/-- `tune0_high` and `tune1_high` of `CvbCpuDfllData` in words -/
def cpuUVWrites : ℕ → List (ℤ × BitVec 32)
  | 1 => [(1, 0xffff), (3, 0x27007ff)]
  | 2 => [(1, 0xefff), (3, 0x27407ff)]
  | 3 => [(1, 0xdfff), (3, 0x27807ff)]
  | 4 => [(1, 0xdfdf), (3, 0x27a07ff)]
  | 5 => [(1, 0xcfdf), (3, 0x37007ff)]
  | _ => []

def cpuVoltDfll (ptr : ℤ) : PatchM Unit := do
  let w ← image
  rUnless (w ptr = 0xFFEAD0FF) .invalidCpuVoltDfllEntry
  rUnless (w (ptr + 1) = 0x0) .invalidCpuVoltDfllEntry
  rUnless (w (ptr + 2) = 0x0) .invalidCpuVoltDfllEntry
  rUnless (w (ptr + 3) = 0x0) .invalidCpuVoltDfllEntry
  patchOffsets ptr (cpuUVWrites C.eristaCpuUV)

def gpuVoltDvfsPattern : List (BitVec 32) := [810, 1150, 1000, 100, 1000, 10]

def gpuVoltDVFS (ptr : ℤ) : PatchM Unit := do
  let w ← image
  rUnless (matchesAt w ptr gpuVoltDvfsPattern) .invalidGpuDvfs
  patchIfSet ptr C.eristaGpuVmin

def gpuVoltThermalPattern : List (BitVec 32) :=
  [950, 1132, 0, 810, 1132, 15000, 810, 1132, 30000, 810, 1132, 50000, 810, 1132, 70000, 810, 1132, 105000]

def gpuVoltThermals (ptr : ℤ) : PatchM Unit := do
  let w ← image
  rUnless (matchesAt w (ptr - 3) gpuVoltThermalPattern) .invalidGpuDvfs
  patchIfSet ptr C.eristaGpuVmin
  patchIfSet (ptr + 3) C.eristaGpuVmin
  patchIfSet (ptr + 6) C.eristaGpuVmin
  patchIfSet (ptr + 9) C.eristaGpuVmin
  patchIfSet (ptr + 12) C.eristaGpuVmin

/-! ## Memory -/

def khzList : List ℕ := [40800, 68000, 102000, 204000, 408000, 665600, 800000, 1065600, 1331200, 1600000]

/-- `sizeof(EristaMtcTable)` in words; `rev` comes first and `rate_khz` is word 16 -/
def mtcTableWords : ℕ := 0x1340 / 4

def mtcRateKhz : ℤ := 16

/-- `table_list[mtcIndex]`; the word found is the rate of the last table -/
def tableList (ptr : ℤ) (mtcIndex : ℕ) : ℤ := ptr - mtcRateKhz - mtcTableWords * (khzList.length - 1 - mtcIndex)

def validTables (w : Words) (ptr : ℤ) : Bool :=
  khzList.zipIdx.all fun khz =>
    w (tableList ptr khz.2 + mtcRateKhz) = BitVec.ofNat 32 khz.1 && w (tableList ptr khz.2) = 7

/-- `static u32 maxEmcClocks[]` as it starts -/
def maxEmcClocks : List ℕ := [C.eristaEmcMaxClock2, C.eristaEmcMaxClock1, C.eristaEmcMaxClock]

/-- `GET_MAX_OF_ARR` -/
def maxOfArr (clocks : List ℕ) : ℕ := clocks.foldl max 0

/-- a maximum that is followed by itself, or is within the OS limit, is cleared -/
def dropDuplicates : List ℕ → List ℕ
  | clock :: next :: clocks =>
    (if clock ≠ next ∧ clock > emcClkOSLimit then clock else 0) :: dropDuplicates (next :: clocks)
  | clocks => clocks

/-- one for each maximum that is kept in front of the last, and one for the last -/
def tableShiftsOf : List ℕ → ℕ
  | clock :: next :: clocks => (if clock ≠ next ∧ clock > emcClkOSLimit then 1 else 0) + tableShiftsOf (next :: clocks)
  | _ => 1

def sortClocks : PatchM Unit := poke fun s => { s with maxEmcClocks := s.maxEmcClocks.mergeSort (· ≤ ·) }

/-- the rates of the last tables: the `i`th from the end gets the next maximum that is not cleared -/
def writeRates (ptr : ℤ) : ℕ → List ℕ → PatchM Unit
  | 0, _ => pure ()
  | _, [] => pure ()
  | i + 1, clock :: clocks =>
    if clock = 0 then writeRates ptr (i + 1) clocks
    else do
      patchOffset (tableList ptr (khzList.length - (i + 1)) + mtcRateKhz) (BitVec.ofNat 32 clock)
      adjustTableAt env.eristaAdjust (tableList ptr (khzList.length - (i + 1)))
      writeRates ptr i clocks

/-- `MemFreqMtcTable` behind `std::sort` -/
def memFreqMtcTableSorted (ptr : ℤ) : PatchM Unit := do
  let w ← image
  rUnless (validTables w ptr) .invalidMtcTable
  let clocks ← peek PcvState.maxEmcClocks
  if maxOfArr clocks ≤ emcClkOSLimit then pure ()
  else do
    let tableShifts := tableShiftsOf clocks
    poke fun s => { s with maxEmcClocks := dropDuplicates clocks }
    copyWords (tableList ptr 0) (tableList ptr tableShifts) (mtcTableWords * (khzList.length - tableShifts))
    forEach (fun i => copyWords (tableList ptr (khzList.length - i - 1)) (tableList ptr (khzList.length - tableShifts - 1))
      mtcTableWords) (List.range tableShifts)
    writeRates env ptr tableShifts (dropDuplicates clocks)

def memFreqMtcTable (ptr : ℤ) : PatchM Unit := do
  sortClocks
  memFreqMtcTableSorted env ptr

def memFreqMax (ptr : ℤ) : PatchM Unit := do
  let clocks ← peek PcvState.maxEmcClocks
  if maxOfArr clocks ≤ emcClkOSLimit then pure () else patchOffset ptr (BitVec.ofNat 32 (maxOfArr clocks))

/-! ## The table -/

def maxFreqOf (table : List CvbEntry) : BitVec 32 :=
  BitVec.ofNat 32 ((getDvfsTableLastEntry table).getD {}).freq

def entries : List PatcherEntry :=
  [ { description := "CPU Freq Table", patcherFn := Pcv.cpuFreqCvbTable false C, maximumPatchedCount := 1,
      valueSearch := maxFreqOf cpuCvbTableDefault },
    { description := "CPU Volt DVFS", patcherFn := cpuVoltDvfs C, maximumPatchedCount := 1, valueSearch := 825 },
    { description := "CPU Volt Thermals", patcherFn := cpuVoltThermals C, maximumPatchedCount := 1, valueSearch := 825 },
    { description := "CPU Volt Dfll", patcherFn := cpuVoltDfll C, maximumPatchedCount := 1, valueSearch := 0xFFEAD0FF },
    { description := "GPU Volt DVFS", patcherFn := gpuVoltDVFS C, maximumPatchedCount := 1, valueSearch := 810 },
    { description := "GPU Volt Thermals", patcherFn := gpuVoltThermals C, maximumPatchedCount := 1, valueSearch := 810 },
    { description := "GPU Freq Table", patcherFn := Pcv.gpuFreqCvbTable false C, maximumPatchedCount := 1,
      valueSearch := maxFreqOf gpuCvbTableDefault },
    { description := "GPU Freq Asm", patcherFn := Pcv.gpuFreqMaxAsm false C, maximumPatchedCount := 2,
      patternSearchFn := some Pcv.gpuMaxClockPatternFn },
    { description := "GPU PLL Max", patcherFn := Pcv.gpuFreqPllMax, maximumPatchedCount := 1, valueSearch := 921600000 },
    { description := "MEM Freq Mtc", patcherFn := memFreqMtcTable env, maximumPatchedCount := 0, valueSearch := 1600000 },
    { description := "MEM Freq Max", patcherFn := memFreqMax, maximumPatchedCount := 0, valueSearch := 1600000 },
    { description := "MEM Freq PLLM", patcherFn := Pcv.memFreqPllmLimit, maximumPatchedCount := 2,
      valueSearch := 1866000000 },
    { description := "MEM Volt", patcherFn := Pcv.memVoltHandler C, maximumPatchedCount := 2, valueSearch := 1125000 } ]

/-- `erista::Patch` -/
def patch (nsoSize : ℕ) (s : PcvState) : Run :=
  Loader.patch (scanPositions nsoSize (4 * mtcTableWords)) (entries C env) s

/-! ## Validated before the first write -/

-- the instance of a program has one part for each of its steps, and they are found in one search
set_option synthInstance.maxSize 100000

instance (ptr : ℤ) : Clean Failed (cpuVoltDvfs C ptr) := by
  unfold cpuVoltDvfs
  infer_instance

instance (ptr : ℤ) : Clean Failed (cpuVoltThermals C ptr) := by
  unfold cpuVoltThermals
  infer_instance

instance (ptr : ℤ) : Clean Failed (cpuVoltDfll C ptr) := by
  unfold cpuVoltDfll
  infer_instance

instance (ptr : ℤ) : Clean Failed (gpuVoltDVFS C ptr) := by
  unfold gpuVoltDVFS
  infer_instance

instance (ptr : ℤ) : Clean Failed (gpuVoltThermals C ptr) := by
  unfold gpuVoltThermals
  infer_instance

instance (ptr : ℤ) : Clean Failed (memFreqMax ptr) := by
  unfold memFreqMax
  infer_instance

instance (ptr : ℤ) (i : ℕ) (clocks : List ℕ) : Sure Failed (writeRates env ptr i clocks) := by
  induction clocks generalizing i with
  | nil => cases i <;> exact inferInstanceAs (Sure Failed (pure ()))
  | cons clock clocks ih =>
    cases i with
    | zero => exact inferInstanceAs (Sure Failed (pure ()))
    | succ i =>
      unfold writeRates
      infer_instance

instance (ptr : ℤ) : Clean Failed (memFreqMtcTableSorted env ptr) := by
  unfold memFreqMtcTableSorted
  infer_instance

end RyazhaClk.Loader.Erista
