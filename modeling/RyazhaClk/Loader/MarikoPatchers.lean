/-
The patcher functions of `mariko::Patch` on the words of the image, and the table that drives them. Two of the twenty go
on to the system after their first write: `EmcVddqVolt` sets the voltage over I2C, `SocVoltAsm` reads the SoC speedo.

- the instances: the other functions validate their match before their first write.
- `entries`: the table of the scan.
-/
import RyazhaClk.Loader.PcvPatchers

namespace RyazhaClk.Loader.Mariko

open Validated

variable (C : CustomizeTable) (env : PcvEnv)

/-! ## GPU -/

def gpuDVFSPattern : List (BitVec 32) := [1050, 1000, 100, 1000, 10]

def gpuVoltDVFS (ptr : ℤ) : PatchM Unit := do
  let w ← image
  rUnless (matchesAt w (ptr + 1) gpuDVFSPattern) .invalidGpuDvfs
  patchIfSet (ptr + 1) C.marikoGpuVmax
  patchIfSet ptr C.marikoGpuVmin

def gpuVoltThermalPattern : List (BitVec 32) :=
  [800, 1120, 0, 610, 1120, 20000, 610, 1120, 30000, 610, 1120, 50000, 610, 1120, 70000, 610, 1120, 90000]

def gpuVoltThermals (ptr : ℤ) : PatchM Unit := do
  let w ← image
  rUnless (matchesAt w (ptr - 3) gpuVoltThermalPattern) .invalidGpuDvfs
  if C.marikoGpuVmin = 0 then pure ()
  else
    let vmin := BitVec.ofNat 32 C.marikoGpuVmin
    patchOffsets ptr [(0, vmin), (3, vmin), (6, vmin), (9, vmin), (12, vmin)]

def gpuFreqPllLimit (ptr : ℤ) : PatchM Unit := do
  let w ← image
  let prevFreq := w (ptr - 1)
  rUnless (prevFreq = 128000 || prevFreq = 1300000 || prevFreq = 76800) .invalidGpuPllEntry
  patchOffset ptr 3600000

/-! ## CPU -/

def allowedCpuMaxFrequencies : List ℕ :=
  [1963500, 2091000, 2193000, 2295000, 2397000, 2499000, 2601000, 2703000]

/-- the last allowed maximum before the first one over `marikoCpuMaxClock`, or the first of all -/
def capCpuClock : ℕ :=
  (allowedCpuMaxFrequencies.takeWhile (C.marikoCpuMaxClock ≥ ·)).getLastD 1963500

/-- `dvfs_rail`: the word found is `freq`, the seventh of the entry; the frequency stored is cut to 32 bits -/
def cpuFreqVdd (ptr : ℤ) : PatchM Unit := do
  let w ← image
  let entry := ptr - 6
  rUnless (w entry = 1) .invalidCpuFreqVddEntry
  rUnless (w (entry + 16) = 250000) .invalidCpuFreqVddEntry
  rUnless (w (entry + 17) = 5000) .invalidCpuFreqVddEntry
  rUnless (w (entry + 18) = 1525000) .invalidCpuFreqVddEntry
  if C.marikoCpuUVHigh ≠ 0 then patchOffset ptr (BitVec.ofNat 32 (capCpuClock C))
  else do
    let freq ← orCrash (dvfsMaxFreq C.marikoCpuDvfsTable.toList)
    patchOffset ptr (BitVec.ofNat 32 freq)

/-- `CvbMeta`: the word found is `vmin`, two behind `highVmin` and five before `vmax` -/
def cpuVoltDVFS (ptr : ℤ) : PatchM Unit := do
  let w ← image
  rUnless (w (ptr - 2) = 850) .invalidCpuMinVolt
  rUnless (w (ptr - 1) = 38) .invalidCpuMinVolt
  rUnless (w (ptr + 5) = 1120) .invalidCpuMinVolt
  rUnless (w (ptr + 6) = 1000) .invalidCpuMinVolt
  rUnless (w (ptr + 7) = 100) .invalidCpuMinVolt
  rUnless (w (ptr + 8) = 1000) .invalidCpuMinVolt
  rUnless (w (ptr + 9) = 0) .invalidCpuMinVolt
  patchIfSet ptr C.marikoCpuLowVmin
  patchIfSet (ptr - 2) C.marikoCpuHighVmin
  patchIfSet (ptr + 5) C.marikoCpuMaxVolt

def cpuVoltThermalData : List (BitVec 32) :=
  [620, 1120, 20000, 620, 1120, 70000, 950, 1132, 0, 950, 1227, 0]

def cpuVoltThermals (ptr : ℤ) : PatchM Unit := do
  let w ← image
  rUnless (matchesAt w ptr cpuVoltThermalData) .invalidCpuMinVolt
  patchIfSet ptr C.marikoCpuLowVmin
  patchIfSet (ptr + 3) C.marikoCpuLowVmin
  patchIfSet (ptr - 2) C.marikoCpuMaxVolt
  patchIfSet (ptr - 5) C.marikoCpuMaxVolt
  patchIfSet (ptr + 1) C.marikoCpuMaxVolt
  patchIfSet (ptr + 4) C.marikoCpuMaxVolt

/-- the fields of `CvbCpuDfllData` in words: `tune0_low`, `tune0_high`, `tune1_low`, `tune1_high` -/
def cpuUVLowWrites : ℕ → List (ℤ × BitVec 32)
  | 1 => [(0, 0xffa0), (1, 0xffff), (2, 0x21107ff), (3, 0x0)]
  | 2 => [(1, 0xffdf), (2, 0x21107ff), (3, 0x27207ff)]
  | 3 => [(0, 0xffdf), (1, 0xffdf), (2, 0x21107ff), (3, 0x27307ff)]
  | 4 => [(0, 0xffff), (1, 0xffdf), (2, 0x21107ff), (3, 0x27407ff)]
  | 5 => [(1, 0xffdf), (2, 0x21607ff), (3, 0x27707ff)]
  | 6 => [(1, 0xffdf), (2, 0x21607ff), (3, 0x27807ff)]
  | 7 => [(1, 0xdfff), (2, 0x21607ff), (3, 0x27b07ff)]
  | 8 => [(0, 0xdfff), (1, 0xdfff), (2, 0x21707ff), (3, 0x27b07ff)]
  | 9 => [(0, 0xdfff), (1, 0xdfff), (2, 0x21707ff), (3, 0x27c07ff)]
  | 10 => [(0, 0xdfff), (1, 0xdfff), (2, 0x21707ff), (3, 0x27d07ff)]
  | 11 => [(0, 0xdfff), (1, 0xdfff), (2, 0x21707ff), (3, 0x27e07ff)]
  | 12 => [(0, 0xdfff), (1, 0xdfff), (2, 0x21707ff), (3, 0x27f07ff)]
  | _ => []

def cpuUVHighWrites : ℕ → List (ℤ × BitVec 32)
  | 1 => [(3, 0x0), (1, 0xffff)]
  | 2 => [(1, 0xffdf), (3, 0x27207ff)]
  | 3 => [(1, 0xffdf), (3, 0x27307ff)]
  | 4 => [(1, 0xffdf), (3, 0x27407ff)]
  | 5 => [(1, 0xffdf), (3, 0x27707ff)]
  | 6 => [(1, 0xffdf), (3, 0x27807ff)]
  | 7 => [(1, 0xdfff), (3, 0x27b07ff)]
  | 8 => [(1, 0xdfff), (3, 0x27b07ff)]
  | 9 => [(1, 0xdfff), (3, 0x27c07ff)]
  | 10 => [(1, 0xdfff), (3, 0x27d07ff)]
  | 11 => [(1, 0xdfff), (3, 0x27e07ff)]
  | 12 => [(1, 0xdfff), (3, 0x27f07ff)]
  | _ => []

def cpuVoltDfll (ptr : ℤ) : PatchM Unit := do
  let w ← image
  rUnless (w ptr = 0xFFCF) .invalidCpuVoltDfllEntry
  rUnless (w (ptr + 1) = 0x0) .invalidCpuVoltDfllEntry
  rUnless (w (ptr + 2) = 0x12207FF) .invalidCpuVoltDfllEntry
  rUnless (w (ptr + 3) = 0x3FFF7FF) .invalidCpuVoltDfllEntry
  patchOffsets ptr (cpuUVLowWrites C.marikoCpuUVLow)
  patchOffsets ptr (cpuUVHighWrites C.marikoCpuUVHigh)

/-! ## Memory tables -/

/-- `sizeof(MarikoMtcTable)` and `sizeof(EristaMtcTable)` in words; both have `rev` first and `rate_khz` at word 16 -/
def mtcTableWords : ℕ := 0x10CC / 4

def eristaMtcTableWords : ℕ := 0x1340 / 4

def mtcRateKhz : ℤ := 16

/-- `MtcFullTableSize` of Mariko and of Erista, in words -/
def mtcFullTableWords : ℕ := mtcTableWords * mtcTableCountDefault

def eristaMtcFullTableWords : ℕ := eristaMtcTableWords * 10

def mtcTableAt (table : ℤ) (i : ℕ) : ℤ := table + mtcTableWords * i

def verifyMtcTableAt (w : Words) (table : ℤ) (expectedFreq : ℕ) : Bool :=
  w (table + mtcRateKhz) = BitVec.ofNat 32 expectedFreq && w table = BitVec.ofNat 32 mtcTableRev

def mtcValidateAllTablesAt (w : Words) (table : ℤ) (validationList : List ℕ) : Bool :=
  validationList.zipIdx.all fun freq => verifyMtcTableAt w (mtcTableAt table freq.2) freq.1

/-- two Erista tables lie behind the first of Mariko's -/
def getMtcOffset (index : ℕ) : ℕ :=
  if index < 1 then index * mtcFullTableWords else mtcFullTableWords * index + 2 * eristaMtcFullTableWords

def prepareMtcMemoryRegionAt (firstTable usedTable : ℤ) : PatchM Unit := do
  copyWords firstTable usedTable mtcFullTableWords
  clearWords (firstTable + mtcFullTableWords)
    (mtcFullTableWords * (mtcFullTableCount - 1) + eristaMtcFullTableWords * (3 - 1))

/-- the indices from `MtcTableCountDefault` on -/
def newTables (newEmcList : List ℕ) : List (ℕ × ℕ) := newEmcList.zipIdx.drop mtcTableCountDefault

def mtcExtendTablesAt (newEmcList : List ℕ) (table : ℤ) : PatchM Unit :=
  forEach (fun freq => do
    copyWords (mtcTableAt table freq.2) (mtcTableAt table (freq.2 - 1)) mtcTableWords
    patchOffset (mtcTableAt table freq.2 + mtcRateKhz) (BitVec.ofNat 32 freq.1)) (newTables newEmcList)

def abortInvalidMtc {α : Type} (crashMsg : String) : PatchM α := crash (.panic Panic.emc crashMsg)

/-- `AbortInvalidMtc` unless the tables of the image validate -/
def validateOrAbort (table : ℤ) (validationList : List ℕ) : PatchM Unit := do
  let w ← image
  if mtcValidateAllTablesAt w table validationList then pure () else abortInvalidMtc "Failed mtc validation"

/-- `none` is `MtcTableIndex_Invalid` -/
def mtcIndexOrAbort : PatchM ℕ :=
  orCrash (match getMtcDramIndex env.dramId with
    | some index => .ok index
    | none => .error (.panic Panic.emc "Invalid dramId"))

def memFreqMtcTable (newEmcList : List ℕ) (ptr : ℤ) : PatchM Unit := do
  let index ← mtcIndexOrAbort env
  let startPtr := ptr - (mtcRateKhz + mtcTableWords * (mtcTableCountDefault - 1))
  let table := startPtr + getMtcOffset index
  let w ← image
  rUnless (mtcValidateAllTablesAt w table emcListDefault) .invalidMtcTable
  if C.marikoEmcMaxClock ≤ emcClkOSLimit then pure ()
  else do
    prepareMtcMemoryRegionAt startPtr table
    validateOrAbort startPtr emcListDefault
    mtcExtendTablesAt newEmcList startPtr
    validateOrAbort startPtr newEmcList
    forEach (fun freq => adjustTableAt env.marikoAdjust (mtcTableAt startPtr freq.2)) (newTables newEmcList)

/-- `DvbEntry` has 6 words: a `u64` frequency and four voltages -/
def dvbWords (e : DvbEntry) : List (BitVec 32) :=
  [BitVec.ofNat 32 e.freq, BitVec.ofNat 32 (e.freq / 2 ^ 32)] ++ e.volt.toList.map (BitVec.ofNat 32)

def memFreqDvbTable (newEmcList : List ℕ) (ptr : ℤ) : PatchM Unit := do
  let w ← image
  let head := ptr + 6 - 6 * emcDvbTableDefault.length
  rUnless (matchesAt w head (emcDvbTableDefault.flatMap dvbWords)) .invalidDvbTable
  if C.marikoEmcMaxClock ≤ emcClkOSLimit then pure ()
  else do
    clearWords head (6 * emcDvbTableDefault.length)
    copyTo head ((emcDvbTableOc newEmcList (emcDvbOcTableBrackets C)).flatMap dvbWords)

def memFreqMax (ptr : ℤ) : PatchM Unit :=
  if C.marikoEmcMaxClock ≤ emcClkOSLimit then pure ()
  else patchOffset ptr (BitVec.ofNat 32 C.marikoEmcMaxClock)

def memMtcGetGetTablePatternFn (w : Words) (ptr : ℤ) : Bool := asmCompareAddNoImm12 (w ptr) mtcAddAsm

/-- `nsoStart` is word 0 -/
def memMtcTableAsm (newEmcList : List ℕ) (ptr : ℤ) : PatchM Unit := do
  rUnless (ptr - 12 ≥ 0) .invalidMtcTablePattern
  let w ← image
  rUnless (asmCompareAdrpNoImm (w (ptr - 1)) mtcAdrpAsm) .invalidMtcTablePattern
  rUnless (asmCompareBrNoRd (w (ptr - 12)) mtcBrAsm) .invalidMtcTablePattern
  rUnless (asmCompareNoRd (w (ptr - 10)) mtcMovAsm) .invalidMtcTablePattern
  let movCountPatch := asmSetRd (asmSetImm16 mtcMovAsm (BitVec.ofNat 16 newEmcList.length)) (asmGetRd (w (ptr - 10)))
  patchOffset (ptr - 12) nopIns
  patchOffset (ptr - 10) movCountPatch

/-! ## Memory voltage -/

/-- the validator of a `regulator` of type 3, the word found is its `default_uv` -/
def validVddqRegulator (w : Words) (ptr : ℤ) : Bool :=
  let entry := ptr - 11
  (w entry = 2 && w (entry + 1) = 0) && w (entry + 4) = 3 && w (entry + 6) = 5000 && w (entry + 8) = 250000

/-- `emc_uv` rounded up to a step -/
def roundVddq (emcUv : ℕ) : ℕ := if emcUv % 5000 ≠ 0 then (emcUv + 5000 - 1) / 5000 * 5000 else emcUv

/-- the error of opening the session or of sending -/
def i2cSetU8 (ptr : ℤ) (reg val : BitVec 8) : Option ℕ :=
  match env.i2cOpenSession ptr with
  | some rc => some rc
  | none => env.i2csessionSendAuto ptr reg val

/-- the I2C error at the word, for the voltage configured -/
def vddqI2c (ptr : ℤ) : Option ℕ :=
  i2cSetU8 env ptr 0x25 (BitVec.ofNat 8 ((roundVddq C.marikoEmcVddqVolt - 250000) / 5000))

def emcVddqVolt (ptr : ℤ) : PatchM Unit := do
  let w ← image
  rUnless (validVddqRegulator w ptr) .invalidRegulatorEntry
  if C.marikoEmcVddqVolt = 0 then pure ()
  else do
    patchOffset ptr (BitVec.ofNat 32 (roundVddq C.marikoEmcVddqVolt))
    match vddqI2c C env ptr with
    | none => pure ()
    | some rc => fail (.result (.system rc))

/-! ## SoC voltage -/

def socVoltCompareSpeedoAsm : BitVec 32 := 0x7118FAFF
def socVoltWriteProcessIdAsm : BitVec 32 := 0x2A1F03F4
def socVoltWriteVoltageAsm : BitVec 32 := 0x52808358
def socVoltSelectRegisterAsm : BitVec 32 := 0x1A9A3118
def socVoltMultiplyVoltsAsm : BitVec 32 := 0x1B1A7F0B
def socVoltValidateLimitAsm : BitVec 32 := 0x6B0A017F
def socVoltBranchToAbortAsm : BitVec 32 := 0x540020AC

def socVoltPatternFn (w : Words) (ptr : ℤ) : Bool := asmCompareNoRd (w ptr) socVoltCompareSpeedoAsm

/-- the word 2048 + 308 bytes behind the mapped fuses, or the error of mapping them -/
def getSocSpeedo (ptr : ℤ) : Except PatchFailure ℕ :=
  match env.svcQueryMemoryMapping ptr with
  | .ok virtualAddress => .ok (env.readWord (virtualAddress + 2048 + 308))
  | .error rc => .error (.result (.system rc))

def getSocProcessId (socSpeedo : ℕ) : ℕ := if socSpeedo ≤ 1597 then 0 else if socSpeedo ≤ 1708 then 1 else 2

/-- the instructions the function found: those it patches -/
structure SocVoltSites where
  writeProcessId : ℤ
  writeVoltage : ℤ
  branchToAbort : ℤ

/-- the validating part of `SocVoltAsm` -/
def findSocVoltSites (compareSpeedos : ℤ) : PatchM SocVoltSites := do
  let w ← image
  let writeProcessId ← findInstruction compareSpeedos 10 socVoltWriteProcessIdAsm asmCompareNoRd .invalidSocVoltPattern
  let writeVoltage ← findInstruction writeProcessId 10 socVoltWriteVoltageAsm asmCompareNoRd .invalidSocVoltPattern
  let selectVoltage ← findInstruction writeVoltage 24 socVoltSelectRegisterAsm asmCompareCselNoReg .invalidSocVoltPattern
  let multiplier ← findInstruction selectVoltage 200 socVoltMultiplyVoltsAsm asmCompareMullNoReg .invalidSocVoltPattern
  let rd := asmGetRd (w selectVoltage)
  rUnless (asmGetMullRn (w multiplier) = rd || asmGetMullRm (w multiplier) = rd) .invalidSocVoltPattern
  let limitValidationPattern := asmSubsSetRn socVoltValidateLimitAsm (asmGetRd (w multiplier))
  let limitValidation ← findInstruction multiplier 10 limitValidationPattern asmSubsCompareNoReg .invalidSocVoltPattern
  rUnless (asmCompareBrConNoImm19 (w (limitValidation + 1)) socVoltBranchToAbortAsm) .invalidSocVoltPattern
  return ⟨writeProcessId, writeVoltage, limitValidation + 1⟩

/-- `asm_set_rd(asm_set_imm16(SocVoltWriteVoltageAsm, imm), rd)` -/
def socVoltMov (imm : ℕ) (rd : BitVec 8) : BitVec 32 :=
  asmSetRd (asmSetImm16 socVoltWriteVoltageAsm (BitVec.ofNat 16 imm)) rd

def socVoltAsm (compareSpeedos : ℤ) : PatchM Unit := do
  let w ← image
  let sites ← findSocVoltSites compareSpeedos
  if C.marikoSocVmax = 0 ∨ C.marikoSocVmax ≤ 1000 then pure ()
  else do
    patchOffset compareSpeedos (asmSubsSetImm12 (w compareSpeedos) 2200)
    let socSpeedo ← outcome (getSocSpeedo env compareSpeedos)
    patchOffset sites.writeProcessId (socVoltMov (getSocProcessId socSpeedo) (asmGetRd (w sites.writeProcessId)))
    patchOffset sites.writeVoltage (socVoltMov C.marikoSocVmax (asmGetRd (w sites.writeVoltage)))
    patchOffset sites.branchToAbort nopIns

def socVoltLimitOfficial : ℕ := 1050

def socVoltLimitMaxDefaultIndex : ℕ := 17

/-- the stock limits, the rest of the 32 words is zero -/
def socVoltLimitArray : List (BitVec 32) :=
  [637, 650, 675, 700, 725, 750, 775, 800, 825, 850, 875, 900, 925, 950, 975, 1000, 1025, 1050] ++ List.replicate 14 0

/-- the loop from `i` on: a step of 25 mV behind the one before, while it is under `maxVolt` -/
def extendSocVoltLimit (ptr : ℤ) (maxVolt : ℕ) : ℕ → ℕ → ℕ → PatchM Unit
  | 0, _, _ => pure ()
  | fuel + 1, i, volt =>
    if volt < maxVolt then patchOffset (ptr + i) (BitVec.ofNat 32 (volt + 25)) >>= fun _ =>
      extendSocVoltLimit ptr maxVolt fuel (i + 1) (volt + 25)
    else pure ()

/-- `maxVolt` rounded down to a step -/
def roundSocVmax (vmax : ℕ) : ℕ := if vmax % 25 ≠ 0 then vmax / 25 * 25 else vmax

def socVoltLimit (ptr : ℤ) : PatchM Unit := do
  let w ← image
  rUnless (matchesAt w (ptr - socVoltLimitMaxDefaultIndex) socVoltLimitArray) .invalidSocVoltLimit
  if C.marikoSocVmax = 0 ∨ C.marikoSocVmax ≤ socVoltLimitOfficial then pure ()
  else
    extendSocVoltLimit ptr (roundSocVmax C.marikoSocVmax) (dvfsTableEntryCount - socVoltLimitMaxDefaultIndex - 1) 1
      socVoltLimitOfficial

/-! ## The table -/

def maxFreqOf (table : List CvbEntry) : BitVec 32 :=
  BitVec.ofNat 32 ((getDvfsTableLastEntry table).getD {}).freq

def entries (newEmcList : List ℕ) : List PatcherEntry :=
  [ { description := "CPU Freq Vdd", patcherFn := cpuFreqVdd C, maximumPatchedCount := 1, valueSearch := 1785000 },
    { description := "CPU Freq Table", patcherFn := Pcv.cpuFreqCvbTable true C, maximumPatchedCount := 1,
      valueSearch := maxFreqOf cpuCvbTableDefault },
    { description := "CPU Volt DVFS", patcherFn := cpuVoltDVFS C, maximumPatchedCount := 1, valueSearch := 620 },
    { description := "CPU Volt Thermals", patcherFn := cpuVoltThermals C, maximumPatchedCount := 1, valueSearch := 620 },
    { description := "CPU Volt Dfll", patcherFn := cpuVoltDfll C, maximumPatchedCount := 1, valueSearch := 0xFFCF },
    { description := "GPU Volt DVFS", patcherFn := gpuVoltDVFS C, maximumPatchedCount := 1, valueSearch := 610 },
    { description := "GPU Volt Thermals", patcherFn := gpuVoltThermals C, maximumPatchedCount := 1, valueSearch := 610 },
    { description := "GPU Freq Table", patcherFn := Pcv.gpuFreqCvbTable true C, maximumPatchedCount := 1,
      valueSearch := maxFreqOf gpuCvbTableDefault },
    { description := "GPU Freq Asm", patcherFn := Pcv.gpuFreqMaxAsm true C, maximumPatchedCount := 2,
      patternSearchFn := some Pcv.gpuMaxClockPatternFn },
    { description := "GPU PLL Max", patcherFn := Pcv.gpuFreqPllMax, maximumPatchedCount := 1, valueSearch := 1300000000 },
    { description := "GPU PLL Limit", patcherFn := gpuFreqPllLimit, maximumPatchedCount := 4, valueSearch := 2600000 },
    { description := "MEM Freq Mtc", patcherFn := memFreqMtcTable C env newEmcList, maximumPatchedCount := 1,
      valueSearch := 1600000 },
    { description := "MEM Freq Dvb", patcherFn := memFreqDvbTable C newEmcList, maximumPatchedCount := 1,
      valueSearch := 1600000 },
    { description := "MEM Freq Max", patcherFn := memFreqMax C, maximumPatchedCount := 0, valueSearch := 1600000 },
    { description := "MEM Freq PLLM", patcherFn := Pcv.memFreqPllmLimit, maximumPatchedCount := 2,
      valueSearch := 2133000000 },
    { description := "MEM Vddq", patcherFn := emcVddqVolt C env, maximumPatchedCount := 2, valueSearch := 600000 },
    { description := "MEM Vdd2", patcherFn := Pcv.memVoltHandler C, maximumPatchedCount := 2, valueSearch := 1100000 },
    { description := "MEM Table Asm", patcherFn := memMtcTableAsm newEmcList, maximumPatchedCount := 1,
      patternSearchFn := some memMtcGetGetTablePatternFn },
    { description := "SOC Volt Asm", patcherFn := socVoltAsm C env, maximumPatchedCount := 1,
      patternSearchFn := some socVoltPatternFn },
    { description := "SOC Volt Limit", patcherFn := socVoltLimit C, maximumPatchedCount := 1, valueSearch := 1050 } ]

/-- `mariko::Patch`; `none` when `MtcGenerateFreqTables` never ends -/
def patch (nsoSize : ℕ) (s : PcvState) : Option Run :=
  (mtcGenerateFreqTables C).map fun newEmcList =>
    Loader.patch (scanPositions nsoSize (4 * mtcTableWords)) (entries C env newEmcList) s

/-! ## Validated before the first write -/

-- the instance of a program has one part for each of its steps, and they are found in one search
set_option synthInstance.maxSize 100000

instance (ptr : ℤ) : Clean Failed (gpuVoltDVFS C ptr) := by
  unfold gpuVoltDVFS
  infer_instance

instance (ptr : ℤ) : Clean Failed (gpuVoltThermals C ptr) := by
  unfold gpuVoltThermals
  infer_instance

instance (ptr : ℤ) : Clean Failed (gpuFreqPllLimit ptr) := by
  unfold gpuFreqPllLimit
  infer_instance

instance (ptr : ℤ) : Clean Failed (cpuFreqVdd C ptr) := by
  unfold cpuFreqVdd
  dsimp only
  infer_instance

instance (ptr : ℤ) : Clean Failed (cpuVoltDVFS C ptr) := by
  unfold cpuVoltDVFS
  infer_instance

instance (ptr : ℤ) : Clean Failed (cpuVoltThermals C ptr) := by
  unfold cpuVoltThermals
  infer_instance

instance (ptr : ℤ) : Clean Failed (cpuVoltDfll C ptr) := by
  unfold cpuVoltDfll
  infer_instance

instance (firstTable usedTable : ℤ) : Sure Failed (prepareMtcMemoryRegionAt firstTable usedTable) := by
  unfold prepareMtcMemoryRegionAt
  infer_instance

instance (newEmcList : List ℕ) (table : ℤ) : Sure Failed (mtcExtendTablesAt newEmcList table) := by
  unfold mtcExtendTablesAt
  infer_instance

instance (table : ℤ) (validationList : List ℕ) : Sure Failed (validateOrAbort table validationList) := by
  unfold validateOrAbort abortInvalidMtc
  infer_instance

instance : ReadOnly (mtcIndexOrAbort env) := by
  unfold mtcIndexOrAbort
  infer_instance

instance (newEmcList : List ℕ) (ptr : ℤ) : Clean Failed (memFreqMtcTable C env newEmcList ptr) := by
  unfold memFreqMtcTable
  infer_instance

instance (newEmcList : List ℕ) (ptr : ℤ) : Clean Failed (memFreqDvbTable C newEmcList ptr) := by
  unfold memFreqDvbTable
  infer_instance

instance (ptr : ℤ) : Clean Failed (memFreqMax C ptr) := by
  unfold memFreqMax
  infer_instance

instance (newEmcList : List ℕ) (ptr : ℤ) : Clean Failed (memMtcTableAsm newEmcList ptr) := by
  unfold memMtcTableAsm
  infer_instance

instance (compareSpeedos : ℤ) : ReadOnly (findSocVoltSites compareSpeedos) := by
  unfold findSocVoltSites
  infer_instance

instance (ptr : ℤ) (maxVolt fuel i volt : ℕ) : Sure Failed (extendSocVoltLimit ptr maxVolt fuel i volt) := by
  induction fuel generalizing i volt with
  | zero => exact inferInstanceAs (Sure Failed (pure ()))
  | succ fuel ih =>
    unfold extendSocVoltLimit
    infer_instance

instance (ptr : ℤ) : Clean Failed (socVoltLimit C ptr) := by
  unfold socVoltLimit
  infer_instance

end RyazhaClk.Loader.Mariko
