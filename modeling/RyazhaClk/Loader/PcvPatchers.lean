/-
The patcher functions both SoCs share, on the words of the image, and what of the system they call: the functions of a
table's own SoC are in the two modules behind this one.

- every function here validates its match before its first write; the instances say so.

The timing calculations of a memory table, in floating point, and the I2C and system calls are the environment's.
-/
import RyazhaClk.Loader.PatchEngine

namespace RyazhaClk.Loader

open Validated

/-! ## The environment -/

/-- what the patcher functions ask of the system; the answers may differ from call to call, so they see the word -/
structure PcvEnv where
  dramId : ℕ
  /-- `i2cOpenSession`: the error, if it fails -/
  i2cOpenSession : ℤ → Option ℕ
  /-- `i2csessionSendAuto` of a register and a value: the error, if it fails -/
  i2csessionSendAuto : ℤ → BitVec 8 → BitVec 8 → Option ℕ
  /-- `svcQueryMemoryMapping` of the fuses: the error or the virtual address -/
  svcQueryMemoryMapping : ℤ → Except ℕ ℕ
  /-- the word at a virtual address -/
  readWord : ℕ → ℕ
  /-- `mariko::MemMtcTableAutoAdjust` and `MemMtcPllmbDivisor` on the table at a word -/
  marikoAdjust : ℤ → Words → Words
  /-- `erista::MemMtcTableAutoAdjust` on the table at a word -/
  eristaAdjust : ℤ → Words → Words

/-- an adjustment in place of the table at `table` -/
def adjustTableAt (adjust : ℤ → Words → Words) (table : ℤ) : PatchM Unit :=
  poke fun s => { s with words := adjust table s.words }

instance (adjust : ℤ → Words → Words) (table : ℤ) : Sure Failed (adjustTableAt adjust table) := by
  unfold adjustTableAt
  infer_instance

/-- `memmove` and `memcpy` of `n` words -/
def copyWords (dst src : ℤ) (n : ℕ) : PatchM Unit :=
  poke fun s => { s with words := fun p => if dst ≤ p ∧ p < dst + n then s.words (src + (p - dst)) else s.words p }

/-- `memset` of `n` words to zero -/
def clearWords (dst : ℤ) (n : ℕ) : PatchM Unit :=
  poke fun s => { s with words := fun p => if dst ≤ p ∧ p < dst + n then 0 else s.words p }

instance (dst src : ℤ) (n : ℕ) : Sure Failed (copyWords dst src n) := by
  unfold copyWords
  infer_instance

instance (dst : ℤ) (n : ℕ) : Sure Failed (clearWords dst n) := by
  unfold clearWords
  infer_instance

/-- `ScanAssembly`: the first of `scanLimit` words that compares -/
def scanAssembly (w : Words) (ptr : ℤ) (scanLimit : ℕ) (pattern : BitVec 32) (comp : BitVec 32 → BitVec 32 → Bool) :
    Option ℤ :=
  ((List.range scanLimit).map fun i : ℕ => ptr + (i : ℤ)).find? fun p => comp pattern (w p)

/-- the next instruction of a pattern, or a failure -/
def findInstruction (ptr : ℤ) (scanLimit : ℕ) (pattern : BitVec 32) (comp : BitVec 32 → BitVec 32 → Bool)
    (r : LdrResult) : PatchM ℤ := do
  let w ← image
  match scanAssembly w ptr scanLimit pattern comp with
  | some p => pure p
  | none => fail (.result r)

instance (ptr : ℤ) (scanLimit : ℕ) (pattern : BitVec 32) (comp : BitVec 32 → BitVec 32 → Bool) (r : LdrResult) :
    ReadOnly (findInstruction ptr scanLimit pattern comp r) := by
  have hfound : ∀ w : Words, ReadOnly (match scanAssembly w ptr scanLimit pattern comp with
      | some p => pure p
      | none => fail (.result r) : PatchM ℤ) := by
    intro w
    cases scanAssembly w ptr scanLimit pattern comp with
    | some p => exact inferInstanceAs (ReadOnly (pure p))
    | none => exact inferInstanceAs (ReadOnly (fail _))
  unfold findInstruction
  infer_instance

namespace Pcv

variable (isMariko : Bool) (C : CustomizeTable)

/-! ## The voltage tables -/

/-- `cvb_entry_t` has 14 words, `cvb_pll_param` starts at the ninth -/
def cvbEntryWords : ℕ := 14

def cvbPllC0 : ℤ := 8

def coefficientWords (c : CvbCoefficients) : List (BitVec 32) :=
  [c.c0, c.c1, c.c2, c.c3, c.c4, c.c5].map (BitVec.ofInt 32)

def cvbWords (e : CvbEntry) : List (BitVec 32) :=
  [BitVec.ofNat 32 e.freq, BitVec.ofNat 32 (e.freq / 2 ^ 32)] ++
    coefficientWords e.cvbDfllParam ++ coefficientWords e.cvbPllParam

/-- the words of a table's entries -/
def tableWords (table : List CvbEntry) : List (BitVec 32) :=
  (table.take (getDvfsTableEntryCount table)).flatMap cvbWords

/-- the head of the stock table, from the word with its last frequency -/
def tableHead (ptr : ℤ) (defaultTable : List CvbEntry) : ℤ :=
  ptr + cvbEntryWords - cvbEntryWords * getDvfsTableEntryCount defaultTable

/-- `entry` after `i` times `entry++` -/
def rowAt (head : ℤ) (i : ℕ) : ℤ := head + cvbEntryWords * i

/-- `entry->freq`, a `u64` -/
def rowFreq (w : Words) (entry : ℤ) : ℕ := (w entry).toNat + 2 ^ 32 * (w (entry + 1)).toNat

def cpuMaxVoltRow (cpuMaxVolt : ℕ) (entry : ℤ) : PatchM Unit := do
  let w ← image
  if rowFreq w entry ≥ cpuFreqThreshold then
    if isMariko then patchOffset (entry + cvbPllC0) (BitVec.ofNat 32 (cpuMaxVolt * 1000)) else pure ()
  else pure ()

def cpuFreqCvbTable (ptr : ℤ) : PatchM Unit := do
  let defaultTable := cpuCvbTableDefault isMariko
  let customizeTable := cpuCustomizeTable isMariko C
  let cpuMaxVolt := if isMariko then C.marikoCpuMaxVolt else C.eristaCpuMaxVolt
  let head := tableHead ptr defaultTable
  let w ← image
  rUnless (matchesAt w head (tableWords defaultTable)) .invalidCpuDvfs
  copyTo head (tableWords customizeTable)
  if cpuMaxVolt ≠ 0 then
    forEach (fun i => cpuMaxVoltRow isMariko cpuMaxVolt (rowAt head i)) (List.range (getDvfsTableEntryCount customizeTable))
  else pure ()

def clearCvbPllEntry (entry : ℤ) : PatchM Unit :=
  patchOffsets (entry + cvbPllC0) [(1, 0), (2, 0), (3, 0), (4, 0), (5, 0)]

def gpuOffsetRow (entry : ℤ) : PatchM Unit := do
  let w ← image
  patchOffset (entry + cvbPllC0) (w (entry + cvbPllC0) - BitVec.ofNat 32 (C.commonGpuVoltOffset * 1000))

def gpuVoltRow (i : ℕ) (entry : ℤ) : PatchM Unit :=
  if gpuVoltArray isMariko C i ≠ 0 then do
    patchOffset (entry + cvbPllC0) (BitVec.ofNat 32 (gpuVoltArray isMariko C i * 1000))
    clearCvbPllEntry entry
  else gpuOffsetRow C entry

def gpuFreqCvbTable (ptr : ℤ) : PatchM Unit := do
  let defaultTable := gpuCvbTableDefault isMariko
  let customizeTable := gpuCustomizeTable isMariko C
  let rows := List.range (getDvfsTableEntryCount customizeTable)
  let head := tableHead ptr defaultTable
  let w ← image
  rUnless (matchesAt w head (tableWords defaultTable)) .invalidGpuDvfs
  copyTo head (tableWords customizeTable)
  forEach (fun i => gpuVoltRow isMariko C i (rowAt head i)) rows
  if C.commonGpuVoltOffset ≠ 0 ∧ (if isMariko then C.marikoGpuUV else C.eristaGpuUV) = 0 then
    forEach (fun i => gpuOffsetRow C (rowAt head i)) rows
  else pure ()

/-! ## The GPU maximum -/

def gpuAsmPattern0 : BitVec 32 := 0x52820000
def gpuAsmPattern1 : BitVec 32 := 0x72A001C0

def gpuMaxClockPatternFn (w : Words) (ptr32 : ℤ) : Bool := asmCompareNoRd (w ptr32) gpuAsmPattern0

/-- both SoCs have this function, each with its own tables -/
def gpuFreqMaxAsm (ptr32 : ℤ) : PatchM Unit := do
  let w ← image
  let ins1 := w ptr32
  let ins2 := w (ptr32 + 1)
  rUnless (asmCompareNoRd ins1 gpuAsmPattern0 && asmCompareNoRd ins2 gpuAsmPattern1) .invalidGpuFreqMaxPattern
  rUnless (asmGetRd ins1 = asmGetRd ins2) .invalidGpuFreqMaxPattern
  let maxClock ← orCrash (dvfsMaxFreq (gpuCustomizeTable isMariko C))
  patchOffset ptr32 (asmSetRd (asmSetImm16 gpuAsmPattern0 (BitVec.ofNat 16 maxClock)) (asmGetRd ins1))
  patchOffset (ptr32 + 1) (asmSetRd (asmSetImm16 gpuAsmPattern1 (BitVec.ofNat 16 (maxClock / 2 ^ 16))) (asmGetRd ins1))

/-- `clk_pll_param` has 18 words -/
def gpuFreqPllMax (ptr : ℤ) : PatchM Unit := do
  let w ← image
  rUnless (matchesAt w (ptr + 1) (List.replicate 17 0)) .invalidGpuPllEntry
  patchOffset ptr (w ptr * 2)

/-! ## Memory -/

/-- `entry->freq` is the word found, `entry->vco_max` six behind it -/
def memFreqPllmLimit (ptr : ℤ) : PatchM Unit := do
  let w ← image
  rUnless (w ptr = w (ptr + 6)) .invalidMemPllmEntry
  patchOffset ptr (w ptr * 2)
  patchOffset (ptr + 6) (w ptr * 2)

/-- the validator of a `regulator` of type 1: `id` is a `u64` -/
def validRegulator (w : Words) (entry : ℤ) : Bool :=
  w entry = 1 && w (entry + 1) = 0 && w (entry + 4) = 1 && w (entry + 5) = 0x17 && w (entry + 6) = 12500 &&
    w (entry + 7) = 600000

/-- the word found is `default_uv` or `max_uv` -/
def memVoltHandler (ptr : ℤ) : PatchM Unit := do
  let w ← image
  rUnless (validRegulator w (ptr - 8) || validRegulator w (ptr - 9)) .invalidRegulatorEntry
  if C.commonEmcMemVolt = 0 then pure ()
  else patchOffset ptr (BitVec.ofNat 32 (C.commonEmcMemVolt / 12500 * 12500))

/-! ## None of them writes before it has validated -/

instance (cpuMaxVolt : ℕ) (entry : ℤ) : Sure Failed (cpuMaxVoltRow isMariko cpuMaxVolt entry) := by
  unfold cpuMaxVoltRow
  infer_instance

instance (entry : ℤ) : Sure Failed (gpuOffsetRow C entry) := by
  unfold gpuOffsetRow
  infer_instance

instance (i : ℕ) (entry : ℤ) : Sure Failed (gpuVoltRow isMariko C i entry) := by
  unfold gpuVoltRow clearCvbPllEntry
  infer_instance

instance (ptr : ℤ) : Clean Failed (cpuFreqCvbTable isMariko C ptr) := by
  unfold cpuFreqCvbTable
  infer_instance

instance (ptr : ℤ) : Clean Failed (gpuFreqCvbTable isMariko C ptr) := by
  unfold gpuFreqCvbTable
  infer_instance

instance (ptr : ℤ) : Clean Failed (gpuFreqMaxAsm isMariko C ptr) := by
  unfold gpuFreqMaxAsm
  infer_instance

instance (ptr : ℤ) : Clean Failed (gpuFreqPllMax ptr) := by
  unfold gpuFreqPllMax
  infer_instance

instance (ptr : ℤ) : Clean Failed (memFreqPllmLimit ptr) := by
  unfold memFreqPllmLimit
  infer_instance

instance (ptr : ℤ) : Clean Failed (memVoltHandler C ptr) := by
  unfold memVoltHandler
  infer_instance

end Pcv

end RyazhaClk.Loader
