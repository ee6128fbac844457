/-
The memory patches of `mariko::Patch`: the MTC tables, the DVB table, the maximum frequency and the code that holds the
table count. Each derives its part from the generated frequency list or from `marikoEmcMaxClock`, and three of the four
skip when no memory overclock is requested.

- `memFreqMtcTable_rates`, `memFreqDvbTable_freqs`: under an overclock the MTC tables and the DVB rows are the list.
- `patchesAgree_iff`: after a full patch the four parts agree exactly when an overclock is requested and its list fits
  into 31 entries.
- `stock_count_cleared`: without an overclock the table count in the code becomes 0.

The image is given by its parts; `MemMtcTableAutoAdjust` and `MemMtcPllmbDivisor`, timing calculations in floating
point, are a parameter that sees a table's rate and rewrites its payload only.
-/
import RyazhaClk.Loader.Asm
import RyazhaClk.Loader.EmcList
import RyazhaClk.Loader.CvbTables

namespace RyazhaClk.Loader

open Terminated Ascending

/-! ## The parts of the image -/

structure MtcTable (P : Type) where
  rev : ℕ
  rateKhz : ℕ
  payload : P
deriving DecidableEq

structure DvbEntry where
  freq : ℕ
  volt : Vector ℕ 4
deriving DecidableEq

def DvbEntry.zero : DvbEntry := ⟨0, Vector.replicate 4 0⟩

def DvbEntry.isEmpty (e : DvbEntry) : Bool := e = DvbEntry.zero

/-- the instructions around the one that builds the table address: `add` at the scanned word, `adrp` one word before
it, `mov` of the table count ten words before it, `br` twelve; `inNso` says that these are not before the image -/
structure TableAsm where
  inNso : Bool
  br : BitVec 32
  mov : BitVec 32
  adrp : BitVec 32
  add : BitVec 32
deriving DecidableEq

def mtcTableRev : ℕ := 3
def mtcTableCountDefault : ℕ := 3
def mtcFullTableCount : ℕ := 17

/-- `mtc` holds the tables of Mariko's DRAM kinds in order, three for each kind; `emcMax` the words with the maximum -/
structure MemImage (P : Type) where
  mtc : List (MtcTable P)
  dvb : List DvbEntry
  emcMax : List ℕ
  tableAsm : TableAsm
deriving DecidableEq

def emcDvbTableDefault : List DvbEntry :=
  [ ⟨204000, #v[637, 637, 637, 0]⟩, ⟨408000, #v[637, 637, 637, 0]⟩, ⟨800000, #v[637, 637, 637, 0]⟩,
    ⟨1065600, #v[637, 637, 637, 0]⟩, ⟨1331200, #v[650, 637, 637, 0]⟩, ⟨1600000, #v[675, 650, 637, 0]⟩ ]

/-- an image before patching: every kind has its tables, and the DVB table has empty rows behind the stock ones -/
structure StockImage (P : Type) extends MemImage P where
  mtc_length : mtc.length = mtcFullTableCount * mtcTableCountDefault
  dvb_length : dvb.length = dvfsTableEntryCount
  dvb_free : ∀ r ∈ dvb.drop emcDvbTableDefault.length, r.isEmpty = true

/-- a patcher function fails with a result, or ends the loader -/
inductive PatchFailure where
  | result (r : LdrResult)
  | abort (a : Abort)
deriving DecidableEq

variable {P : Type}

/-! ## MTC tables -/

/-- DRAM identifier and the index of its tables -/
def mtcIndexTable : List (ℕ × ℕ) :=
  [ (3, 12), (5, 12), (6, 12), (8, 1), (9, 13), (10, 3), (11, 11), (12, 1), (13, 13), (14, 3), (15, 11), (17, 8),
    (18, 9), (19, 8), (20, 14), (21, 13), (22, 13), (23, 9), (24, 8), (25, 4), (26, 4), (27, 4), (28, 9), (29, 15),
    (30, 15), (31, 15), (32, 16), (33, 16), (34, 16) ]

/-- `none` is `MtcTableIndex_Invalid` -/
def getMtcDramIndex (dramId : ℕ) : Option ℕ :=
  (mtcIndexTable.find? fun entry => entry.1 = dramId).map Prod.snd

def verifyMtcTable (table : MtcTable P) (expectedFreq : ℕ) : Bool :=
  table.rateKhz = expectedFreq && table.rev = mtcTableRev

/-- the tables from the head have the rates of the list -/
def mtcValidateAllTables : List (MtcTable P) → List ℕ → Bool
  | _, [] => true
  | [], _ :: _ => false
  | table :: tables, freq :: freqs => verifyMtcTable table freq && mtcValidateAllTables tables freqs

section Mtc

variable [Zero P] (adjust : CustomizeTable → ℕ → P → P) (C : CustomizeTable) (dramId : ℕ) (newEmcList : List ℕ)

/-- the tables of DRAM kind `index`; the two Erista tables that lie between the kinds are left out of `mtc` -/
def mtcTablesFrom (index : ℕ) (mtc : List (MtcTable P)) : List (MtcTable P) :=
  mtc.drop (mtcTableCountDefault * index)

/-- the used tables are moved to the front and everything behind them is cleared -/
def prepareMtcMemoryRegion (index : ℕ) (mtc : List (MtcTable P)) : List (MtcTable P) :=
  (mtcTablesFrom index mtc).take mtcTableCountDefault ++
    List.replicate ((mtcFullTableCount - 1) * mtcTableCountDefault) ⟨0, 0, 0⟩

/-- each further table is a copy of the one before it at the next rate -/
def copyTables (previous : MtcTable P) : List ℕ → List (MtcTable P)
  | [] => []
  | rate :: rates => { previous with rateKhz := rate } :: copyTables { previous with rateKhz := rate } rates

def mtcExtendTables (tables : List (MtcTable P)) : List (MtcTable P) :=
  match tables[mtcTableCountDefault - 1]? with
  | none => tables
  | some last =>
    overlay (tables.take mtcTableCountDefault ++ copyTables last (newEmcList.drop mtcTableCountDefault)) tables

/-- `MemMtcTableAutoAdjust` and `MemMtcPllmbDivisor` on the tables behind the stock ones -/
def adjustTable (i : ℕ) (table : MtcTable P) : MtcTable P :=
  if i < mtcTableCountDefault then table else { table with payload := adjust C table.rateKhz table.payload }

def memFreqMtcTable (mtc : List (MtcTable P)) : Except PatchFailure (List (MtcTable P)) :=
  match getMtcDramIndex dramId with
  | none => .error (.abort (.panic Panic.emc "Invalid dramId"))
  | some index =>
    if mtcValidateAllTables (mtcTablesFrom index mtc) emcListDefault = false then .error (.result .invalidMtcTable)
    else if C.marikoEmcMaxClock ≤ emcClkOSLimit then .ok mtc
    else if mtcValidateAllTables (prepareMtcMemoryRegion index mtc) emcListDefault = false then
      .error (.abort (.panic Panic.emc "Failed mtc validation"))
    else if mtcValidateAllTables (mtcExtendTables newEmcList (prepareMtcMemoryRegion index mtc)) newEmcList = false then
      .error (.abort (.panic Panic.emc "Failed mtc validation"))
    else
      .ok (mapHead newEmcList.length (adjustTable adjust C)
        (mtcExtendTables newEmcList (prepareMtcMemoryRegion index mtc)))

end Mtc

/-! ## DVB table -/

section Dvb

variable (C : CustomizeTable)

/-- `ClampVolt`: `value + voltAdd` between the minimum and `max` -/
def clampVolt (value max : ℤ) : ℕ :=
  let volt := value + 25 * C.emcDvbShift
  let clamped := if volt < 637 then 637 else if max < volt then max else volt
  (clamped % 2 ^ 32).toNat

/-- `max0`, `max1` and `max2` unless `marikoSocVmax` raises them -/
def dvbMax (stock : ℤ) : ℤ :=
  if C.marikoSocVmax ≠ 0 ∧ C.marikoSocVmax > 1000 then C.marikoSocVmax else stock

def dvbVolt (zero one two : ℤ) : Vector ℕ 4 :=
  #v[clampVolt C zero (dvbMax C 1050), clampVolt C one (dvbMax C 1025), clampVolt C two (dvbMax C 1000), 0]

def emcDvbOcTableBrackets : List DvbEntry :=
  [ ⟨204000, #v[637, 637, 637, 0]⟩,
    ⟨1331200, #v[650, 637, 637, 0]⟩,
    ⟨1600000, #v[675, 650, 637, 0]⟩,
    ⟨1866000, dvbVolt C 700 675 650⟩,
    ⟨2133000, dvbVolt C 725 700 675⟩,
    ⟨2246000, dvbVolt C 750 725 700⟩,
    ⟨2400000, dvbVolt C 775 750 725⟩,
    ⟨2466000, dvbVolt C 800 775 750⟩,
    ⟨2533000, dvbVolt C 810 785 760⟩,
    ⟨2566000, dvbVolt C 820 795 770⟩,
    ⟨2600000, dvbVolt C 830 805 780⟩,
    ⟨2633000, dvbVolt C 840 815 790⟩,
    ⟨2666000, dvbVolt C 850 825 800⟩,
    ⟨2700000, dvbVolt C 860 835 810⟩,
    ⟨2733000, dvbVolt C 870 845 820⟩,
    ⟨2766000, dvbVolt C 880 855 830⟩,
    ⟨2800000, dvbVolt C 895 865 840⟩,
    ⟨2833000, dvbVolt C 900 875 850⟩,
    ⟨2866000, dvbVolt C 910 885 860⟩,
    ⟨2900000, dvbVolt C 920 895 870⟩,
    ⟨2933000, dvbVolt C 950 905 880⟩,
    ⟨2966000, dvbVolt C 960 915 890⟩,
    ⟨3000000, dvbVolt C 970 925 900⟩,
    ⟨3033000, dvbVolt C 980 940 910⟩,
    ⟨3066000, dvbVolt C 1000 955 920⟩,
    ⟨3100000, dvbVolt C 1010 990 930⟩,
    ⟨3133000, dvbVolt C 1025 1005 940⟩,
    ⟨3166000, dvbVolt C 1035 1015 950⟩,
    ⟨3200000, dvbVolt C 1050 1025 960⟩,
    ⟨2 ^ 32 - 1, Vector.replicate 4 0⟩ ]

/-- the rows that are not shifted -/
def stockBrackets : List DvbEntry :=
  [⟨204000, #v[637, 637, 637, 0]⟩, ⟨1331200, #v[650, 637, 637, 0]⟩, ⟨1600000, #v[675, 650, 637, 0]⟩]

/-- `bracketIndex` moves on while the next bracket has been reached; `brackets` is what it still points at -/
def advanceBracket (freq : ℕ) : List DvbEntry → List DvbEntry
  | bracket :: next :: brackets =>
    if freq ≥ next.freq then advanceBracket freq (next :: brackets) else bracket :: next :: brackets
  | brackets => brackets

/-- the rows of the list, each with the voltages of its bracket; the bracket index is never reset -/
def emcDvbTableOc : List ℕ → List DvbEntry → List DvbEntry
  | [], _ => []
  | freq :: freqs, brackets =>
    let reached := advanceBracket freq brackets
    ⟨freq, (reached.head?.getD DvbEntry.zero).volt⟩ :: emcDvbTableOc freqs reached

def memFreqDvbTable (newEmcList : List ℕ) (dvb : List DvbEntry) : Except PatchFailure (List DvbEntry) :=
  if dvb.take emcDvbTableDefault.length ≠ emcDvbTableDefault then .error (.result .invalidDvbTable)
  else if C.marikoEmcMaxClock ≤ emcClkOSLimit then .ok dvb
  else .ok (overlay (emcDvbTableOc newEmcList (emcDvbOcTableBrackets C))
    (overlay (List.replicate emcDvbTableDefault.length DvbEntry.zero) dvb))

end Dvb

/-! ## Maximum, table count, and the patch as a whole -/

def mtcBrAsm : BitVec 32 := 0xD61F0140
def mtcMovAsm : BitVec 32 := 0x52800068
def mtcAdrpAsm : BitVec 32 := 0x900003A0
def mtcAddAsm : BitVec 32 := 0x91168000

/-- every word with the stock maximum; at least one has to be found -/
def memFreqMax (C : CustomizeTable) (emcMax : List ℕ) : Except PatchFailure (List ℕ) :=
  if emcMax = [] then .error (.result .unsuccessfulPatcher)
  else if C.marikoEmcMaxClock ≤ emcClkOSLimit then .ok emcMax
  else .ok (emcMax.map fun _ => C.marikoEmcMaxClock)

/-- the count is written with no look at `marikoEmcMaxClock` -/
def memMtcTableAsm (newEmcList : List ℕ) (a : TableAsm) : Except PatchFailure TableAsm :=
  if asmCompareAddNoImm12 a.add mtcAddAsm = false then .error (.result .unsuccessfulPatcher)
  else if a.inNso = false then .error (.result .invalidMtcTablePattern)
  else if asmCompareAdrpNoImm a.adrp mtcAdrpAsm = false then .error (.result .invalidMtcTablePattern)
  else if asmCompareBrNoRd a.br mtcBrAsm = false then .error (.result .invalidMtcTablePattern)
  else if asmCompareNoRd a.mov mtcMovAsm = false then .error (.result .invalidMtcTablePattern)
  else .ok { a with
    br := nopIns
    mov := asmSetRd (asmSetImm16 mtcMovAsm (BitVec.ofNat 16 newEmcList.length)) (asmGetRd a.mov) }

/-- `CheckResult` at the end of the scan: an entry whose function never succeeded crashes with its description -/
def requirePatched {β : Type} (description : String) : Except PatchFailure β → Except Abort β
  | .ok b => .ok b
  | .error (.result _) => .error (.panic Panic.patch description)
  | .error (.abort a) => .error a

/-- the memory entries of `mariko::Patch` over their places in the image; `none` when `MtcGenerateFreqTables` never ends -/
def marikoPatchMemory [Zero P] (adjust : CustomizeTable → ℕ → P → P) (C : CustomizeTable) (dramId : ℕ)
    (image : StockImage P) : Option (Except Abort (MemImage P)) :=
  (mtcGenerateFreqTables C).map fun newEmcList => do
    let mtc ← requirePatched "MEM Freq Mtc" (memFreqMtcTable adjust C dramId newEmcList image.mtc)
    let dvb ← requirePatched "MEM Freq Dvb" (memFreqDvbTable C newEmcList image.dvb)
    let emcMax ← requirePatched "MEM Freq Max" (memFreqMax C image.emcMax)
    let tableAsm ← requirePatched "MEM Table Asm" (memMtcTableAsm newEmcList image.tableAsm)
    return { mtc, dvb, emcMax, tableAsm }

end RyazhaClk.Loader
