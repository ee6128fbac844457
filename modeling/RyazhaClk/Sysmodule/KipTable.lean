/-
The table of a KIP file (`kip.hpp`): its fields and layout, the search for it in the file, and the two lists by which
`SetKipData` writes it from the configuration and `GetKipData` reads it back.

- `custFindOffset_eq_some_iff`: the search by windows finds the first magic of the file.
- `custReadTable_written`: behind a write the reader finds the table that was written.
- `fieldOf_storeFields`: a stored value is loaded back into its key, cut to 32 bits.
-/
import Mathlib.Tactic
import RyazhaClk.Lib.Layout
import RyazhaClk.Lib.WordBytes
import RyazhaClk.Sysmodule.ConfigWrite

namespace RyazhaClk

open Layout WordBytes

/-! ## The table -/

/-- the fields of the table, under the names of the sysmodule's declaration and of the loader's -/
inductive CustField where
  | cust
  | custRev
  | kipVersion
  | hpMode
  | commonEmcMemVolt
  | eristaEmcMaxClock
  | eristaEmcMaxClock1
  | eristaEmcMaxClock2
  | stepMode
  | marikoEmcMaxClock
  | marikoEmcVddqVolt
  | emcDvbShift
  | marikoSocVmax
  | t1_tRCD
  | t2_tRP
  | t3_tRAS
  | t4_tRRD
  | t5_tRFC
  | t6_tRTW
  | t7_tWTR
  | t8_tREFI
  | t2_tRP_cap
  | timingEmcTbreak
  | low_t6_tRTW
  | low_t7_tWTR
  | readLatency
  | writeLatency
  | readLatency1333
  | readLatency1600
  | readLatency1866
  | readLatency2133
  | writeLatency1333
  | writeLatency1600
  | writeLatency1866
  | writeLatency2133
  | mem_burst_read_latency
  | mem_burst_write_latency
  | eristaCpuUV
  | eristaCpuVmin
  | eristaCpuMaxVolt
  | eristaCpuUnlock
  | marikoCpuUVLow
  | marikoCpuUVHigh
  | tableConf
  | marikoCpuLowVmin
  | marikoCpuHighVmin
  | marikoCpuMaxVolt
  | marikoCpuMaxClock
  | eristaCpuBoostClock
  | marikoCpuBoostClock
  | eristaGpuUV
  | eristaGpuVmin
  | marikoGpuUV
  | marikoGpuVmin
  | marikoGpuBootVolt
  | marikoGpuVmax
  | commonGpuVoltOffset
  | gpuSpeedo
  | eristaGpuVoltArray
  | marikoGpuVoltArray
  | t6_tRTW_fine_tune
  | t7_tWTR_fine_tune
  | fineTune_t6_tRTW
  | fineTune_t7_tWTR
  | reserved
deriving DecidableEq

/-- the sysmodule's `CustomizeTable`; `cust` is one word -/
def kipLayout : List (CustField × ℕ) :=
  [(.cust, 1), (.custRev, 1), (.kipVersion, 1), (.hpMode, 1), (.commonEmcMemVolt, 1), (.eristaEmcMaxClock, 1),
   (.stepMode, 1), (.marikoEmcMaxClock, 1), (.marikoEmcVddqVolt, 1), (.emcDvbShift, 1), (.marikoSocVmax, 1),
   (.t1_tRCD, 1), (.t2_tRP, 1), (.t3_tRAS, 1), (.t4_tRRD, 1), (.t5_tRFC, 1), (.t6_tRTW, 1), (.t7_tWTR, 1),
   (.t8_tREFI, 1), (.t2_tRP_cap, 1), (.timingEmcTbreak, 1), (.low_t6_tRTW, 1), (.low_t7_tWTR, 1),
   (.readLatency1333, 1), (.readLatency1600, 1), (.readLatency1866, 1), (.readLatency2133, 1),
   (.writeLatency1333, 1), (.writeLatency1600, 1), (.writeLatency1866, 1), (.writeLatency2133, 1),
   (.eristaCpuUV, 1), (.eristaCpuVmin, 1), (.eristaCpuMaxVolt, 1), (.eristaCpuUnlock, 1), (.marikoCpuUVLow, 1),
   (.marikoCpuUVHigh, 1), (.tableConf, 1), (.marikoCpuLowVmin, 1), (.marikoCpuHighVmin, 1), (.marikoCpuMaxVolt, 1),
   (.marikoCpuMaxClock, 1), (.eristaCpuBoostClock, 1), (.marikoCpuBoostClock, 1), (.eristaGpuUV, 1),
   (.eristaGpuVmin, 1), (.marikoGpuUV, 1), (.marikoGpuVmin, 1), (.marikoGpuBootVolt, 1), (.marikoGpuVmax, 1),
   (.commonGpuVoltOffset, 1), (.eristaGpuVoltArray, 27), (.marikoGpuVoltArray, 24), (.t6_tRTW_fine_tune, 1),
   (.t7_tWTR_fine_tune, 1), (.reserved, 60)]

/-- `sizeof(CustomizeTable)` -/
def kipTableBytes : ℕ := 4 * size kipLayout

/-- the revision and version the sysmodule is built with -/
def CUST_REV : ℕ := 4

def KIP_VERSION : ℕ := 240

/-! ## The file -/

/-- `CUST_MAGIC` -/
def custMagic : List UInt8 := [0x43, 0x55, 0x53, 0x54]

def magicAt (bytes : List UInt8) (i : ℕ) : Bool := (bytes.drop i).take 4 == custMagic

/-- the loop of `cust_find_offset`: windows of 512 bytes, each overlapping the last by three -/
def custFindFrom (bytes : List UInt8) : ℕ → ℕ → Option ℕ
  | 0, _ => none
  | fuel + 1, pos =>
    let r := min 512 (bytes.length - pos)
    if r < 4 then none
    else
      match (List.range (r - 3)).find? fun i => magicAt bytes (pos + i) with
      | some i => some (pos + i)
      | none => custFindFrom bytes fuel (pos + (r - 3))

/-- every window moves on by at least one byte -/
def custFindOffset (bytes : List UInt8) : Option ℕ := custFindFrom bytes (bytes.length + 1) 0

/-- `cust_read_table` -/
def custReadTable (bytes : List UInt8) : Option (List ℕ) :=
  (custFindOffset bytes).bind fun off =>
    if bytes.length < off + kipTableBytes then none
    else
      let out := (bytes.drop off).take kipTableBytes
      if out.take 4 = custMagic then some (toWords out) else none

/-- what the file system makes of a write: whether the file opens for writing, and how many bytes `fwrite` stores -/
structure KipIo where
  opens : Bool
  stored : ℕ

/-- `cust_write_table`, with the file it leaves -/
def custWriteTable (io : KipIo) (bytes : List UInt8) (table : List ℕ) : Bool × List UInt8 :=
  if !io.opens then (false, bytes)
  else
    match custFindOffset bytes with
    | none => (false, bytes)
    | some off =>
      if bytes.length < off + kipTableBytes then (false, bytes)
      else
        let n := min io.stored kipTableBytes
        (n == kipTableBytes, bytes.take off ++ (ofWords table).take n ++ bytes.drop (off + n))

/-- one byte of the checksum -/
def crcByte (crc : UInt32) (b : UInt8) : UInt32 :=
  (List.range 8).foldl (fun crc _ => (crc >>> 1) ^^^ (0xEDB88320 &&& -(crc &&& 1))) (crc ^^^ b.toUInt32)

/-- `checksum_file` -/
def checksumFile (bytes : List UInt8) : ℕ := (~~~ (bytes.foldl crcByte 0xFFFFFFFF)).toNat

/-! ## Fields and keys -/

/-- the key `i` places behind `kval` in the enumeration -/
def HocClkConfigValue.plus (kval : HocClkConfigValue) (i : ℕ) : HocClkConfigValue :=
  (HocClkConfigValue.all[kval.ctorIdx + i]?).getD kval

/-- the fields `SetKipData` writes in front of the arrays and the keys it takes them from, in its order -/
def kipScalarStores : List (CustField × HocClkConfigValue) :=
  [(.hpMode, .hpMode), (.commonEmcMemVolt, .commonEmcMemVolt), (.eristaEmcMaxClock, .eristaEmcMaxClock),
   (.marikoEmcMaxClock, .marikoEmcMaxClock), (.marikoEmcVddqVolt, .marikoEmcVddqVolt), (.emcDvbShift, .emcDvbShift),
   (.marikoSocVmax, .marikoSocVmax), (.t1_tRCD, .t1_tRCD), (.t2_tRP, .t2_tRP), (.t3_tRAS, .t3_tRAS),
   (.t4_tRRD, .t4_tRRD), (.t5_tRFC, .t5_tRFC), (.t6_tRTW, .t6_tRTW), (.t7_tWTR, .t7_tWTR), (.t8_tREFI, .t8_tREFI),
   (.stepMode, .stepMode), (.timingEmcTbreak, .timingEmcTbreak), (.low_t6_tRTW, .low_t6_tRTW),
   (.low_t7_tWTR, .low_t7_tWTR), (.t2_tRP_cap, .t2_tRP_cap), (.readLatency1333, .read_latency_1333),
   (.readLatency1600, .read_latency_1600), (.readLatency1866, .read_latency_1866),
   (.readLatency2133, .read_latency_2133), (.writeLatency1333, .write_latency_1333),
   (.writeLatency1600, .write_latency_1600), (.writeLatency1866, .write_latency_1866),
   (.writeLatency2133, .write_latency_2133), (.eristaCpuUV, .eristaCpuUV), (.eristaCpuVmin, .eristaCpuVmin),
   (.eristaCpuMaxVolt, .eristaCpuMaxVolt), (.eristaCpuUnlock, .eristaCpuUnlock), (.marikoCpuUVLow, .marikoCpuUVLow),
   (.marikoCpuUVHigh, .marikoCpuUVHigh), (.tableConf, .tableConf), (.marikoCpuLowVmin, .marikoCpuLowVmin),
   (.marikoCpuHighVmin, .marikoCpuHighVmin), (.marikoCpuMaxVolt, .marikoCpuMaxVolt),
   (.marikoCpuMaxClock, .marikoCpuMaxClock), (.eristaCpuBoostClock, .eristaCpuBoostClock),
   (.marikoCpuBoostClock, .marikoCpuBoostClock), (.eristaGpuUV, .eristaGpuUV), (.eristaGpuVmin, .eristaGpuVmin),
   (.marikoGpuUV, .marikoGpuUV), (.marikoGpuVmin, .marikoGpuVmin), (.marikoGpuBootVolt, .marikoGpuBootVolt),
   (.marikoGpuVmax, .marikoGpuVmax), (.commonGpuVoltOffset, .commonGpuVoltOffset)]

/-- its two loops over the voltage arrays -/
def kipArrayStores : List ((CustField × ℕ) × HocClkConfigValue) :=
  (List.range 24).map (fun i => ((CustField.marikoGpuVoltArray, i), HocClkConfigValue.g_volt_76800.plus i)) ++
  (List.range 27).map (fun i => ((CustField.eristaGpuVoltArray, i), HocClkConfigValue.g_volt_e_76800.plus i))

/-- the fields behind them -/
def kipLastStores : List (CustField × HocClkConfigValue) :=
  [(.t6_tRTW_fine_tune, .t6_tRTW_fine_tune), (.t7_tWTR_fine_tune, .t7_tWTR_fine_tune)]

/-- everything `SetKipData` writes -/
def kipStores : List ((CustField × ℕ) × HocClkConfigValue) :=
  kipScalarStores.map (fun s => ((s.1, 0), s.2)) ++ kipArrayStores ++ kipLastStores.map (fun s => ((s.1, 0), s.2))

/-- the keys `GetKipData` loads behind the revision and version, and the fields it takes them from, in its order -/
def kipScalarLoads : List (HocClkConfigValue × CustField) :=
  [(.hpMode, .hpMode), (.commonEmcMemVolt, .commonEmcMemVolt), (.eristaEmcMaxClock, .eristaEmcMaxClock),
   (.marikoEmcMaxClock, .marikoEmcMaxClock), (.marikoEmcVddqVolt, .marikoEmcVddqVolt), (.emcDvbShift, .emcDvbShift),
   (.marikoSocVmax, .marikoSocVmax), (.t1_tRCD, .t1_tRCD), (.t2_tRP, .t2_tRP), (.t3_tRAS, .t3_tRAS),
   (.t4_tRRD, .t4_tRRD), (.t5_tRFC, .t5_tRFC), (.t6_tRTW, .t6_tRTW), (.t7_tWTR, .t7_tWTR), (.t8_tREFI, .t8_tREFI),
   (.stepMode, .stepMode), (.timingEmcTbreak, .timingEmcTbreak), (.low_t6_tRTW, .low_t6_tRTW),
   (.low_t7_tWTR, .low_t7_tWTR), (.t2_tRP_cap, .t2_tRP_cap), (.read_latency_1333, .readLatency1333),
   (.read_latency_1600, .readLatency1600), (.read_latency_1866, .readLatency1866),
   (.read_latency_2133, .readLatency2133), (.write_latency_1333, .writeLatency1333),
   (.write_latency_1600, .writeLatency1600), (.write_latency_1866, .writeLatency1866),
   (.write_latency_2133, .writeLatency2133), (.eristaCpuUV, .eristaCpuUV), (.eristaCpuVmin, .eristaCpuVmin),
   (.eristaCpuMaxVolt, .eristaCpuMaxVolt), (.eristaCpuUnlock, .eristaCpuUnlock), (.marikoCpuUVLow, .marikoCpuUVLow),
   (.marikoCpuUVHigh, .marikoCpuUVHigh), (.tableConf, .tableConf), (.marikoCpuLowVmin, .marikoCpuLowVmin),
   (.marikoCpuHighVmin, .marikoCpuHighVmin), (.marikoCpuMaxVolt, .marikoCpuMaxVolt),
   (.marikoCpuMaxClock, .marikoCpuMaxClock), (.eristaCpuBoostClock, .eristaCpuBoostClock),
   (.marikoCpuBoostClock, .marikoCpuBoostClock), (.eristaGpuUV, .eristaGpuUV), (.eristaGpuVmin, .eristaGpuVmin),
   (.marikoGpuUV, .marikoGpuUV), (.marikoGpuVmin, .marikoGpuVmin), (.marikoGpuBootVolt, .marikoGpuBootVolt),
   (.marikoGpuVmax, .marikoGpuVmax), (.commonGpuVoltOffset, .commonGpuVoltOffset)]

def kipArrayLoads : List (HocClkConfigValue × (CustField × ℕ)) :=
  (List.range 24).map (fun i => (HocClkConfigValue.g_volt_76800.plus i, (CustField.marikoGpuVoltArray, i))) ++
  (List.range 27).map (fun i => (HocClkConfigValue.g_volt_e_76800.plus i, (CustField.eristaGpuVoltArray, i)))

def kipLastLoads : List (HocClkConfigValue × CustField) :=
  [(.t7_tWTR_fine_tune, .t7_tWTR_fine_tune), (.t6_tRTW_fine_tune, .t6_tRTW_fine_tune)]

/-- everything `GetKipData` loads behind the revision and version -/
def kipLoads : List (HocClkConfigValue × (CustField × ℕ)) :=
  kipScalarLoads.map (fun l => (l.1, (l.2, 0))) ++ kipArrayLoads ++ kipLastLoads.map (fun l => (l.1, (l.2, 0)))

/-- the keys a KIP file backs -/
def kipKeys : List HocClkConfigValue := kipStores.map Prod.snd

/-- `SetKipData`'s writes into the table: a field has 32 bits -/
def storeFields (values : HocClkConfigValue → ℕ) (table : List ℕ) : List ℕ :=
  store kipLayout (kipStores.map fun s => (s.1, values s.2 % 2 ^ 32)) table

/-- `GetKipData`'s reads from the table -/
def loadFields (table : List ℕ) (values : HocClkConfigValue → ℕ) : HocClkConfigValue → ℕ :=
  kipLoads.foldl (fun v l => Function.update v l.1 (read kipLayout table l.2)) values

/-! ## Finding the table -/

theorem length_of_magicAt {bytes : List UInt8} {i : ℕ} (h : magicAt bytes i = true) : i + 4 ≤ bytes.length := by
  have hlen := congrArg List.length (eq_of_beq h)
  rw [List.length_take, List.length_drop] at hlen
  have hmagic : custMagic.length = 4 := rfl
  omega

/-- the first magic from `pos` on -/
def FirstMagic (bytes : List UInt8) (pos off : ℕ) : Prop :=
  pos ≤ off ∧ magicAt bytes off = true ∧ ∀ j, pos ≤ j → j < off → magicAt bytes j = false

/-- no magic fits behind the end -/
theorem not_firstMagic_of_end {bytes : List UInt8} {pos off : ℕ} (hshort : bytes.length < pos + 4) :
    ¬ FirstMagic bytes pos off := by
  intro h
  have hlen := length_of_magicAt h.2.1
  have hpos := h.1
  omega

theorem FirstMagic.unique {bytes : List UInt8} {pos off off' : ℕ} (h : FirstMagic bytes pos off)
    (h' : FirstMagic bytes pos off') : off = off' := by
  rcases Nat.lt_trichotomy off off' with hlt | heq | hgt
  · exact absurd h.2.1 (by simp [h'.2.2 off h.1 hlt])
  · exact heq
  · exact absurd h'.2.1 (by simp [h.2.2 off' h'.1 hgt])

/-- the search may start behind `n` bytes at which there is none -/
theorem firstMagic_skip {bytes : List UInt8} {pos off n : ℕ}
    (hnone : ∀ j, pos ≤ j → j < pos + n → magicAt bytes j = false) :
    FirstMagic bytes (pos + n) off ↔ FirstMagic bytes pos off := by
  constructor
  · intro h
    obtain ⟨hpos, hmagic, hbefore⟩ := h
    refine ⟨by omega, hmagic, ?_⟩
    intro j hj hlt
    by_cases hwin : j < pos + n
    · exact hnone j hj hwin
    · exact hbefore j (by omega) hlt
  · intro h
    obtain ⟨hpos, hmagic, hbefore⟩ := h
    refine ⟨?_, hmagic, fun j hj hlt => hbefore j (by omega) hlt⟩
    by_contra hlt
    exact absurd hmagic (by simp [hnone off hpos (by omega)])

/-- what a window finds is the first magic -/
theorem firstMagic_of_find {bytes : List UInt8} {pos n i : ℕ}
    (h : (List.range n).find? (fun i => magicAt bytes (pos + i)) = some i) : FirstMagic bytes pos (pos + i) := by
  obtain ⟨hi, -, hbefore⟩ := List.find?_range_eq_some.1 h
  refine ⟨by omega, hi, ?_⟩
  intro j hj hlt
  have hnot := hbefore (j - pos) (by omega)
  rw [show pos + (j - pos) = j by omega] at hnot
  simpa using hnot

theorem magicAt_of_find_none {bytes : List UInt8} {pos n : ℕ}
    (h : (List.range n).find? (fun i => magicAt bytes (pos + i)) = none) (j : ℕ) (hj : pos ≤ j) (hlt : j < pos + n) :
    magicAt bytes j = false := by
  have hnot := List.find?_eq_none.1 h (j - pos) (List.mem_range.2 (by omega))
  rw [show pos + (j - pos) = j by omega] at hnot
  simpa using hnot

/-- the induction is on the fuel: a window that finds nothing is skipped -/
theorem custFindFrom_eq_some_iff {bytes : List UInt8} {fuel pos off : ℕ} (hfuel : bytes.length < fuel + pos) :
    custFindFrom bytes fuel pos = some off ↔ FirstMagic bytes pos off := by
  induction fuel generalizing pos with
  | zero => exact iff_of_false (by simp [custFindFrom]) (not_firstMagic_of_end (by omega))
  | succ fuel ih =>
    rw [custFindFrom]
    by_cases hr : min 512 (bytes.length - pos) < 4
    · rw [if_pos hr]
      exact iff_of_false (by simp) (not_firstMagic_of_end (by omega))
    · rw [if_neg hr]
      cases hfind : (List.range (min 512 (bytes.length - pos) - 3)).find? fun i => magicAt bytes (pos + i) with
      | some i =>
        have hfirst := firstMagic_of_find hfind
        constructor
        · intro h
          exact Option.some.inj h ▸ hfirst
        · intro h
          exact congrArg some (hfirst.unique h)
      | none =>
        dsimp only
        rw [ih (by omega), firstMagic_skip (magicAt_of_find_none hfind)]

/-- **The windows miss nothing**: the search finds the first magic of the file. -/
theorem custFindOffset_eq_some_iff {bytes : List UInt8} {off : ℕ} :
    custFindOffset bytes = some off ↔ magicAt bytes off = true ∧ ∀ j, j < off → magicAt bytes j = false := by
  rw [custFindOffset, custFindFrom_eq_some_iff (by omega)]
  constructor
  · rintro ⟨-, hmagic, hbefore⟩
    exact ⟨hmagic, fun j hj => hbefore j (by omega) hj⟩
  · rintro ⟨hmagic, hbefore⟩
    exact ⟨by omega, hmagic, fun j _ hj => hbefore j hj⟩

/-! ## Reading and writing -/

theorem size_kipLayout : size kipLayout = 164 := by decide

theorem kipTableBytes_eq : kipTableBytes = 656 := by decide

/-- what a read finds: the words behind the first magic -/
theorem custReadTable_eq_some_iff {bytes : List UInt8} {table : List ℕ} :
    custReadTable bytes = some table ↔ ∃ off, custFindOffset bytes = some off ∧ off + kipTableBytes ≤ bytes.length ∧
      table = toWords ((bytes.drop off).take kipTableBytes) := by
  unfold custReadTable
  constructor
  · intro h
    obtain ⟨off, hoff, h⟩ := Option.bind_eq_some_iff.1 h
    dsimp only at h
    split_ifs at h with hlen hmagic
    exact ⟨off, hoff, by omega, (Option.some.inj h).symm⟩
  · rintro ⟨off, hoff, hlen, rfl⟩
    have hmagic : ((bytes.drop off).take kipTableBytes).take 4 = custMagic := by
      rw [List.take_take, min_eq_left (by rw [kipTableBytes_eq]; decide)]
      exact eq_of_beq (custFindOffset_eq_some_iff.1 hoff).1
    rw [hoff, Option.bind_some]
    dsimp only
    rw [if_neg (by omega), if_pos hmagic]

/-- the bytes of the table that was read, and its words -/
theorem ofWords_table {bytes : List UInt8} {off : ℕ} (hlen : off + kipTableBytes ≤ bytes.length) :
    ofWords (toWords ((bytes.drop off).take kipTableBytes)) = (bytes.drop off).take kipTableBytes := by
  apply ofWords_toWords (n := size kipLayout)
  rw [List.length_take, List.length_drop]
  unfold kipTableBytes at *
  omega

theorem length_of_custReadTable {bytes : List UInt8} {table : List ℕ} (h : custReadTable bytes = some table) :
    table.length = size kipLayout := by
  obtain ⟨off, -, hlen, rfl⟩ := custReadTable_eq_some_iff.1 h
  apply length_toWords
  rw [List.length_take, List.length_drop]
  unfold kipTableBytes at *
  omega

theorem lt_of_custReadTable {bytes : List UInt8} {table : List ℕ} (h : custReadTable bytes = some table) :
    ∀ w ∈ table, w < 2 ^ 32 := by
  obtain ⟨off, -, -, rfl⟩ := custReadTable_eq_some_iff.1 h
  intro w hw
  exact toWords_lt hw

theorem magicAt_congr {bytes bytes' : List UInt8} {off i : ℕ} (h : bytes'.take (off + 4) = bytes.take (off + 4))
    (hi : i ≤ off) : magicAt bytes' i = magicAt bytes i := by
  have hwindow : ∀ b : List UInt8, (b.drop i).take 4 = ((b.take (off + 4)).take (i + 4)).drop i := by
    intro b
    rw [List.take_take, min_eq_left (by omega), List.drop_take, Nat.add_sub_cancel_left]
  unfold magicAt
  rw [hwindow, hwindow, h]

/-- the search does not look behind the first magic -/
theorem custFindOffset_congr {bytes bytes' : List UInt8} {off : ℕ} (hoff : custFindOffset bytes = some off)
    (h : bytes'.take (off + 4) = bytes.take (off + 4)) : custFindOffset bytes' = some off := by
  obtain ⟨hmagic, hbefore⟩ := custFindOffset_eq_some_iff.1 hoff
  rw [custFindOffset_eq_some_iff, magicAt_congr h le_rfl]
  refine ⟨hmagic, ?_⟩
  intro j hj
  rw [magicAt_congr h hj.le]
  exact hbefore j hj

/-- a table that begins like the one before it is found where that was -/
theorem custFindOffset_replaced {bytes table rest : List UInt8} {off : ℕ} (hoff : custFindOffset bytes = some off)
    (hle : off ≤ bytes.length) (hlen : 4 ≤ table.length) (hfour : table.take 4 = (bytes.drop off).take 4) :
    custFindOffset (bytes.take off ++ table ++ rest) = some off := by
  have hfront : (bytes.take off).length = off := List.length_take_of_le hle
  apply custFindOffset_congr hoff
  calc (bytes.take off ++ table ++ rest).take (off + 4) = bytes.take off ++ table.take 4 := by
        rw [List.append_assoc, List.take_append, hfront, List.take_of_length_le (by omega), Nat.add_sub_cancel_left,
          List.take_append_of_le_length hlen]
    _ = bytes.take off ++ (bytes.drop off).take 4 := by rw [hfour]
    _ = bytes.take (off + 4) := List.take_add.symm

/-- the first four bytes of a table are those of its first word -/
theorem take_four_ofWords {t u : List ℕ} (hlen : t.length = u.length) (hhead : t[0]? = u[0]?) :
    (ofWords t).take 4 = (ofWords u).take 4 := by
  cases t with
  | nil =>
    obtain rfl := List.length_eq_zero_iff.1 hlen.symm
    rfl
  | cons a t =>
    cases u with
    | nil => cases hlen
    | cons b u =>
      obtain rfl : a = b := by simpa using hhead
      have hcons : ∀ v : List ℕ, (ofWords (a :: v)).take 4 = bytesOf a := by
        intro v
        have hv : ofWords (a :: v) = bytesOf a ++ ofWords v := rfl
        rw [hv]
        exact List.take_left' rfl
      rw [hcons, hcons]

/-- **Behind a write the reader finds the table written**, when its first word is still the magic. -/
theorem custReadTable_written {io : KipIo} {bytes : List UInt8} {table t : List ℕ} (hread : custReadTable bytes = some table)
    (hlen : t.length = table.length) (hlt : ∀ w ∈ t, w < 2 ^ 32) (hhead : t[0]? = table[0]?)
    (hok : (custWriteTable io bytes t).1 = true) : custReadTable (custWriteTable io bytes t).2 = some t := by
  obtain ⟨off, hoff, hsize, htable⟩ := custReadTable_eq_some_iff.1 hread
  have hlen' : (ofWords t).length = kipTableBytes := by
    rw [length_ofWords, hlen, length_of_custReadTable hread, kipTableBytes]
  unfold custWriteTable at hok ⊢
  rw [hoff] at hok ⊢
  dsimp only at hok ⊢
  split_ifs at hok ⊢ with ho hs
  have hn : min io.stored kipTableBytes = kipTableBytes := by simpa using hok
  rw [hn, List.take_of_length_le hlen'.le]
  have hfront : (bytes.take off).length = off := by
    rw [List.length_take]
    omega
  have hfour : (ofWords t).take 4 = (bytes.drop off).take 4 := by
    rw [take_four_ofWords hlen hhead, htable, ofWords_table hsize, List.take_take,
      min_eq_left (by rw [kipTableBytes_eq]; decide)]
  have hfound : custFindOffset (bytes.take off ++ ofWords t ++ bytes.drop (off + kipTableBytes)) = some off :=
    custFindOffset_replaced hoff (by omega) (by rw [hlen', kipTableBytes_eq]; decide) hfour
  rw [custReadTable_eq_some_iff]
  refine ⟨off, hfound, ?_, ?_⟩
  · simp only [List.length_append, List.length_drop, hfront, hlen']
    omega
  · rw [List.append_assoc, List.drop_left' hfront, List.take_left' hlen', toWords_ofWords hlt]

/-- writing the table that is in the file changes nothing, however much of it is stored -/
theorem custWriteTable_same {bytes : List UInt8} {table : List ℕ} (hread : custReadTable bytes = some table) (io : KipIo) :
    (custWriteTable io bytes table).2 = bytes := by
  obtain ⟨off, hoff, hsize, rfl⟩ := custReadTable_eq_some_iff.1 hread
  unfold custWriteTable
  rw [hoff, ofWords_table hsize]
  dsimp only
  split_ifs
  · rfl
  · rfl
  · rw [List.take_take, min_eq_left (min_le_right _ _), ← List.take_add, List.take_append_drop]

/-! ## Stores and loads -/

theorem kipStores_nodup : (kipStores.map Prod.fst).Nodup := by decide +kernel

theorem kipLoads_nodup : (kipLoads.map Prod.fst).Nodup := by decide +kernel

/-- the two lists name the same pairs -/
theorem kipStores_loads : ∀ s ∈ kipStores, (s.2, s.1) ∈ kipLoads := by decide +kernel

/-- no pair is stored twice and there are no more loads than stores, so the loads name no others -/
theorem kipLoads_stores : ∀ l ∈ kipLoads, (l.2, l.1) ∈ kipStores := by
  have hnodup : (kipStores.map Prod.swap).Nodup := kipStores_nodup.of_map.map Prod.swap_injective
  have hsubset : kipStores.map Prod.swap ⊆ kipLoads := by
    intro l hl
    obtain ⟨s, hs, rfl⟩ := List.mem_map.1 hl
    exact kipStores_loads s hs
  have hperm := (hnodup.subperm hsubset).perm_of_length_le (by decide)
  intro l hl
  obtain ⟨s, hs, rfl⟩ := List.mem_map.1 (hperm.mem_iff.2 hl)
  exact hs

theorem kipStores_slot : ∀ s ∈ kipStores, (slot kipLayout s.1).isSome ∧ s.1.1 ≠ .cust ∧ s.1.1 ≠ .custRev ∧
    s.1.1 ≠ .kipVersion := by decide +kernel

/-- the keys behind `hpMode` have no check -/
theorem valid_of_hpMode_le {kval : HocClkConfigValue} (h : HocClkConfigValue.hpMode.ctorIdx ≤ kval.ctorIdx) (n : ℕ) :
    hocclkValidConfigValue kval n = true := by
  cases kval <;> first | rfl | exact absurd h (by decide)

theorem kipKeys_index : ∀ kval ∈ kipKeys, HocClkConfigValue.hpMode.ctorIdx ≤ kval.ctorIdx ∧
    kval.ctorIdx < HocClkConfigValue.kipCrc32.ctorIdx := by decide +kernel

theorem kipKeys_valid {kval : HocClkConfigValue} (h : kval ∈ kipKeys) (n : ℕ) : hocclkValidConfigValue kval n = true :=
  valid_of_hpMode_le (kipKeys_index kval h).1 n

theorem kipKeys_ne {kval : HocClkConfigValue} (h : kval ∈ kipKeys) :
    kval ≠ .kipCrc32 ∧ kval ≠ .isFirstLoad ∧ kval ≠ .custRev ∧ kval ≠ .kipVersion := by
  have hidx := kipKeys_index kval h
  refine ⟨?_, ?_, ?_, ?_⟩ <;>
  · rintro rfl
    exact absurd hidx (by decide)

theorem foldl_update_of_notMem {α β γ : Type*} [DecidableEq α] {ls : List (α × γ)} (val : γ → β) {k : α}
    (h : k ∉ ls.map Prod.fst) (v : α → β) : ls.foldl (fun v l => Function.update v l.1 (val l.2)) v k = v k := by
  induction ls generalizing v with
  | nil => rfl
  | cons l ls ih =>
    rw [List.map_cons, List.mem_cons, not_or] at h
    rw [List.foldl_cons, ih h.2, Function.update_of_ne h.1]

theorem foldl_update_of_mem {α β γ : Type*} [DecidableEq α] {ls : List (α × γ)} (val : γ → β) {k : α} {x : γ}
    (hnodup : (ls.map Prod.fst).Nodup) (h : (k, x) ∈ ls) (v : α → β) :
    ls.foldl (fun v l => Function.update v l.1 (val l.2)) v k = val x := by
  induction ls generalizing v with
  | nil => cases h
  | cons l ls ih =>
    rw [List.map_cons, List.nodup_cons] at hnodup
    rw [List.foldl_cons]
    rcases List.mem_cons.1 h with rfl | h
    · rw [foldl_update_of_notMem val hnodup.1]
      simp
    · exact ih hnodup.2 h _

theorem exists_place {fi : CustField × ℕ} {kval : HocClkConfigValue} (h : (fi, kval) ∈ kipStores) :
    ∃ k, slot kipLayout fi = some k := Option.isSome_iff_exists.1 (kipStores_slot (fi, kval) h).1

/-- no two slots are stored from one key -/
theorem kipStores_key_injective {r r' : (CustField × ℕ) × HocClkConfigValue} (h : r ∈ kipStores) (h' : r' ∈ kipStores)
    (hk : r.2 = r'.2) : r.1 = r'.1 := by
  have hpair := List.inj_on_of_nodup_map kipLoads_nodup (kipStores_loads r h) (kipStores_loads r' h') hk
  exact congrArg Prod.snd hpair

/-- a KIP key and the slot it is loaded from -/
theorem exists_slot {kval : HocClkConfigValue} (h : kval ∈ kipKeys) : ∃ fi, (fi, kval) ∈ kipStores ∧ (kval, fi) ∈ kipLoads := by
  obtain ⟨s, hs, rfl⟩ := List.mem_map.1 h
  exact ⟨s.1, hs, kipStores_loads s hs⟩

theorem loadFields_of_mem {kval : HocClkConfigValue} {fi : CustField × ℕ} (h : (kval, fi) ∈ kipLoads) (table : List ℕ)
    (values : HocClkConfigValue → ℕ) : loadFields table values kval = read kipLayout table fi :=
  foldl_update_of_mem (read kipLayout table) kipLoads_nodup h values

theorem loadFields_of_notMem {kval : HocClkConfigValue} (h : kval ∉ kipKeys) (table : List ℕ)
    (values : HocClkConfigValue → ℕ) : loadFields table values kval = values kval := by
  apply foldl_update_of_notMem (read kipLayout table)
  intro hmem
  obtain ⟨l, hl, rfl⟩ := List.mem_map.1 hmem
  exact h (List.mem_map_of_mem (kipLoads_stores l hl))

/-- what a KIP key finds in a table -/
def fieldOf (table : List ℕ) (kval : HocClkConfigValue) : ℕ := loadFields table (fun _ => 0) kval

theorem loadFields_eq (table : List ℕ) (values : HocClkConfigValue → ℕ) (kval : HocClkConfigValue) :
    loadFields table values kval = if kval ∈ kipKeys then fieldOf table kval else values kval := by
  split_ifs with h
  · obtain ⟨fi, -, hl⟩ := exists_slot h
    rw [fieldOf, loadFields_of_mem hl, loadFields_of_mem hl]
  · exact loadFields_of_notMem h table values

@[simp] theorem length_storeFields (values : HocClkConfigValue → ℕ) (table : List ℕ) :
    (storeFields values table).length = table.length := length_store _

/-- **Write and read agree**: every KIP key is read from the field it was written to, cut to 32 bits. -/
theorem fieldOf_storeFields {table : List ℕ} (hlen : table.length = size kipLayout) (values : HocClkConfigValue → ℕ)
    {kval : HocClkConfigValue} (h : kval ∈ kipKeys) :
    fieldOf (storeFields values table) kval = values kval % 2 ^ 32 := by
  obtain ⟨fi, hs, hl⟩ := exists_slot h
  obtain ⟨k, hk⟩ := exists_place hs
  rw [fieldOf, loadFields_of_mem hl]
  apply read_store
  · rw [List.map_map]
    exact kipStores_nodup
  · exact List.mem_map.2 ⟨_, hs, rfl⟩
  · exact hk
  · rw [hlen]
    exact slot_lt hk

/-- the writes leave magic, revision and version alone -/
theorem read_storeFields_header {f : CustField} (h : f = .cust ∨ f = .custRev ∨ f = .kipVersion)
    (values : HocClkConfigValue → ℕ) (table : List ℕ) :
    read kipLayout (storeFields values table) (f, 0) = read kipLayout table (f, 0) := by
  apply read_store_of_notMem
  rw [List.map_map]
  intro hmem
  obtain ⟨s, hs, hf⟩ := List.mem_map.1 hmem
  have hne := kipStores_slot s hs
  have hf' : s.1.1 = f := congrArg Prod.fst hf
  rw [hf'] at hne
  rcases h with rfl | rfl | rfl
  · exact hne.2.1 rfl
  · exact hne.2.2.1 rfl
  · exact hne.2.2.2 rfl

/-- the stored table reads like the one it was made from, as far as the reader and the gate look -/
theorem getElem?_zero_storeFields (values : HocClkConfigValue → ℕ) {table : List ℕ} (hlen : table.length = size kipLayout) :
    (storeFields values table)[0]? = table[0]? := by
  have hcust := read_storeFields_header (.inl rfl) values table
  have hslot : slot kipLayout (.cust, 0) = some 0 := by decide
  have hpos : 0 < table.length := by
    rw [hlen, size_kipLayout]
    decide
  rw [read_eq hslot, read_eq hslot, List.getElem?_eq_getElem (by simpa using hpos), List.getElem?_eq_getElem hpos] at hcust
  rw [List.getElem?_eq_getElem (by simpa using hpos), List.getElem?_eq_getElem hpos]
  exact congrArg some (by simpa using hcust)

theorem storeFields_lt {table : List ℕ} (h : ∀ w ∈ table, w < 2 ^ 32) (values : HocClkConfigValue → ℕ) :
    ∀ w ∈ storeFields values table, w < 2 ^ 32 := by
  apply forall_mem_store h
  intro s hs
  obtain ⟨r, -, rfl⟩ := List.mem_map.1 hs
  exact Nat.mod_lt _ (by decide)

theorem fieldOf_lt {table : List ℕ} (h : ∀ w ∈ table, w < 2 ^ 32) (kval : HocClkConfigValue) : fieldOf table kval < 2 ^ 32 := by
  by_cases hk : kval ∈ kipKeys
  · obtain ⟨fi, -, hl⟩ := exists_slot hk
    rw [fieldOf, loadFields_of_mem hl]
    exact read_lt (by decide) h fi
  · rw [fieldOf, loadFields_of_notMem hk]
    decide

/-- storing what is there changes nothing -/
theorem storeFields_same {table : List ℕ} (hlt : ∀ w ∈ table, w < 2 ^ 32) {values : HocClkConfigValue → ℕ}
    (h : ∀ kval ∈ kipKeys, values kval = fieldOf table kval) : storeFields values table = table := by
  apply store_same
  intro s hs
  obtain ⟨r, hr, rfl⟩ := List.mem_map.1 hs
  have hkey : r.2 ∈ kipKeys := List.mem_map_of_mem hr
  have hread : fieldOf table r.2 = read kipLayout table r.1 := loadFields_of_mem (kipStores_loads r hr) table _
  dsimp only
  rw [h r.2 hkey, Nat.mod_eq_of_lt (fieldOf_lt hlt r.2), hread]

/-- **A successful write is read back.** -/
theorem custReadTable_storeFields {io : KipIo} {bytes : List UInt8} {table : List ℕ}
    (hread : custReadTable bytes = some table) (values : HocClkConfigValue → ℕ)
    (hok : (custWriteTable io bytes (storeFields values table)).1 = true) :
    custReadTable (custWriteTable io bytes (storeFields values table)).2 = some (storeFields values table) :=
  custReadTable_written hread (length_storeFields values table) (storeFields_lt (lt_of_custReadTable hread) values)
    (getElem?_zero_storeFields values (length_of_custReadTable hread)) hok

end RyazhaClk
