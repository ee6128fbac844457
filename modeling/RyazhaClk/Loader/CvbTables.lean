/-
The patches of the CPU and GPU voltage tables, `CpuFreqCvbTable` and `GpuFreqCvbTable`: each recognises the stock table
in the image, writes the rows of the table the configuration selects over it, and adjusts their voltages in place.
`SafetyCheck` chose its tables by other switches, so what it checked is not always what is installed.

- `cpuFreqCvbTable_eq`, `gpuFreqCvbTable_eq`: the image behind each patch, row by row.
- `cpuFreqCvbTable_freqs`, `gpuFreqCvbTable_freqs`: the installed rows have the frequencies of the selected table.
- `installedInRange_iff`: after a passing `SafetyCheck`, the installed tables end in the enforced ranges exactly when
  every table no validator reads ends there itself and every checked frequency is nonzero and has 32 bits.
- `extreme_table_unchecked`: a 2805 MHz row at the end of the extreme table passes and is installed.
-/
import RyazhaClk.Loader.SafetyCheck

namespace RyazhaClk.Loader

open Terminated

/-! ## Stock tables -/

/-- the stock CPU table of Mariko -/
def Mariko.cpuCvbTableDefault : List CvbEntry :=
  [ ⟨204000, ⟨721589, -12695, 27, 0, 0, 0⟩, {}⟩,
    ⟨306000, ⟨747134, -14195, 27, 0, 0, 0⟩, {}⟩,
    ⟨408000, ⟨776324, -15705, 27, 0, 0, 0⟩, {}⟩,
    ⟨510000, ⟨809160, -17205, 27, 0, 0, 0⟩, {}⟩,
    ⟨612000, ⟨845641, -18715, 27, 0, 0, 0⟩, {}⟩,
    ⟨714000, ⟨885768, -20215, 27, 0, 0, 0⟩, {}⟩,
    ⟨816000, ⟨929540, -21725, 27, 0, 0, 0⟩, {}⟩,
    ⟨918000, ⟨976958, -23225, 27, 0, 0, 0⟩, {}⟩,
    ⟨1020000, ⟨1028021, -24725, 27, 0, 0, 0⟩, ⟨1120000, 0, 0, 0, 0, 0⟩⟩,
    ⟨1122000, ⟨1082730, -26235, 27, 0, 0, 0⟩, ⟨1120000, 0, 0, 0, 0, 0⟩⟩,
    ⟨1224000, ⟨1141084, -27735, 27, 0, 0, 0⟩, ⟨1120000, 0, 0, 0, 0, 0⟩⟩,
    ⟨1326000, ⟨1203084, -29245, 27, 0, 0, 0⟩, ⟨1120000, 0, 0, 0, 0, 0⟩⟩,
    ⟨1428000, ⟨1268729, -30745, 27, 0, 0, 0⟩, ⟨1120000, 0, 0, 0, 0, 0⟩⟩,
    ⟨1581000, ⟨1374032, -33005, 27, 0, 0, 0⟩, ⟨1120000, 0, 0, 0, 0, 0⟩⟩,
    ⟨1683000, ⟨1448791, -34505, 27, 0, 0, 0⟩, ⟨1120000, 0, 0, 0, 0, 0⟩⟩,
    ⟨1785000, ⟨1527196, -36015, 27, 0, 0, 0⟩, ⟨1120000, 0, 0, 0, 0, 0⟩⟩,
    ⟨1887000, ⟨1609246, -37515, 27, 0, 0, 0⟩, ⟨1120000, 0, 0, 0, 0, 0⟩⟩,
    ⟨1963500, ⟨1675751, -38635, 27, 0, 0, 0⟩, ⟨1120000, 0, 0, 0, 0, 0⟩⟩,
    {} ]

/-- `GPUB01_NA_CVB_TABLE` -/
def Mariko.gpuCvbTableDefault : List CvbEntry :=
  [ ⟨76800, {}, ⟨610000, 0, 0, 0, 0, 0⟩⟩,
    ⟨153600, {}, ⟨610000, 0, 0, 0, 0, 0⟩⟩,
    ⟨230400, {}, ⟨610000, 0, 0, 0, 0, 0⟩⟩,
    ⟨307200, {}, ⟨610000, 0, 0, 0, 0, 0⟩⟩,
    ⟨384000, {}, ⟨610000, 0, 0, 0, 0, 0⟩⟩,
    ⟨460800, {}, ⟨610000, 0, 0, 0, 0, 0⟩⟩,
    ⟨537600, {}, ⟨801688, -10900, -163, 298, -10599, 162⟩⟩,
    ⟨614400, {}, ⟨824214, -5743, -452, 238, -6325, 81⟩⟩,
    ⟨691200, {}, ⟨848830, -3903, -552, 119, -4030, -2⟩⟩,
    ⟨768000, {}, ⟨891575, -4409, -584, 0, -2849, 39⟩⟩,
    ⟨844800, {}, ⟨940071, -5367, -602, -60, -63, -93⟩⟩,
    ⟨921600, {}, ⟨986765, -6637, -614, -179, 1905, -13⟩⟩,
    ⟨998400, {}, ⟨1098475, -13529, -497, -179, 3626, 9⟩⟩,
    ⟨1075200, {}, ⟨1163644, -12688, -648, 0, 1077, 40⟩⟩,
    ⟨1152000, {}, ⟨1204812, -9908, -830, 0, 1469, 110⟩⟩,
    ⟨1228800, {}, ⟨1277303, -11675, -859, 0, 3722, 313⟩⟩,
    ⟨1267200, {}, ⟨1335531, -12567, -867, 0, 3681, 559⟩⟩,
    {} ]

/-- `CPU_PLL_CVB_TABLE_ODN` -/
def Erista.cpuCvbTableDefault : List CvbEntry :=
  [ ⟨204000, ⟨721094, 0, 0, 0, 0, 0⟩, {}⟩,
    ⟨306000, ⟨754040, 0, 0, 0, 0, 0⟩, {}⟩,
    ⟨408000, ⟨786986, 0, 0, 0, 0, 0⟩, {}⟩,
    ⟨510000, ⟨819932, 0, 0, 0, 0, 0⟩, {}⟩,
    ⟨612000, ⟨852878, 0, 0, 0, 0, 0⟩, {}⟩,
    ⟨714000, ⟨885824, 0, 0, 0, 0, 0⟩, {}⟩,
    ⟨816000, ⟨918770, 0, 0, 0, 0, 0⟩, {}⟩,
    ⟨918000, ⟨951716, 0, 0, 0, 0, 0⟩, {}⟩,
    ⟨1020000, ⟨984662, 0, 0, 0, 0, 0⟩, ⟨-2875621, 358099, -8585, 0, 0, 0⟩⟩,
    ⟨1122000, ⟨1017608, 0, 0, 0, 0, 0⟩, ⟨-52225, 104159, -2816, 0, 0, 0⟩⟩,
    ⟨1224000, ⟨1050554, 0, 0, 0, 0, 0⟩, ⟨1076868, 8356, -727, 0, 0, 0⟩⟩,
    ⟨1326000, ⟨1083500, 0, 0, 0, 0, 0⟩, ⟨2208191, -84659, 1240, 0, 0, 0⟩⟩,
    ⟨1428000, ⟨1116446, 0, 0, 0, 0, 0⟩, ⟨2519460, -105063, 1611, 0, 0, 0⟩⟩,
    ⟨1581000, ⟨1130000, 0, 0, 0, 0, 0⟩, ⟨2889664, -122173, 1834, 0, 0, 0⟩⟩,
    ⟨1683000, ⟨1168000, 0, 0, 0, 0, 0⟩, ⟨5100873, -279186, 4747, 0, 0, 0⟩⟩,
    ⟨1785000, ⟨1227500, 0, 0, 0, 0, 0⟩, ⟨5100873, -279186, 4747, 0, 0, 0⟩⟩,
    {} ]

/-- `NA_FREQ_CVB_TABLE` -/
def Erista.gpuCvbTableDefault : List CvbEntry :=
  [ ⟨76800, {}, ⟨814294, 8144, -940, 808, -21583, 226⟩⟩,
    ⟨153600, {}, ⟨856185, 8144, -940, 808, -21583, 226⟩⟩,
    ⟨230400, {}, ⟨898077, 8144, -940, 808, -21583, 226⟩⟩,
    ⟨307200, {}, ⟨939968, 8144, -940, 808, -21583, 226⟩⟩,
    ⟨384000, {}, ⟨981860, 8144, -940, 808, -21583, 226⟩⟩,
    ⟨460800, {}, ⟨1023751, 8144, -940, 808, -21583, 226⟩⟩,
    ⟨537600, {}, ⟨1065642, 8144, -940, 808, -21583, 226⟩⟩,
    ⟨614400, {}, ⟨1107534, 8144, -940, 808, -21583, 226⟩⟩,
    ⟨691200, {}, ⟨1149425, 8144, -940, 808, -21583, 226⟩⟩,
    ⟨768000, {}, ⟨1191317, 8144, -940, 808, -21583, 226⟩⟩,
    ⟨844800, {}, ⟨1233208, 8144, -940, 808, -21583, 226⟩⟩,
    ⟨921600, {}, ⟨1275100, 8144, -940, 808, -21583, 226⟩⟩,
    {} ]

def cpuCvbTableDefault (isMariko : Bool) : List CvbEntry :=
  if isMariko then Mariko.cpuCvbTableDefault else Erista.cpuCvbTableDefault

def gpuCvbTableDefault (isMariko : Bool) : List CvbEntry :=
  if isMariko then Mariko.gpuCvbTableDefault else Erista.gpuCvbTableDefault

/-! ## The patches -/

variable (isMariko : Bool) (C : CustomizeTable)

/-- a value stored to an `s32` -/
def toS32 (n : ℤ) : ℤ := n.bmod (2 ^ 32)

/-- `customize_table` of `CpuFreqCvbTable` -/
def cpuCustomizeTable : List CvbEntry :=
  if isMariko then
    if C.tableConf = TBREAK_1683 then C.marikoCpuDvfsTable1683Tbreak.toList
    else if C.tableConf = TBREAK_1581 then C.marikoCpuDvfsTable1581Tbreak.toList
    else if C.tableConf = EXTREME_TABLE then C.marikoCpuDvfsTableExtreme.toList
    else cpuCvbTableDefault isMariko
  else if C.eristaCpuUV ≠ 0 then
    if C.eristaCpuUnlock ≠ 0 then C.eristaCpuDvfsTableSLT.toList else C.eristaCpuDvfsTable.toList
  else cpuCvbTableDefault isMariko

/-- `customize_table` of `GpuFreqCvbTable` -/
def gpuCustomizeTable : List CvbEntry :=
  if isMariko then C.marikoGpuTable else C.eristaGpuTable

def cpuFreqThreshold : ℕ := 2091000

/-- the voltage limit of a row from the threshold on; the Erista branch is commented out -/
def cpuMaxVoltEntry (cpuMaxVolt : ℕ) (entry : CvbEntry) : CvbEntry :=
  if entry.freq ≥ cpuFreqThreshold then
    if isMariko then { entry with cvbPllParam := { entry.cvbPllParam with c0 := toS32 (cpuMaxVolt * 1000) } }
    else entry
  else entry

/-- the stock rows are recognised at the head, then the selected rows are written over them; `image` is the memory from
the head of the stock table on, in rows -/
def installRows (failure : LdrResult) (defaultTable customizeTable image : List CvbEntry) :
    Except LdrResult (List CvbEntry) :=
  let defaultRows := defaultTable.take (getDvfsTableEntryCount defaultTable)
  if image.take defaultRows.length ≠ defaultRows then .error failure
  else .ok (overlay (customizeTable.take (getDvfsTableEntryCount customizeTable)) image)

def cpuFreqCvbTable (image : List CvbEntry) : Except LdrResult (List CvbEntry) := do
  let customizeTable := cpuCustomizeTable isMariko C
  let cpuMaxVolt := if isMariko then C.marikoCpuMaxVolt else C.eristaCpuMaxVolt
  let image ← installRows .invalidCpuDvfs (cpuCvbTableDefault isMariko) customizeTable image
  return if cpuMaxVolt ≠ 0 then
      mapHead (getDvfsTableEntryCount customizeTable) (fun _ => cpuMaxVoltEntry isMariko cpuMaxVolt) image
    else image

def clearCvbPllEntry (entry : CvbEntry) : CvbEntry :=
  { entry with cvbPllParam := { c0 := entry.cvbPllParam.c0 } }

def setCvbPllC0 (c0 : ℤ) (entry : CvbEntry) : CvbEntry :=
  { entry with cvbPllParam := { entry.cvbPllParam with c0 := toS32 c0 } }

/-- `GpuVoltArray[i]`: the loop runs to the entry count, so past the array it reads the words behind it -/
def gpuVoltArray (i : ℕ) : ℕ :=
  if isMariko then
    (C.marikoGpuVoltArray.toList ++ [C.fineTune_t6_tRTW, C.fineTune_t7_tWTR] ++ C.reserved.toList).getD i 0
  else
    (C.eristaGpuVoltArray.toList ++ C.marikoGpuVoltArray.toList).getD i 0

def gpuOffsetEntry (entry : CvbEntry) : CvbEntry :=
  setCvbPllC0 (entry.cvbPllParam.c0 - C.commonGpuVoltOffset * 1000) entry

def gpuVoltEntry (i : ℕ) (entry : CvbEntry) : CvbEntry :=
  if gpuVoltArray isMariko C i ≠ 0 then clearCvbPllEntry (setCvbPllC0 (gpuVoltArray isMariko C i * 1000) entry)
  else gpuOffsetEntry C entry

def gpuFreqCvbTable (image : List CvbEntry) : Except LdrResult (List CvbEntry) := do
  let customizeTable := gpuCustomizeTable isMariko C
  let count := getDvfsTableEntryCount customizeTable
  let image ← installRows .invalidGpuDvfs (gpuCvbTableDefault isMariko) customizeTable image
  let image := mapHead count (gpuVoltEntry isMariko C) image
  return if C.commonGpuVoltOffset ≠ 0 ∧ (if isMariko then C.marikoGpuUV else C.eristaGpuUV) = 0 then
      mapHead count (fun _ => gpuOffsetEntry C) image
    else image

/-! ## What is installed -/

/-- the rows at the head of the patched image that came from `customizeTable` -/
def installedRows (customizeTable image : List CvbEntry) : List CvbEntry :=
  image.take (getDvfsTableEntryCount customizeTable)

theorem cpuMaxVoltEntry_freq (cpuMaxVolt : ℕ) (entry : CvbEntry) :
    (cpuMaxVoltEntry isMariko cpuMaxVolt entry).freq = entry.freq := by
  unfold cpuMaxVoltEntry
  by_cases hfreq : entry.freq ≥ cpuFreqThreshold
  · rw [if_pos hfreq]
    cases isMariko with
    | true => simp only [if_true]
    | false => simp only [Bool.false_eq_true, if_false]
  · rw [if_neg hfreq]

@[simp] theorem setCvbPllC0_freq (c0 : ℤ) (entry : CvbEntry) : (setCvbPllC0 c0 entry).freq = entry.freq := by
  simp only [setCvbPllC0]

@[simp] theorem clearCvbPllEntry_freq (entry : CvbEntry) : (clearCvbPllEntry entry).freq = entry.freq := by
  simp only [clearCvbPllEntry]

@[simp] theorem gpuOffsetEntry_freq (entry : CvbEntry) : (gpuOffsetEntry C entry).freq = entry.freq := by
  rw [gpuOffsetEntry, setCvbPllC0_freq]

theorem gpuVoltEntry_freq (i : ℕ) (entry : CvbEntry) : (gpuVoltEntry isMariko C i entry).freq = entry.freq := by
  unfold gpuVoltEntry
  by_cases hvolt : gpuVoltArray isMariko C i ≠ 0
  · rw [if_pos hvolt, clearCvbPllEntry_freq, setCvbPllC0_freq]
  · rw [if_neg hvolt, gpuOffsetEntry_freq]

/-- a CPU row with its voltage limit -/
def cpuRow (e : CvbEntry) : CvbEntry :=
  if (if isMariko then C.marikoCpuMaxVolt else C.eristaCpuMaxVolt) ≠ 0 then
    cpuMaxVoltEntry isMariko (if isMariko then C.marikoCpuMaxVolt else C.eristaCpuMaxVolt) e
  else e

/-- the undervolt level of the SoC -/
def gpuUV : ℕ := if isMariko then C.marikoGpuUV else C.eristaGpuUV

/-- the condition of the second loop -/
def OffsetAgain : Prop := C.commonGpuVoltOffset ≠ 0 ∧ gpuUV isMariko C = 0

instance : Decidable (OffsetAgain isMariko C) := by
  unfold OffsetAgain
  infer_instance

/-- a row after both loops -/
def gpuRow (i : ℕ) (e : CvbEntry) : CvbEntry :=
  if OffsetAgain isMariko C then gpuOffsetEntry C (gpuVoltEntry isMariko C i e) else gpuVoltEntry isMariko C i e

variable {isMariko C}

/-- the stock rows were recognised, and the selected rows stand in their place -/
theorem installRows_eq {failure : LdrResult} {defaultTable table image image' : List CvbEntry}
    (h : installRows failure defaultTable table image = .ok image') :
    image.take (getDvfsTableEntryCount defaultTable) = dvfsEntries defaultTable ∧
      image' = overlay (dvfsEntries table) image := by
  unfold installRows at h
  simp only [take_entryCount] at h
  split at h
  · cases h
  · rename_i hstock
    refine ⟨?_, ?_⟩
    · rw [getDvfsTableEntryCount_eq]
      exact not_not.1 hstock
    · exact (Except.ok.inj h).symm

/-- **what the CPU patch leaves**: the selected rows, each with its voltage limit, over the stock image -/
theorem cpuFreqCvbTable_eq {image image' : List CvbEntry} (h : cpuFreqCvbTable isMariko C image = .ok image') :
    image.take (getDvfsTableEntryCount (cpuCvbTableDefault isMariko)) = dvfsEntries (cpuCvbTableDefault isMariko) ∧
      image' = overlay ((dvfsEntries (cpuCustomizeTable isMariko C)).mapIdx fun _ => cpuRow isMariko C) image := by
  unfold cpuFreqCvbTable at h
  dsimp only at h
  cases hinst : installRows .invalidCpuDvfs (cpuCvbTableDefault isMariko) (cpuCustomizeTable isMariko C) image with
  | error r =>
    rw [hinst] at h
    cases h
  | ok copied =>
    obtain ⟨hstock, rfl⟩ := installRows_eq hinst
    rw [hinst] at h
    simp only [bind, Except.bind, pure, Except.pure, Except.ok.injEq] at h
    refine ⟨hstock, ?_⟩
    rw [← h]
    unfold cpuRow
    by_cases hvolt : (if isMariko then C.marikoCpuMaxVolt else C.eristaCpuMaxVolt) ≠ 0
    · simp only [if_pos hvolt]
      rw [getDvfsTableEntryCount_eq, mapHead_overlay]
    · simp only [if_neg hvolt]
      rw [List.mapIdx_eq_zipIdx_map]
      simp

/-- **what the GPU patch leaves**: the selected rows, each behind both loops, over the stock image -/
theorem gpuFreqCvbTable_eq {image image' : List CvbEntry} (h : gpuFreqCvbTable isMariko C image = .ok image') :
    image.take (getDvfsTableEntryCount (gpuCvbTableDefault isMariko)) = dvfsEntries (gpuCvbTableDefault isMariko) ∧
      image' = overlay ((dvfsEntries (gpuCustomizeTable isMariko C)).mapIdx (gpuRow isMariko C)) image := by
  unfold gpuFreqCvbTable at h
  dsimp only at h
  cases hinst : installRows .invalidGpuDvfs (gpuCvbTableDefault isMariko) (gpuCustomizeTable isMariko C) image with
  | error r =>
    rw [hinst] at h
    cases h
  | ok copied =>
    obtain ⟨hstock, rfl⟩ := installRows_eq hinst
    rw [hinst] at h
    simp only [bind, Except.bind, pure, Except.pure, Except.ok.injEq] at h
    refine ⟨hstock, ?_⟩
    have hrow : gpuRow isMariko C = fun i e =>
        if OffsetAgain isMariko C then gpuOffsetEntry C (gpuVoltEntry isMariko C i e) else gpuVoltEntry isMariko C i e :=
      rfl
    rw [← h, hrow, getDvfsTableEntryCount_eq, mapHead_overlay]
    by_cases hagain : OffsetAgain isMariko C
    · have hsecond : C.commonGpuVoltOffset ≠ 0 ∧ (if isMariko then C.marikoGpuUV else C.eristaGpuUV) = 0 := hagain
      have hcount : (dvfsEntries (gpuCustomizeTable isMariko C)).length =
          ((dvfsEntries (gpuCustomizeTable isMariko C)).mapIdx (gpuVoltEntry isMariko C)).length := by
        rw [List.length_mapIdx]
      simp only [if_pos hagain]
      rw [if_pos hsecond, hcount, mapHead_overlay, List.mapIdx_mapIdx]
      rfl
    · have hsecond : ¬ (C.commonGpuVoltOffset ≠ 0 ∧ (if isMariko then C.marikoGpuUV else C.eristaGpuUV) = 0) := hagain
      simp only [if_neg hagain]
      rw [if_neg hsecond]

theorem mapIdx_cpuRow_freq (rows : List CvbEntry) :
    (rows.mapIdx fun _ => cpuRow isMariko C).map CvbEntry.freq = rows.map CvbEntry.freq := by
  apply map_mapIdx
  intro _ e
  unfold cpuRow
  by_cases hvolt : (if isMariko then C.marikoCpuMaxVolt else C.eristaCpuMaxVolt) ≠ 0
  · rw [if_pos hvolt, cpuMaxVoltEntry_freq]
  · rw [if_neg hvolt]

theorem mapIdx_gpuRow_freq (rows : List CvbEntry) :
    (rows.mapIdx (gpuRow isMariko C)).map CvbEntry.freq = rows.map CvbEntry.freq := by
  apply map_mapIdx
  intro i e
  unfold gpuRow
  by_cases hagain : OffsetAgain isMariko C
  · rw [if_pos hagain, gpuOffsetEntry_freq, gpuVoltEntry_freq]
  · rw [if_neg hagain, gpuVoltEntry_freq]

/-- as many rows as were selected are read back as they were written -/
theorem installedRows_overlay {table rows image : List CvbEntry} (hlen : rows.length = (dvfsEntries table).length) :
    installedRows table (overlay rows image) = rows := by
  rw [installedRows, getDvfsTableEntryCount_eq, ← hlen, take_overlay]

theorem cpuFreqCvbTable_freqs {image image' : List CvbEntry} (h : cpuFreqCvbTable isMariko C image = .ok image') :
    (installedRows (cpuCustomizeTable isMariko C) image').map CvbEntry.freq
      = (dvfsEntries (cpuCustomizeTable isMariko C)).map CvbEntry.freq := by
  obtain ⟨-, rfl⟩ := cpuFreqCvbTable_eq h
  rw [installedRows_overlay List.length_mapIdx, mapIdx_cpuRow_freq]

theorem gpuFreqCvbTable_freqs {image image' : List CvbEntry} (h : gpuFreqCvbTable isMariko C image = .ok image') :
    (installedRows (gpuCustomizeTable isMariko C) image').map CvbEntry.freq
      = (dvfsEntries (gpuCustomizeTable isMariko C)).map CvbEntry.freq := by
  obtain ⟨-, rfl⟩ := gpuFreqCvbTable_eq h
  rw [installedRows_overlay List.length_mapIdx, mapIdx_gpuRow_freq]

/-! ## `SafetyCheck` against what is installed -/

/-- the last row of `rows`, if there is one, runs within `lo` and `hi` -/
def LastFreqIn (rows : List CvbEntry) (lo hi : ℕ) : Prop :=
  ∀ f ∈ (rows.map CvbEntry.freq).getLast?, lo ≤ f ∧ f ≤ hi

instance (rows : List CvbEntry) (lo hi : ℕ) : Decidable (LastFreqIn rows lo hi) := by
  unfold LastFreqIn
  infer_instance

theorem lastFreqIn_congr {rows rows' : List CvbEntry} (lo hi : ℕ)
    (h : rows.map CvbEntry.freq = rows'.map CvbEntry.freq) : LastFreqIn rows lo hi ↔ LastFreqIn rows' lo hi := by
  rw [LastFreqIn, LastFreqIn, h]

/-- both installed tables end within the ranges `SafetyCheck` enforces for the SoC -/
structure InstalledInRange (isMariko : Bool) (C : CustomizeTable) (cpuImage gpuImage : List CvbEntry) : Prop where
  cpu : LastFreqIn (installedRows (cpuCustomizeTable isMariko C) cpuImage) 1785000 (if isMariko then 2703000 else 2397000)
  gpu : LastFreqIn (installedRows (gpuCustomizeTable isMariko C) gpuImage) 768000 (if isMariko then 1536000 else 1152000)

/-- a frequency the validator reads as it is and does not take for an absent value -/
def LastFreqSeen (table : List CvbEntry) : Prop :=
  ∀ e ∈ (dvfsEntries table).getLast?, 0 < e.freq ∧ e.freq < 2 ^ 32

/-- of the CPU tables, `SafetyCheck` reads one that Mariko never installs and one of the two that Erista may install -/
def CpuTableCovered (isMariko : Bool) (C : CustomizeTable) : Prop :=
  if isMariko then
    (C.tableConf = TBREAK_1683 → LastFreqIn (dvfsEntries C.marikoCpuDvfsTable1683Tbreak.toList) 1785000 2703000) ∧
    (C.tableConf = TBREAK_1581 → LastFreqIn (dvfsEntries C.marikoCpuDvfsTable1581Tbreak.toList) 1785000 2703000) ∧
    (C.tableConf = EXTREME_TABLE → LastFreqIn (dvfsEntries C.marikoCpuDvfsTableExtreme.toList) 1785000 2703000)
  else
    (C.eristaCpuUV ≠ 0 → C.eristaCpuUnlock = 0 → LastFreqSeen C.eristaCpuDvfsTable.toList) ∧
    (C.eristaCpuUV ≠ 0 → C.eristaCpuUnlock ≠ 0 → LastFreqIn (dvfsEntries C.eristaCpuDvfsTableSLT.toList) 1785000 2397000)

/-- for a table a validator has read, being in range is being seen -/
theorem lastFreqIn_iff_seen {table : List CvbEntry} {lo hi : ℕ} (h : LastFreqChecked table lo hi)
    (hlo : 0 < lo) (hhi : hi < 2 ^ 32) : LastFreqIn (dvfsEntries table) lo hi ↔ LastFreqSeen table := by
  obtain ⟨e, he, hmod⟩ := h
  have hlast : ((dvfsEntries table).map CvbEntry.freq).getLast? = some e.freq := by
    rw [List.getLast?_map, he]
    rfl
  constructor
  · intro hin e' he'
    rw [he] at he'
    cases he'
    obtain ⟨h1, h2⟩ := hin e.freq hlast
    omega
  · intro hseen f hf
    rw [hlast] at hf
    cases hf
    obtain ⟨h1, h2⟩ := hseen e he
    rw [Nat.mod_eq_of_lt h2] at hmod
    omega

theorem cpuCustomizeTable_inRange_iff (h : safetyCheck C = .ok ()) :
    LastFreqIn (dvfsEntries (cpuCustomizeTable isMariko C)) 1785000 (if isMariko then 2703000 else 2397000)
      ↔ CpuTableCovered isMariko C := by
  have hchecked := (safetyCheck_tables h).eristaCpu
  cases isMariko with
  | true =>
    simp only [cpuCustomizeTable, CpuTableCovered, if_true]
    by_cases h3 : C.tableConf = TBREAK_1683
    · simp [h3, TBREAK_1683, TBREAK_1581, EXTREME_TABLE]
    · by_cases h2 : C.tableConf = TBREAK_1581
      · simp [h2, TBREAK_1683, TBREAK_1581, EXTREME_TABLE]
      · by_cases h4 : C.tableConf = EXTREME_TABLE
        · simp [h4, TBREAK_1683, TBREAK_1581, EXTREME_TABLE]
        · have hdefault : LastFreqIn (dvfsEntries (cpuCvbTableDefault true)) 1785000 2703000 := by decide
          simp [h2, h3, h4, hdefault]
  | false =>
    simp only [cpuCustomizeTable, CpuTableCovered, Bool.false_eq_true, if_false]
    by_cases huv : C.eristaCpuUV = 0
    · have hdefault : LastFreqIn (dvfsEntries (cpuCvbTableDefault false)) 1785000 2397000 := by decide
      simp [huv, hdefault]
    · by_cases hunlock : C.eristaCpuUnlock = 0
      · simp [huv, hunlock, lastFreqIn_iff_seen hchecked (by decide) (by decide)]
      · simp [huv, hunlock]

theorem gpuCustomizeTable_inRange_iff (h : safetyCheck C = .ok ()) :
    LastFreqIn (dvfsEntries (gpuCustomizeTable isMariko C)) 768000 (if isMariko then 1536000 else 1152000)
      ↔ LastFreqSeen (gpuCustomizeTable isMariko C) := by
  have hchecked := safetyCheck_tables h
  cases isMariko with
  | true => exact lastFreqIn_iff_seen hchecked.marikoGpu (by decide) (by decide)
  | false => exact lastFreqIn_iff_seen hchecked.eristaGpu (by decide) (by decide)

/-- **what a passing `SafetyCheck` says about the installed tables** -/
theorem installedInRange_iff {cpu gpu cpu' gpu' : List CvbEntry} (hsafe : safetyCheck C = .ok ())
    (hcpu : cpuFreqCvbTable isMariko C cpu = .ok cpu') (hgpu : gpuFreqCvbTable isMariko C gpu = .ok gpu') :
    InstalledInRange isMariko C cpu' gpu' ↔
      CpuTableCovered isMariko C ∧ LastFreqSeen (gpuCustomizeTable isMariko C) := by
  rw [← cpuCustomizeTable_inRange_iff hsafe, ← gpuCustomizeTable_inRange_iff hsafe,
    ← lastFreqIn_congr _ _ (cpuFreqCvbTable_freqs hcpu), ← lastFreqIn_congr _ _ (gpuFreqCvbTable_freqs hgpu)]
  constructor
  · intro h
    exact ⟨h.cpu, h.gpu⟩
  · intro h
    exact ⟨h.1, h.2⟩

/-! ## A table no validator reads -/

/-- the configuration as shipped, each DVFS table cut to its last row -/
def sampleCustomize : CustomizeTable where
  hpMode := 0
  commonEmcMemVolt := 1175000
  eristaEmcMaxClock := 1600000
  eristaEmcMaxClock1 := 1600000
  eristaEmcMaxClock2 := 1600000
  stepMode := StepMode_66MHz
  marikoEmcMaxClock := 2133000
  marikoEmcVddqVolt := 600000
  emcDvbShift := 0
  marikoSocVmax := 0
  t1_tRCD := 0
  t2_tRP := 0
  t3_tRAS := 0
  t4_tRRD := 0
  t5_tRFC := 0
  t6_tRTW := 0
  t7_tWTR := 0
  t8_tREFI := 0
  t2_tRP_cap := 2
  timingEmcTbreak := 0
  low_t6_tRTW := 0
  low_t7_tWTR := 0
  readLatency := Vector.replicate 4 0
  writeLatency := Vector.replicate 4 0
  eristaCpuUV := 0
  eristaCpuVmin := 800
  eristaCpuMaxVolt := 1200
  eristaCpuUnlock := 0
  marikoCpuUVLow := 0
  marikoCpuUVHigh := 0
  tableConf := TBREAK_1683
  marikoCpuLowVmin := 620
  marikoCpuHighVmin := 750
  marikoCpuMaxVolt := 1120
  marikoCpuMaxClock := 1963500
  eristaCpuBoostClock := 1785000
  marikoCpuBoostClock := 1963500
  eristaGpuUV := 0
  eristaGpuVmin := 810
  marikoGpuUV := 0
  marikoGpuVmin := 610
  marikoGpuVmax := 800
  commonGpuVoltOffset := 0
  eristaGpuVoltArray := Vector.replicate 27 0
  marikoGpuVoltArray := Vector.replicate 24 0
  fineTune_t6_tRTW := 0
  fineTune_t7_tWTR := 0
  reserved := Vector.replicate 60 0
  eristaCpuDvfsTable := .ofRows [⟨2091000, ⟨1256250, 0, 0, 0, 0, 0⟩, ⟨5100873, -279186, 4747, 0, 0, 0⟩⟩]
  eristaCpuDvfsTableSLT := .ofRows [⟨2397000, ⟨1256250, 0, 0, 0, 0, 0⟩, ⟨5100873, -279186, 4747, 0, 0, 0⟩⟩]
  marikoCpuDvfsTable := .ofRows [⟨1963500, ⟨1675751, -38635, 27, 0, 0, 0⟩, ⟨1120000, 0, 0, 0, 0, 0⟩⟩]
  marikoCpuDvfsTableSLT := .ofRows [⟨2703000, ⟨1770375, -37515, 113, 0, 0, 0⟩, ⟨1200000, 0, 0, 0, 0, 0⟩⟩]
  marikoCpuDvfsTable1581Tbreak := .ofRows [⟨2703000, ⟨1838820, -36648, 113, 0, 0, 0⟩, ⟨1200000, 0, 0, 0, 0, 0⟩⟩]
  marikoCpuDvfsTable1683Tbreak := .ofRows [⟨2703000, ⟨1838820, -36648, 113, 0, 0, 0⟩, ⟨1200000, 0, 0, 0, 0, 0⟩⟩]
  marikoCpuDvfsTableExtreme := .ofRows [⟨2703000, ⟨1775375, -37515, 113, 0, 0, 0⟩, ⟨1200000, 0, 0, 0, 0, 0⟩⟩]
  eristaGpuDvfsTable := .ofRows [⟨921600, {}, ⟨1275100, 8144, -940, 808, -21583, 226⟩⟩]
  eristaGpuDvfsTableSLT := .ofRows [⟨960000, {}, ⟨1156991, 8144, -940, 0, 0, 226⟩⟩]
  eristaGpuDvfsTableHiOPT := .ofRows [⟨1075200, {}, {}⟩]
  marikoGpuDvfsTable := .ofRows [⟨1075200, {}, ⟨1132576, -16093, -648, 0, 1077, 40⟩⟩]
  marikoGpuDvfsTableSLT := .ofRows [⟨1228800, {}, ⟨1238293, -16383, -859, 0, 3722, 313⟩⟩]
  marikoGpuDvfsTableHiOPT := .ofRows [⟨1536000, {}, {}⟩]

/-- the stock table of the image, with room for 31 rows behind its head -/
def stockImage (defaultTable : List CvbEntry) : List CvbEntry :=
  (defaultTable ++ List.replicate dvfsTableEntryCount ({} : CvbEntry)).take dvfsTableEntryCount

/-- the images the sample configuration leaves on Mariko -/
def sampleCpuImage : List CvbEntry :=
  overlay [⟨2703000, ⟨1838820, -36648, 113, 0, 0, 0⟩, ⟨1120000, 0, 0, 0, 0, 0⟩⟩] (stockImage Mariko.cpuCvbTableDefault)

def sampleGpuImage : List CvbEntry :=
  overlay [⟨1075200, {}, ⟨1132576, -16093, -648, 0, 1077, 40⟩⟩] (stockImage Mariko.gpuCvbTableDefault)

theorem sampleCustomize_inRange : InstalledInRange true sampleCustomize sampleCpuImage sampleGpuImage := by
  have hsafe : safetyCheck sampleCustomize = .ok () := rfl
  have hcpu : cpuFreqCvbTable true sampleCustomize (stockImage Mariko.cpuCvbTableDefault) = .ok sampleCpuImage := by
    decide +kernel
  have hgpu : gpuFreqCvbTable true sampleCustomize (stockImage Mariko.gpuCvbTableDefault) = .ok sampleGpuImage := by
    decide +kernel
  have hcovered : CpuTableCovered true sampleCustomize := by
    rw [CpuTableCovered, if_pos rfl]
    exact ⟨by decide, by decide, by decide⟩
  have hseen : LastFreqSeen (gpuCustomizeTable true sampleCustomize) := by
    unfold LastFreqSeen
    decide
  exact (installedInRange_iff hsafe hcpu hgpu).2 ⟨hcovered, hseen⟩

/-- a 2805 MHz row at the end of the extreme table -/
def extremeCustomize : CustomizeTable :=
  { sampleCustomize with
    tableConf := EXTREME_TABLE
    marikoCpuDvfsTableExtreme := .ofRows [⟨2805000, ⟨1775375, -37515, 113, 0, 0, 0⟩, ⟨1200000, 0, 0, 0, 0, 0⟩⟩] }

/-- the validator reads `marikoCpuDvfsTable` while the patch installs the extreme table -/
theorem extreme_table_unchecked :
    ¬ ∀ (isMariko : Bool) (C : CustomizeTable) (cpu gpu cpu' gpu' : List CvbEntry), safetyCheck C = .ok () →
      cpuFreqCvbTable isMariko C cpu = .ok cpu' → gpuFreqCvbTable isMariko C gpu = .ok gpu' →
      InstalledInRange isMariko C cpu' gpu' := by
  intro hclaim
  have h := hclaim true extremeCustomize (stockImage Mariko.cpuCvbTableDefault) (stockImage Mariko.gpuCvbTableDefault)
    _ _ rfl rfl rfl
  exact absurd h.cpu (by decide)

end RyazhaClk.Loader
