/-
The GPU voltage table on PCV's heap. `CacheGpuVoltTable` searches PCV's pages for it and keeps a copy; from then on
`PcvHijackGpuVolts` writes the copy back with every entry raised to a minimum, which may fail in two places.

- `cacheGpuVoltTable_cached`: what was cached is what PCV holds.
- `hijack_inv`: one call, whatever fails in it, leaves the table raised to the minimum of the last successful write.
- `gpuVoltTable_raised`: so does every sequence of calls, and a minimum of 0 restores the table.
- `ramVmin_run`: that minimum, in terms of what succeeded in each call.
- `hijack_refines`: the clock manager's view of the call.

PCV is an environment: which regions it has, which pages can be read, and its memory. A search that reads behind the
page buffer has no defined result.
-/
import RyazhaClk.Lib.Transition
import RyazhaClk.Lib.WordBytes
import RyazhaClk.Sysmodule.Board

namespace RyazhaClk

open WordBytes Transition

/-! ## Finding the table -/

def pageSize : ℕ := 0x1000

/-- `std::size(table)` -/
def voltTableSize : ℕ := 192

def gpuVoltageTableOffset : ℕ := 312

/-- `UnkRegulator`: minimum, step and maximum -/
def unkRegulator : List UInt8 := ofWords [600000, 12500, 1400000]

structure MemoryInfo where
  addr : ℕ
  size : ℕ
  perm : ℕ
  type : ℕ

structure PcvProcess where
  /-- `GetPcvHandle` finds and attaches to PCV -/
  handle : Bool
  /-- `svcQueryDebugProcessMemory` -/
  query : ℕ → Option MemoryInfo
  /-- `svcReadDebugProcessMemory` of the page at an address succeeds -/
  readable : ℕ → Bool
  memory : ByteMemory
  /-- regions are whole pages, so that the buffer holds nothing but the page -/
  pages : ∀ address info, query address = some info → pageSize ∣ info.size

structure GpuVoltData where
  voltTable : List ℕ
  voltTableAddress : ℕ
  ramVmin : ℕ

/-- `voltData` at the start -/
def GpuVoltData.initial : GpuVoltData := ⟨List.replicate voltTableSize 0, 0, 0⟩

inductive CacheOutcome where
  | cached (voltData : GpuVoltData)
  | notFound
  /-- a read behind the page buffer -/
  | undefined

/-- the first place of the needle -/
def memmemImpl (haystack needle : List UInt8) : Option ℕ :=
  (List.range (haystack.length + 1 - needle.length)).find? fun i => needle.isPrefixOf (haystack.drop i)

section Search

variable (soc : HocClkSocType) (pcv : PcvProcess) (voltData : GpuVoltData)

/-- 800 mV on Mariko, 950 mV on Erista -/
def gpuTableVmax : ℕ := if soc = .mariko then 800 else 950

/-- the regulator was found at `index` of the page -/
def cacheFromPage (page index : ℕ) : CacheOutcome :=
  let buffer := readBytes pcv.memory page pageSize
  let start := index + gpuVoltageTableOffset
  if start + 4 > pageSize then .undefined
  else if (buffer.drop start).take 4 = ofWords [gpuTableVmax soc] then
    if start + 4 * voltTableSize > pageSize then .undefined
    else
      .cached { voltData with
        voltTable := toWords ((buffer.drop start).take (4 * voltTableSize))
        voltTableAddress := page + start }
  else .notFound

/-- the pages of a region up to the first that cannot be read; `none` when the regulator is on none of them -/
def scanPages : List ℕ → Option CacheOutcome
  | [] => none
  | page :: pages =>
    if pcv.readable page = false then none
    else
      ((memmemImpl (readBytes pcv.memory page pageSize) unkRegulator).map (cacheFromPage soc pcv voltData page)).or
        (scanPages pages)

def regionPages (info : MemoryInfo) : List ℕ := (List.range (info.size / pageSize)).map fun i => info.addr + i * pageSize

/-- readable and writable heap -/
def MemoryInfo.isHeap (info : MemoryInfo) : Bool := info.size ≠ 0 && info.perm % 4 = 3 && info.type % 256 = 4

/-- the regions from `address` on; `none` when the fuel runs out -/
def searchRegions : ℕ → ℕ → Option CacheOutcome
  | 0, _ => none
  | fuel + 1, address =>
    match pcv.query address with
    | none => some .notFound
    | some info =>
      let next := (info.addr + info.size) % 2 ^ 64
      if next = 0 then some .notFound
      else if info.isHeap then
        match scanPages soc pcv voltData (regionPages info) with
        | some outcome => some outcome
        | none => searchRegions fuel next
      else searchRegions fuel next

def cacheGpuVoltTable (fuel : ℕ) : Option CacheOutcome :=
  if pcv.handle = false then some .notFound else searchRegions soc pcv voltData fuel 0

end Search

/-! ## What was cached -/

variable {soc : HocClkSocType} {pcv : PcvProcess} {voltData found : GpuVoltData}

/-- the copy, the address it came from, and the minimum of before -/
structure IsCopy (pcv : PcvProcess) (voltData found : GpuVoltData) : Prop where
  voltTable : found.voltTable = readWords pcv.memory found.voltTableAddress voltTableSize
  ramVmin : found.ramVmin = voltData.ramVmin

theorem cacheFromPage_cached {page index : ℕ} (h : cacheFromPage soc pcv voltData page index = .cached found) :
    IsCopy pcv voltData found := by
  unfold cacheFromPage at h
  dsimp only at h
  by_cases hvmax : index + gpuVoltageTableOffset + 4 > pageSize
  · rw [if_pos hvmax] at h
    cases h
  · rw [if_neg hvmax] at h
    by_cases hmatch : ((readBytes pcv.memory page pageSize).drop (index + gpuVoltageTableOffset)).take 4 =
        ofWords [gpuTableVmax soc]
    · rw [if_pos hmatch] at h
      by_cases hend : index + gpuVoltageTableOffset + 4 * voltTableSize > pageSize
      · rw [if_pos hend] at h
        cases h
      · rw [if_neg hend] at h
        obtain rfl := CacheOutcome.cached.inj h
        refine ⟨?_, rfl⟩
        dsimp only
        rw [readWords, readBytes_drop_take _ _ _ (not_lt.1 hend)]
    · rw [if_neg hmatch] at h
      cases h

theorem scanPages_cached {pages : List ℕ} (h : scanPages soc pcv voltData pages = some (.cached found)) :
    IsCopy pcv voltData found := by
  induction pages with
  | nil => cases h
  | cons page pages ih =>
    rw [scanPages] at h
    by_cases hread : pcv.readable page = false
    · rw [if_pos hread] at h
      cases h
    · rw [if_neg hread, Option.or_eq_some_iff] at h
      rcases h with hpage | ⟨-, hpages⟩
      · obtain ⟨index, -, hindex⟩ := Option.map_eq_some_iff.1 hpage
        exact cacheFromPage_cached hindex
      · exact ih hpages

theorem searchRegions_cached {fuel address : ℕ}
    (h : searchRegions soc pcv voltData fuel address = some (.cached found)) : IsCopy pcv voltData found := by
  induction fuel generalizing address with
  | zero => cases h
  | succ fuel ih =>
    rw [searchRegions] at h
    rcases hquery : pcv.query address with _ | info
    · rw [hquery] at h
      cases h
    · rw [hquery] at h
      dsimp only at h
      by_cases hend : (info.addr + info.size) % 2 ^ 64 = 0
      · rw [if_pos hend] at h
        cases h
      · rw [if_neg hend] at h
        by_cases hheap : info.isHeap = true
        · rw [if_pos hheap] at h
          rcases hscan : scanPages soc pcv voltData (regionPages info) with _ | outcome
          · rw [hscan] at h
            exact ih h
          · rw [hscan] at h
            exact scanPages_cached (hscan.trans h)
        · rw [if_neg hheap] at h
          exact ih h

theorem cacheGpuVoltTable_cached {fuel : ℕ} (h : cacheGpuVoltTable soc pcv voltData fuel = some (.cached found)) :
    IsCopy pcv voltData found := by
  unfold cacheGpuVoltTable at h
  by_cases hhandle : pcv.handle = false
  · rw [if_pos hhandle] at h
    cases h
  · rw [if_neg hhandle] at h
    exact searchRegions_cached h

theorem IsCopy.length (h : IsCopy pcv voltData found) : found.voltTable.length = voltTableSize := by
  rw [h.voltTable, length_readWords]

theorem IsCopy.lt (h : IsCopy pcv voltData found) {e : ℕ} (he : e ∈ found.voltTable) : e < 2 ^ 32 := by
  rw [h.voltTable] at he
  exact toWords_lt he

/-! ## Raising it -/

/-- one call: the `u32` argument, whether PCV is found, and whether the write succeeds -/
structure HijackCall where
  vmin : ℕ
  handle : Bool
  write : Bool
  vmin_lt : vmin < 2 ^ 32

/-- what the sysmodule keeps, PCV's memory, and the minima of the writes that succeeded -/
structure VoltState where
  voltData : GpuVoltData
  memory : ByteMemory
  writes : List ℕ

/-- right after the search -/
def VoltState.start (pcv : PcvProcess) (found : GpuVoltData) : VoltState := ⟨found, pcv.memory, []⟩

/-- the loop of `PcvHijackGpuVolts` -/
def raiseEntries (vmin : ℕ) (table : List ℕ) : List ℕ := table.map fun e => if e ≠ 0 ∧ e ≤ vmin then vmin else e

/-- `PcvHijackGpuVolts` -/
def VoltState.pcvHijackGpuVolts (c : HijackCall) (s : VoltState) : VoltState :=
  if s.voltData.ramVmin = c.vmin then s
  else if c.handle = false then s
  else if c.write then
    { voltData := { s.voltData with ramVmin := c.vmin }
      memory := writeWords s.memory s.voltData.voltTableAddress (raiseEntries c.vmin s.voltData.voltTable)
      writes := s.writes ++ [c.vmin] }
  else s

/-- the minimum is in force after the call: nothing to do, or both parts succeed -/
def VoltState.succeeds (c : HijackCall) (s : VoltState) : Bool := s.voltData.ramVmin = c.vmin || c.handle && c.write

def hijackStep (s : VoltState) (c : HijackCall) : Option VoltState := some (s.pcvHijackGpuVolts c)

/-- an entry raised to a minimum; unused entries stay 0 -/
def raised (vmin e : ℕ) : ℕ := if e = 0 then 0 else max e vmin

theorem raiseEntries_eq (vmin : ℕ) (table : List ℕ) : raiseEntries vmin table = table.map (raised vmin) := by
  apply List.map_congr_left
  intro e _
  unfold raised
  by_cases he : e = 0
  · simp [he]
  · by_cases hle : e ≤ vmin
    · rw [if_pos ⟨he, hle⟩, if_neg he, max_eq_right hle]
    · rw [if_neg (fun h => hle h.2), if_neg he, max_eq_left (not_le.1 hle).le]

@[simp] theorem raised_zero (e : ℕ) : raised 0 e = e := by
  unfold raised
  by_cases he : e = 0
  · rw [if_pos he, he]
  · rw [if_neg he, Nat.max_zero]

theorem map_raised_zero (table : List ℕ) : table.map (raised 0) = table := by
  calc table.map (raised 0) = table.map id := List.map_congr_left fun e _ => raised_zero e
    _ = table := List.map_id table

theorem raised_lt {vmin e : ℕ} (hv : vmin < 2 ^ 32) (he : e < 2 ^ 32) : raised vmin e < 2 ^ 32 := by
  unfold raised
  by_cases h0 : e = 0
  · rw [if_pos h0]
    omega
  · rw [if_neg h0]
    exact max_lt he hv

/-- the copy is never raised, PCV's table is the copy raised once, and no other byte of PCV changes -/
structure HijackInv (pcv : PcvProcess) (found : GpuVoltData) (s : VoltState) : Prop where
  voltTable : s.voltData.voltTable = found.voltTable
  voltTableAddress : s.voltData.voltTableAddress = found.voltTableAddress
  table : readWords s.memory found.voltTableAddress voltTableSize = found.voltTable.map (raised s.voltData.ramVmin)
  ramVmin : s.voltData.ramVmin = s.writes.getLastD 0
  elsewhere : ∀ a, a < found.voltTableAddress ∨ found.voltTableAddress + 4 * voltTableSize ≤ a →
    s.memory a = pcv.memory a

theorem HijackInv.start (hcopy : IsCopy pcv .initial found) : HijackInv pcv found (VoltState.start pcv found) where
  voltTable := rfl
  voltTableAddress := rfl
  table := by
    have hzero : found.ramVmin = 0 := hcopy.ramVmin
    calc readWords pcv.memory found.voltTableAddress voltTableSize = found.voltTable := hcopy.voltTable.symm
      _ = found.voltTable.map (raised 0) := (map_raised_zero _).symm
      _ = found.voltTable.map (raised found.ramVmin) := by rw [hzero]
  ramVmin := hcopy.ramVmin
  elsewhere _ _ := rfl

/-- a call either changes nothing or writes the copy raised to its minimum -/
theorem pcvHijackGpuVolts_cases (c : HijackCall) (s : VoltState) :
    s.pcvHijackGpuVolts c = s ∨
    s.voltData.ramVmin ≠ c.vmin ∧ s.pcvHijackGpuVolts c =
      { voltData := { s.voltData with ramVmin := c.vmin }
        memory := writeWords s.memory s.voltData.voltTableAddress (s.voltData.voltTable.map (raised c.vmin))
        writes := s.writes ++ [c.vmin] } := by
  unfold VoltState.pcvHijackGpuVolts
  rw [raiseEntries_eq]
  split_ifs with hsame hhandle hwrite
  · exact Or.inl rfl
  · exact Or.inl rfl
  · exact Or.inr ⟨hsame, rfl⟩
  · exact Or.inl rfl

/-- **One call, whatever fails in it, keeps the invariant.** -/
theorem hijack_inv (hcopy : IsCopy pcv .initial found) {s : VoltState} (h : HijackInv pcv found s) (c : HijackCall) :
    HijackInv pcv found (s.pcvHijackGpuVolts c) := by
  rcases pcvHijackGpuVolts_cases c s with hskip | ⟨-, hwrite⟩
  · rw [hskip]
    exact h
  · have hlen : (found.voltTable.map (raised c.vmin)).length = voltTableSize := by
      rw [List.length_map, hcopy.length]
    have hwords : ∀ w ∈ found.voltTable.map (raised c.vmin), w < 2 ^ 32 := by
      intro w hw
      obtain ⟨e, he, rfl⟩ := List.mem_map.1 hw
      exact raised_lt c.vmin_lt (hcopy.lt he)
    rw [hwrite, h.voltTable, h.voltTableAddress]
    refine ⟨h.voltTable, h.voltTableAddress, ?_, ?_, ?_⟩
    · have hread : readWords (writeWords s.memory found.voltTableAddress (found.voltTable.map (raised c.vmin)))
          found.voltTableAddress _ = _ := readWords_writeWords hwords
      rwa [hlen] at hread
    · simp
    · intro a ha
      calc writeWords s.memory found.voltTableAddress (found.voltTable.map (raised c.vmin)) a = s.memory a := by
            apply writeBytes_of_outside
            rwa [length_ofWords, hlen]
        _ = pcv.memory a := h.elsewhere a ha

/-- the invariant after any sequence of calls -/
theorem hijack_run_inv (hcopy : IsCopy pcv .initial found) {calls : List HijackCall} {s : VoltState}
    (hrun : run hijackStep (VoltState.start pcv found) calls = some s) : HijackInv pcv found s := by
  refine run_inv (HijackInv pcv found) ?_ allSteps_true (HijackInv.start hcopy) hrun
  intro s c t hs _ ht
  obtain rfl := Option.some.inj ht
  exact hijack_inv hcopy hs c

theorem ramVmin_pcvHijackGpuVolts (c : HijackCall) (s : VoltState) :
    (s.pcvHijackGpuVolts c).voltData.ramVmin = if s.succeeds c then c.vmin else s.voltData.ramVmin := by
  unfold VoltState.pcvHijackGpuVolts VoltState.succeeds
  by_cases hsame : s.voltData.ramVmin = c.vmin
  · simp [hsame]
  · cases hhandle : c.handle <;> cases hwrite : c.write <;> simp [hsame]

/-- the minimum in force is that of the last call whose two parts both succeeded -/
theorem ramVmin_run {calls : List HijackCall} {s t : VoltState} (hrun : run hijackStep s calls = some t) :
    t.voltData.ramVmin =
      ((calls.filter fun c => c.handle && c.write).map HijackCall.vmin).getLastD s.voltData.ramVmin := by
  induction calls generalizing s with
  | nil =>
    obtain rfl := Option.some.inj hrun
    rfl
  | cons c calls ih =>
    obtain ⟨u, hu, hrun'⟩ := run_cons_some _ hrun
    obtain rfl := Option.some.inj hu
    have hvmin : (s.pcvHijackGpuVolts c).voltData.ramVmin =
        if c.handle && c.write then c.vmin else s.voltData.ramVmin := by
      rw [ramVmin_pcvHijackGpuVolts, VoltState.succeeds]
      by_cases hsame : s.voltData.ramVmin = c.vmin
      · simp [hsame]
      · simp [hsame]
    rw [ih hrun', hvmin]
    by_cases hok : (c.handle && c.write) = true
    · rw [List.filter_cons, if_pos hok, if_pos hok, List.map_cons, List.getLastD_cons]
    · rw [List.filter_cons, if_neg hok, if_neg hok]

/-- **The table after any sequence of calls** is the cached one raised to the minimum of the last successful write,
and a minimum of 0 brings it back. -/
theorem gpuVoltTable_raised {fuel : ℕ} (hcache : cacheGpuVoltTable soc pcv .initial fuel = some (.cached found))
    (calls : List HijackCall) {s : VoltState} (hrun : run hijackStep (VoltState.start pcv found) calls = some s) :
    found.voltTable = readWords pcv.memory found.voltTableAddress voltTableSize ∧
    readWords s.memory found.voltTableAddress voltTableSize = found.voltTable.map (raised s.voltData.ramVmin) ∧
    s.voltData.ramVmin = s.writes.getLastD 0 ∧
    ∀ c : HijackCall, c.vmin = 0 → s.succeeds c = true →
      readWords (s.pcvHijackGpuVolts c).memory found.voltTableAddress voltTableSize = found.voltTable := by
  have hcopy := cacheGpuVoltTable_cached hcache
  have hinv := hijack_run_inv hcopy hrun
  refine ⟨hcopy.voltTable, hinv.table, hinv.ramVmin, ?_⟩
  intro c hzero hsucceeds
  have hvmin : (s.pcvHijackGpuVolts c).voltData.ramVmin = 0 := by
    rw [ramVmin_pcvHijackGpuVolts, if_pos hsucceeds, hzero]
  rw [(hijack_inv hcopy hinv c).table, hvmin, map_raised_zero]

/-! A PCV with one heap page: the regulator at its start, two entries in the table. -/

theorem memmemImpl_of_prefix {haystack needle : List UInt8} (h : needle <+: haystack) :
    memmemImpl haystack needle = some 0 := by
  have hlen : haystack.length + 1 - needle.length = (haystack.length - needle.length) + 1 := by
    have hle := h.length_le
    omega
  rw [memmemImpl, hlen, List.range_succ_eq_map, List.find?_cons_of_pos]
  rw [List.drop_zero]
  exact List.isPrefixOf_iff_prefix.2 h

def samplePcv : PcvProcess where
  handle := true
  query address := if address = 0 then some ⟨0x1000, 0x1000, 3, 4⟩ else none
  readable _ := true
  memory := writeWords (writeBytes (fun _ => 0) 0x1000 unkRegulator) (0x1000 + 312) [800, 590]
  pages address info h := by
    by_cases hzero : address = 0
    · rw [if_pos hzero] at h
      obtain rfl := Option.some.inj h
      exact dvd_refl _
    · rw [if_neg hzero] at h
      cases h

def sampleFound : GpuVoltData where
  voltTable := readWords samplePcv.memory (0x1000 + 312) voltTableSize
  voltTableAddress := 0x1000 + 312
  ramVmin := 0

theorem samplePcv_regulator : memmemImpl (readBytes samplePcv.memory 0x1000 pageSize) unkRegulator = some 0 := by
  apply memmemImpl_of_prefix
  have htake : (readBytes samplePcv.memory 0x1000 pageSize).take 12 = unkRegulator := by
    have h : ((readBytes samplePcv.memory 0x1000 pageSize).drop 0).take 12 = readBytes samplePcv.memory 0x1000 12 :=
      readBytes_drop_take pageSize 0 12 (by decide)
    rw [List.drop_zero] at h
    rw [h]
    decide
  rw [← htake]
  exact List.take_prefix _ _

theorem samplePcv_page : cacheFromPage .mariko samplePcv .initial 0x1000 0 = .cached sampleFound := by
  have hvmax : ((readBytes samplePcv.memory 0x1000 pageSize).drop (0 + gpuVoltageTableOffset)).take 4 =
      ofWords [gpuTableVmax .mariko] := by
    rw [readBytes_drop_take _ _ _ (by decide)]
    decide
  rw [cacheFromPage, if_neg (by decide), if_pos hvmax, if_neg (by decide),
    readBytes_drop_take _ _ _ (by decide)]
  rfl

theorem samplePcv_cached : cacheGpuVoltTable .mariko samplePcv .initial 1 = some (.cached sampleFound) := by
  have hscan : scanPages .mariko samplePcv .initial [0x1000] = some (.cached sampleFound) := by
    rw [scanPages, if_neg (by decide), samplePcv_regulator, Option.map_some, samplePcv_page, Option.some_or]
  have hpages : regionPages ⟨0x1000, 0x1000, 3, 4⟩ = [0x1000] := by decide
  have hquery : samplePcv.query 0 = some ⟨0x1000, 0x1000, 3, 4⟩ := rfl
  rw [cacheGpuVoltTable, if_neg (by decide), searchRegions, hquery]
  dsimp only
  rw [if_neg (by decide), if_pos (by decide), hpages, hscan]

/-- raised, raised further, and lowered by a write that fails -/
theorem samplePcv_raised :
    let s := (((VoltState.start samplePcv sampleFound).pcvHijackGpuVolts ⟨610, true, true, by decide⟩).pcvHijackGpuVolts
      ⟨700, true, true, by decide⟩).pcvHijackGpuVolts ⟨0, true, false, by decide⟩
    readWords s.memory sampleFound.voltTableAddress voltTableSize = sampleFound.voltTable.map (raised 700) :=
  (gpuVoltTable_raised samplePcv_cached [⟨610, true, true, by decide⟩, ⟨700, true, true, by decide⟩,
    ⟨0, true, false, by decide⟩] rfl).2.1

/-- **The floor the clock manager believes installed** is the one the table is raised to. -/
theorem hijack_refines {env : Env} {b : Board} {s : VoltState} (c : HijackCall) (hsame : b.hw.ramVmin = s.voltData.ramVmin)
    (hok : env.hijackOk = (c.handle && c.write)) :
    (b.pcvHijackGpuVolts env c.vmin).hw.ramVmin = (s.pcvHijackGpuVolts c).voltData.ramVmin := by
  rw [Board.hijack_ramVmin, ramVmin_pcvHijackGpuVolts, VoltState.succeeds, hsame, hok]
  by_cases hvmin : s.voltData.ramVmin = c.vmin
  · simp [hvmin]
  · simp [hvmin]

end RyazhaClk
