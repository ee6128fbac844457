/-
The search of PCV's heap with its page buffer (`CacheGpuVoltTable`, `board_volt.cpp`). Every page is read into one buffer of
4096 bytes and the whole buffer is searched, also where less was read; what the search finds, it takes from the buffer.

- `searchRegions_eq`: the two nested loops end, and read the pages of the heap in order.
- `safe_scanReads_iff`: every access keeps to the bytes just read exactly when each page up to the first copy of the
  regulator differs from it within these bytes, and that copy has the words behind it on its page.
- `heapScan_iff`: the search is safe and caches the table of the heap exactly when, besides, no other copy was meant.
- `straddling_table`: a table that goes on behind the end of its page is taken from behind the buffer.
- `heapScan_refines`: on whole pages a safe scan is the search of `GpuVoltTable.lean`.

Places of the buffer from 4096 on are what the stack holds there. Neither these nor the first contents of the buffer are known.
-/
import Mathlib.Data.List.TakeWhile
import RyazhaClk.Lib.Search
import RyazhaClk.Sysmodule.GpuVoltTable

namespace RyazhaClk.HeapScan

open WordBytes Search

/-! ## PCV's memory -/

structure Region where
  size : ℕ
  perm : ℕ
  type : ℕ

/-- the regions lie one behind the other -/
def infosFrom : ℕ → List Region → List MemoryInfo
  | _, [] => []
  | addr, r :: rs => ⟨addr, r.size, r.perm, r.type⟩ :: infosFrom (addr + r.size) rs

structure PcvLayout where
  /-- `GetPcvHandle` finds and attaches to PCV -/
  handle : Bool
  regions : List Region
  /-- `svcReadDebugProcessMemory` at an address succeeds -/
  readable : ℕ → Bool
  memory : ByteMemory
  sizes : ∀ r ∈ regions, pageSize ∣ r.size ∨ r.size < pageSize
  fits : (regions.map (·.size)).sum ≤ 2 ^ 64

namespace PcvLayout

def infos (pcv : PcvLayout) : List MemoryInfo := infosFrom 0 pcv.regions

/-- `svcQueryDebugProcessMemory` -/
def query (pcv : PcvLayout) (address : ℕ) : Option MemoryInfo :=
  pcv.infos.find? fun info => info.addr ≤ address ∧ address < info.addr + info.size

end PcvLayout

/-! ## The search -/

def cpuVoltageTableOffset : ℕ := 0xB8

/-- `std::size(cpuVoltTable)` -/
def cpuVoltTableSize : ℕ := 32

/-- one read into the buffer: its address and `memorySize` -/
structure PageRead where
  address : ℕ
  memorySize : ℕ
  inBuffer : memorySize ≤ pageSize

/-- the reads of the inner loop -/
def pageReads (info : MemoryInfo) : List PageRead :=
  (List.range ((info.size + (pageSize - 1)) / pageSize)).map fun i =>
    ⟨info.addr + i * pageSize, min info.size pageSize, min_le_right _ _⟩

/-- a place of the buffer that was read, and what had just been read into the buffer -/
structure Access where
  index : ℕ
  page : PageRead

structure Scan where
  buffer : ByteMemory
  accesses : List Access
  voltData : GpuVoltData
  cpuVoltTable : List ℕ
  /-- the regulator was found -/
  done : Bool

def Scan.start (stack : ByteMemory) : Scan := ⟨stack, [], .initial, List.replicate cpuVoltTableSize 0, false⟩

/-- `svcReadDebugProcessMemory` -/
def fill (m : ByteMemory) (page : PageRead) (buffer : ByteMemory) : ByteMemory := fun j =>
  if j < page.memorySize then m (page.address + j) else buffer j

/-- the positions of `memmem_impl` in the buffer -/
def searchCount : ℕ := pageSize - unkRegulator.length + 1

section Search

variable (soc : HocClkSocType) (pcv : PcvLayout)

/-- the places read once the regulator was found at `index` -/
def foundReads (buffer : ByteMemory) (index : ℕ) : List ℕ :=
  List.range' (index + gpuVoltageTableOffset) 4 ++
    (if readBytes buffer (index + gpuVoltageTableOffset) 4 = ofWords [gpuTableVmax soc] then
      List.range' (index + gpuVoltageTableOffset) (4 * voltTableSize) else []) ++
    List.range' (index + cpuVoltageTableOffset) (4 * cpuVoltTableSize)

def foundVoltData (page : PageRead) (index : ℕ) (buffer : ByteMemory) (voltData : GpuVoltData) : GpuVoltData :=
  if readBytes buffer (index + gpuVoltageTableOffset) 4 = ofWords [gpuTableVmax soc] then
    { voltData with
      voltTable := readWords buffer (index + gpuVoltageTableOffset) voltTableSize
      voltTableAddress := page.address + (index + gpuVoltageTableOffset) }
  else voltData

/-- the body of the inner loop behind a read that succeeded -/
def Scan.readPage (page : PageRead) (s : Scan) : Scan :=
  let buffer := fill pcv.memory page s.buffer
  let resultFindReg := memmemImpl (readBytes buffer 0 pageSize) unkRegulator
  let s := { s with
    buffer := buffer
    accesses := s.accesses ++ (searchReads buffer unkRegulator searchCount resultFindReg).map (⟨·, page⟩) }
  match resultFindReg with
  | none => s
  | some index =>
    { s with
      accesses := s.accesses ++ (foundReads soc buffer index).map (⟨·, page⟩)
      voltData := foundVoltData soc page index buffer s.voltData
      cpuVoltTable := readWords buffer (index + cpuVoltageTableOffset) cpuVoltTableSize
      done := true }

/-- the inner loop; a read that fails ends it -/
def scanPages : List PageRead → Scan → Scan
  | [], s => s
  | page :: pages, s =>
    if pcv.readable page.address = false then s
    else if (s.readPage soc pcv page).done then s.readPage soc pcv page
    else scanPages pages (s.readPage soc pcv page)

/-- the outer loops from `address` on; `none` when the fuel runs out -/
def searchRegions : ℕ → ℕ → Scan → Option Scan
  | 0, _, _ => none
  | fuel + 1, address, s =>
    match pcv.query address with
    | none => some s
    | some info =>
      let next := (info.addr + info.size) % 2 ^ 64
      if next = 0 then some s
      else if info.isHeap then
        if (scanPages soc pcv (pageReads info) s).done then some (scanPages soc pcv (pageReads info) s)
        else searchRegions fuel next (scanPages soc pcv (pageReads info) s)
      else searchRegions fuel next s

/-- a query for each region and one more -/
def cacheGpuVoltTable (stack : ByteMemory) : Option Scan :=
  if pcv.handle = false then some (Scan.start stack)
  else searchRegions soc pcv (pcv.regions.length + 1) 0 (Scan.start stack)

/-! ## The property -/

/-- the vmax word stands behind a regulator at an address -/
def VmaxBehind (address : ℕ) : Prop :=
  readBytes pcv.memory (address + gpuVoltageTableOffset) 4 = ofWords [gpuTableVmax soc]

instance (address : ℕ) : Decidable (VmaxBehind soc pcv address) := inferInstanceAs (Decidable (_ = _))

/-- what is cached for a regulator at an address -/
def cachedAt (address : ℕ) (voltData : GpuVoltData) : GpuVoltData :=
  if VmaxBehind soc pcv address then
    { voltData with
      voltTable := readWords pcv.memory (address + gpuVoltageTableOffset) voltTableSize
      voltTableAddress := address + gpuVoltageTableOffset }
  else voltData

/-- a regulator with its vmax word in a heap region that can be read up to there -/
structure GpuRecord (address : ℕ) : Prop where
  inHeap : ∃ info ∈ pcv.infos, info.isHeap = true ∧ info.addr ≤ address ∧
    address + gpuVoltageTableOffset + 4 ≤ info.addr + info.size ∧
    ∀ page ∈ pageReads info, page.address < address + gpuVoltageTableOffset + 4 → pcv.readable page.address = true
  regulator : MatchAt pcv.memory unkRegulator address
  vmax : VmaxBehind soc pcv address

/-- no access leaves the bytes just read into the buffer -/
def Safe (s : Scan) : Prop := ∀ a ∈ s.accesses, a.index < a.page.memorySize

theorem Safe.inBuffer {s : Scan} (h : Safe s) : ∀ a ∈ s.accesses, a.index < pageSize :=
  fun a ha => (h a ha).trans_le a.page.inBuffer

/-- if there is a record, the table of one and its address were cached -/
def Complete (s : Scan) : Prop :=
  (∃ address, GpuRecord soc pcv address) → ∃ address, GpuRecord soc pcv address ∧
    s.voltData.voltTableAddress = address + gpuVoltageTableOffset ∧
    s.voltData.voltTable = readWords pcv.memory (address + gpuVoltageTableOffset) voltTableSize

/-- the search ends, is safe, and finds the table if it could attach to PCV -/
def ScanCorrect (stack : ByteMemory) : Prop :=
  ∃ s, cacheGpuVoltTable soc pcv stack = some s ∧ Safe s ∧ (pcv.handle = true → Complete soc pcv s)

/-! ## The condition -/

/-- within the bytes read the page differs from the regulator at every position searched -/
def Passed (page : PageRead) : Prop :=
  ∀ p < searchCount, DiffersBefore (fun j => pcv.memory (page.address + j)) unkRegulator page.memorySize p

/-- the first copy of the regulator on the page stands at `index`, with vmax on the page, and with the table there too if
vmax stands behind it -/
structure Hit (page : PageRead) (index : ℕ) : Prop where
  regulator : MatchAt (fun j => pcv.memory (page.address + j)) unkRegulator index
  first : ∀ p < index, DiffersBefore (fun j => pcv.memory (page.address + j)) unkRegulator page.memorySize p
  searched : index < searchCount
  vmaxOnPage : index + gpuVoltageTableOffset + 4 ≤ page.memorySize
  tableOnPage : VmaxBehind soc pcv (page.address + index) →
    index + gpuVoltageTableOffset + 4 * voltTableSize ≤ page.memorySize

/-- the first page of a list with a copy of the regulator, every page before it passed -/
inductive Finds : List PageRead → Option (PageRead × ℕ) → Prop where
  | nil : Finds [] none
  | pass {page : PageRead} {pages : List PageRead} {found : Option (PageRead × ℕ)} :
      Passed pcv page → Finds pages found → Finds (page :: pages) found
  | hit {page : PageRead} {pages : List PageRead} {index : ℕ} :
      Hit soc pcv page index → Finds (page :: pages) (some (page, index))

/-- the pages of the heap that are read while none holds a copy: of each region those in front of the first that cannot be
read, and none of a region that ends at 2^64 -/
def heapReads (infos : List MemoryInfo) : List PageRead :=
  infos.flatMap fun info =>
    if info.isHeap ∧ info.addr + info.size < 2 ^ 64 then (pageReads info).takeWhile fun page => pcv.readable page.address
    else []

/-- the reads of a list of pages, up to the first with a copy -/
def scanReads : List PageRead → Scan → Scan
  | [], s => s
  | page :: pages, s =>
    if (s.readPage soc pcv page).done then s.readPage soc pcv page else scanReads pages (s.readPage soc pcv page)

/-- the first copy the pages hold has vmax behind it, or there is no record at all -/
def ScanOk : Prop :=
  ∃ found, Finds soc pcv (heapReads pcv pcv.infos) found ∧
    ((∃ page index, found = some (page, index) ∧ VmaxBehind soc pcv (page.address + index)) ∨
      ¬ ∃ address, GpuRecord soc pcv address)

end Search

/-! ## One page -/

variable {soc : HocClkSocType} {pcv : PcvLayout} {page : PageRead} {index : ℕ} {s : Scan}

theorem unkRegulator_ne_nil : unkRegulator ≠ [] := by decide

theorem length_unkRegulator : unkRegulator.length = 12 := by decide

theorem fill_of_lt {m buffer : ByteMemory} {j : ℕ} (hj : j < page.memorySize) :
    fill m page buffer j = m (page.address + j) := if_pos hj

theorem isPrefixOf_drop_iff (buffer : ByteMemory) {p : ℕ} (hp : p < searchCount) :
    unkRegulator.isPrefixOf ((readBytes buffer 0 pageSize).drop p) = true ↔ MatchAt buffer unkRegulator p := by
  have hbyte : ∀ k < unkRegulator.length, ((readBytes buffer 0 pageSize).drop p)[k]? = some (buffer (p + k)) := by
    intro k hk
    have hlt : p + k < pageSize := by
      simp only [searchCount, length_unkRegulator, pageSize] at hp hk ⊢
      omega
    rw [List.getElem?_drop, getElem?_readBytes hlt, Nat.zero_add]
  rw [List.isPrefixOf_iff_prefix, List.prefix_iff_getElem?]
  constructor
  · intro h k q hq
    obtain ⟨hk, rfl⟩ := List.getElem?_eq_some_iff.1 hq
    exact Option.some.inj ((hbyte k hk).symm.trans (h k hk))
  · intro h k hk
    rw [hbyte k hk, h k _ (List.getElem?_eq_getElem hk)]

/-- `memmem_impl` answers the first match in the buffer -/
theorem isFirstMatch_memmemImpl (buffer : ByteMemory) :
    IsFirstMatch buffer unkRegulator searchCount (memmemImpl (readBytes buffer 0 pageSize) unkRegulator) := by
  have hcount : (readBytes buffer 0 pageSize).length + 1 - unkRegulator.length = searchCount := by
    rw [length_readBytes, length_unkRegulator]
    rfl
  rw [memmemImpl, hcount]
  cases hfind : (List.range searchCount).find? fun i => unkRegulator.isPrefixOf ((readBytes buffer 0 pageSize).drop i) with
  | none =>
    refine .nothing fun p hp => ?_
    rw [← isPrefixOf_drop_iff buffer hp]
    exact List.find?_eq_none.1 hfind p (List.mem_range.2 hp)
  | some i =>
    rw [List.find?_range_eq_some] at hfind
    obtain ⟨hi, hlt, hfirst⟩ := hfind
    have hi' := List.mem_range.1 hlt
    refine .found hi' ((isPrefixOf_drop_iff buffer hi').1 hi) fun p hp hmatch => ?_
    have hnot := hfirst p hp
    rw [(isPrefixOf_drop_iff buffer (hp.trans hi')).2 hmatch] at hnot
    exact absurd hnot (by decide)

/-- what an access list needs of a page -/
theorem safe_append_map {accesses : List Access} {reads : List ℕ} :
    (∀ a ∈ accesses ++ reads.map (⟨·, page⟩), a.index < a.page.memorySize) ↔
      (∀ a ∈ accesses, a.index < a.page.memorySize) ∧ ∀ j ∈ reads, j < page.memorySize := by
  rw [List.forall_mem_append, List.forall_mem_map]

theorem forall_range'_lt_iff {a k n : ℕ} (hk : 0 < k) : (∀ j ∈ List.range' a k, j < n) ↔ a + k ≤ n := by
  simp only [List.mem_range'_1]
  constructor
  · intro h
    have hlast := h (a + k - 1) ⟨by omega, by omega⟩
    omega
  · intro h j hj
    omega

/-- the CPU table ends where vmax begins -/
theorem foundReads_lt_iff {buffer : ByteMemory} {n : ℕ} : (∀ j ∈ foundReads soc buffer index, j < n) ↔
    index + gpuVoltageTableOffset + 4 ≤ n ∧
      (readBytes buffer (index + gpuVoltageTableOffset) 4 = ofWords [gpuTableVmax soc] →
        index + gpuVoltageTableOffset + 4 * voltTableSize ≤ n) := by
  have hcpu : index + cpuVoltageTableOffset + 4 * cpuVoltTableSize = index + gpuVoltageTableOffset := by
    rw [Nat.add_assoc]
    rfl
  rw [foundReads, List.forall_mem_append, List.forall_mem_append, forall_range'_lt_iff (by decide),
    forall_range'_lt_iff (by decide), hcpu]
  split_ifs with hvmax
  · rw [forall_range'_lt_iff (by decide)]
    simp only [hvmax, forall_const]
    exact and_iff_left_of_imp fun h => (Nat.le_add_right _ 4).trans h.1
  · simp only [hvmax, List.not_mem_nil, false_imp_iff, implies_true, and_true]
    exact and_iff_left_of_imp fun h => (Nat.le_add_right _ 4).trans h

theorem readBytes_fill {m buffer : ByteMemory} {a k : ℕ} (h : a + k ≤ page.memorySize) :
    readBytes (fill m page buffer) a k = readBytes m (page.address + a) k := by
  refine List.map_congr_left fun j hj => ?_
  have hlt := List.mem_range.1 hj
  rw [fill_of_lt (by omega), Nat.add_assoc]

/-- the bytes of vmax in the buffer are those behind the regulator -/
theorem vmax_fill_iff {buffer : ByteMemory} (h : index + gpuVoltageTableOffset + 4 ≤ page.memorySize) :
    readBytes (fill pcv.memory page buffer) (index + gpuVoltageTableOffset) 4 = ofWords [gpuTableVmax soc] ↔
      VmaxBehind soc pcv (page.address + index) := by
  rw [readBytes_fill h, VmaxBehind, Nat.add_assoc]

theorem differsBefore_fill {buffer : ByteMemory} {p : ℕ} :
    DiffersBefore (fill pcv.memory page buffer) unkRegulator page.memorySize p ↔
      DiffersBefore (fun j => pcv.memory (page.address + j)) unkRegulator page.memorySize p :=
  DiffersBefore.congr fun _ hj => fill_of_lt hj

/-- a read and a search that finds nothing -/
theorem readPage_of_none (h : memmemImpl (readBytes (fill pcv.memory page s.buffer) 0 pageSize) unkRegulator = none) :
    s.readPage soc pcv page = { s with
      buffer := fill pcv.memory page s.buffer
      accesses := s.accesses ++
        (searchReads (fill pcv.memory page s.buffer) unkRegulator searchCount none).map (⟨·, page⟩) } := by
  unfold Scan.readPage
  dsimp only
  rw [h]

theorem readPage_of_some (h : memmemImpl (readBytes (fill pcv.memory page s.buffer) 0 pageSize) unkRegulator = some index) :
    s.readPage soc pcv page =
      { buffer := fill pcv.memory page s.buffer
        accesses := s.accesses ++
          (searchReads (fill pcv.memory page s.buffer) unkRegulator searchCount (some index)).map (⟨·, page⟩) ++
          (foundReads soc (fill pcv.memory page s.buffer) index).map (⟨·, page⟩)
        voltData := foundVoltData soc page index (fill pcv.memory page s.buffer) s.voltData
        cpuVoltTable := readWords (fill pcv.memory page s.buffer) (index + cpuVoltageTableOffset) cpuVoltTableSize
        done := true } := by
  unfold Scan.readPage
  dsimp only
  rw [h]

/-- the search of the buffer, with nothing found and no other byte read -/
theorem passed_iff (pcv : PcvLayout) (page : PageRead) (buffer : ByteMemory) : Passed pcv page ↔
    memmemImpl (readBytes (fill pcv.memory page buffer) 0 pageSize) unkRegulator = none ∧
      ∀ j ∈ searchReads (fill pcv.memory page buffer) unkRegulator searchCount
        (memmemImpl (readBytes (fill pcv.memory page buffer) 0 pageSize) unkRegulator), j < page.memorySize := by
  have hpasses := passes_iff (n := page.memorySize) unkRegulator_ne_nil
    (isFirstMatch_memmemImpl (fill pcv.memory page buffer))
  exact (forall₂_congr fun p _ => differsBefore_fill.symm).trans hpasses.symm

/-- the search of the buffer, with a copy found that is a hit, and no other byte read -/
theorem hit_iff (pcv : PcvLayout) (page : PageRead) (index : ℕ) (buffer : ByteMemory) : Hit soc pcv page index ↔
    (memmemImpl (readBytes (fill pcv.memory page buffer) 0 pageSize) unkRegulator = some index ∧
      ∀ j ∈ searchReads (fill pcv.memory page buffer) unkRegulator searchCount
        (memmemImpl (readBytes (fill pcv.memory page buffer) 0 pageSize) unkRegulator), j < page.memorySize) ∧
      ∀ j ∈ foundReads soc (fill pcv.memory page buffer) index, j < page.memorySize := by
  rw [hits_iff unkRegulator_ne_nil (isFirstMatch_memmemImpl (fill pcv.memory page buffer)), foundReads_lt_iff]
  constructor
  · intro h
    have hend : index + unkRegulator.length ≤ page.memorySize := by
      have hvmax := h.vmaxOnPage
      rw [length_unkRegulator]
      simp only [gpuVoltageTableOffset] at hvmax
      omega
    refine ⟨⟨h.searched, hend, (MatchAt.congr (fun _ hj => fill_of_lt hj) hend).2 h.regulator,
      fun p hp => differsBefore_fill.2 (h.first p hp)⟩, h.vmaxOnPage, fun hvmax => ?_⟩
    exact h.tableOnPage ((vmax_fill_iff h.vmaxOnPage).1 hvmax)
  · rintro ⟨⟨hsearched, hend, hmatch, hfirst⟩, hvmax, htable⟩
    exact ⟨(MatchAt.congr (fun _ hj => fill_of_lt hj) hend).1 hmatch, fun p hp => differsBefore_fill.1 (hfirst p hp),
      hsearched, hvmax, fun hbehind => htable ((vmax_fill_iff hvmax).2 hbehind)⟩

/-- **A page is passed safely** exactly when it differs from the regulator everywhere within the bytes read. -/
theorem readPage_pass_iff (soc : HocClkSocType) (pcv : PcvLayout) (page : PageRead) (hdone : s.done = false) :
    (s.readPage soc pcv page).done = false ∧ Safe (s.readPage soc pcv page) ↔ Safe s ∧ Passed pcv page := by
  rw [passed_iff pcv page s.buffer]
  cases hfound : memmemImpl (readBytes (fill pcv.memory page s.buffer) 0 pageSize) unkRegulator with
  | none =>
    rw [readPage_of_none hfound, Safe, safe_append_map]
    simp only [hdone, true_and]
    rfl
  | some i =>
    rw [readPage_of_some hfound]
    simp

/-- **A page ends the search safely** exactly when its first copy is a hit. -/
theorem readPage_hit_iff (soc : HocClkSocType) (pcv : PcvLayout) (page : PageRead) (hdone : s.done = false) :
    (s.readPage soc pcv page).done = true ∧ Safe (s.readPage soc pcv page) ↔ Safe s ∧ ∃ index, Hit soc pcv page index := by
  simp only [hit_iff pcv page _ s.buffer]
  cases hfound : memmemImpl (readBytes (fill pcv.memory page s.buffer) 0 pageSize) unkRegulator with
  | none =>
    rw [readPage_of_none hfound]
    simp [hdone]
  | some i =>
    rw [readPage_of_some hfound, Safe, safe_append_map, safe_append_map]
    simp only [true_and, Option.some.injEq]
    constructor
    · exact fun ⟨⟨hs, hsearch⟩, hreads⟩ => ⟨hs, i, ⟨rfl, hsearch⟩, hreads⟩
    · rintro ⟨hs, index, ⟨rfl, hsearch⟩, hreads⟩
      exact ⟨⟨hs, hsearch⟩, hreads⟩

theorem Passed.done_eq (soc : HocClkSocType) (h : Passed pcv page) (hdone : s.done = false) :
    (s.readPage soc pcv page).done = false := by
  rwa [readPage_of_none ((passed_iff pcv page s.buffer).1 h).1]

theorem Passed.voltData_eq (h : Passed pcv page) : (s.readPage soc pcv page).voltData = s.voltData := by
  rw [readPage_of_none ((passed_iff pcv page s.buffer).1 h).1]

theorem Hit.done_eq (h : Hit soc pcv page index) : (s.readPage soc pcv page).done = true := by
  rw [readPage_of_some ((hit_iff pcv page index s.buffer).1 h).1.1]

/-- what a hit caches is what PCV holds -/
theorem Hit.voltData_eq (h : Hit soc pcv page index) :
    (s.readPage soc pcv page).voltData = cachedAt soc pcv (page.address + index) s.voltData := by
  rw [readPage_of_some ((hit_iff pcv page index s.buffer).1 h).1.1, cachedAt]
  dsimp only
  by_cases hvmax : VmaxBehind soc pcv (page.address + index)
  · rw [foundVoltData, if_pos ((vmax_fill_iff h.vmaxOnPage).2 hvmax), if_pos hvmax, readWords, readWords,
      readBytes_fill (h.tableOnPage hvmax), Nat.add_assoc]
  · rw [foundVoltData, if_neg (mt (vmax_fill_iff h.vmaxOnPage).1 hvmax), if_neg hvmax]

/-! ## A list of pages -/

variable {pages : List PageRead} {found : Option (PageRead × ℕ)}

/-- **Safe reads.** -/
theorem safe_scanReads_iff (soc : HocClkSocType) (pcv : PcvLayout) (pages : List PageRead) (hdone : s.done = false) :
    Safe (scanReads soc pcv pages s) ↔ Safe s ∧ ∃ found, Finds soc pcv pages found := by
  induction pages generalizing s with
  | nil => exact ⟨fun h => ⟨h, none, .nil⟩, fun h => h.1⟩
  | cons page pages ih =>
    rw [scanReads]
    split_ifs with hpage
    · have hhit := readPage_hit_iff soc pcv page hdone
      simp only [hpage, true_and] at hhit
      rw [hhit]
      refine and_congr_right fun _ => ⟨fun ⟨index, h⟩ => ⟨_, .hit h⟩, ?_⟩
      rintro ⟨found, hfinds⟩
      cases hfinds with
      | pass hpassed _ => exact absurd ((hpassed.done_eq soc hdone).symm.trans hpage) (by decide)
      | hit h => exact ⟨_, h⟩
    · have hnext : (s.readPage soc pcv page).done = false := by simpa using hpage
      have hpass := readPage_pass_iff soc pcv page hdone
      simp only [hnext, true_and] at hpass
      rw [ih hnext, hpass]
      constructor
      · rintro ⟨⟨hs, hpassed⟩, found, hfinds⟩
        exact ⟨hs, found, .pass hpassed hfinds⟩
      · rintro ⟨hs, found, hfinds⟩
        cases hfinds with
        | pass hpassed hrest => exact ⟨⟨hs, hpassed⟩, found, hrest⟩
        | hit h => exact absurd (hnext.symm.trans h.done_eq) (by decide)

/-- what the reads cache -/
theorem scanReads_voltData (hdone : s.done = false) (h : Finds soc pcv pages found) :
    (scanReads soc pcv pages s).voltData =
      found.elim s.voltData fun hit => cachedAt soc pcv (hit.1.address + hit.2) s.voltData := by
  induction h generalizing s with
  | nil => rfl
  | pass hpassed _ ih =>
    have hnext := hpassed.done_eq soc hdone
    rw [scanReads, if_neg (by simp [hnext]), ih hnext, hpassed.voltData_eq]
  | hit h => rw [scanReads, if_pos h.done_eq, h.voltData_eq, Option.elim_some]

/-! ## The loops -/

theorem scanReads_append (pages pages' : List PageRead) (s : Scan) (hdone : s.done = false) :
    scanReads soc pcv (pages ++ pages') s =
      if (scanReads soc pcv pages s).done then scanReads soc pcv pages s
      else scanReads soc pcv pages' (scanReads soc pcv pages s) := by
  induction pages generalizing s with
  | nil => simp [scanReads, hdone]
  | cons page pages ih =>
    rw [List.cons_append, scanReads, scanReads]
    cases hpage : (s.readPage soc pcv page).done with
    | true => simp [hpage]
    | false => simpa using ih _ hpage

/-- the inner loop reads a region up to its first page that cannot be read -/
theorem scanPages_eq (pages : List PageRead) (s : Scan) :
    scanPages soc pcv pages s = scanReads soc pcv (pages.takeWhile fun page => pcv.readable page.address) s := by
  induction pages generalizing s with
  | nil => rfl
  | cons page pages ih =>
    rw [scanPages]
    cases hread : pcv.readable page.address with
    | false => simp [hread, scanReads]
    | true => simp [hread, scanReads, ih]

theorem heapReads_cons_pos {info : MemoryInfo} {infos : List MemoryInfo} (hheap : info.isHeap = true)
    (hlt : info.addr + info.size < 2 ^ 64) : heapReads pcv (info :: infos) =
      (pageReads info).takeWhile (fun page => pcv.readable page.address) ++ heapReads pcv infos := by
  rw [heapReads, List.flatMap_cons, if_pos ⟨hheap, hlt⟩, heapReads]

theorem heapReads_cons_neg {info : MemoryInfo} {infos : List MemoryInfo}
    (h : ¬ (info.isHeap = true ∧ info.addr + info.size < 2 ^ 64)) :
    heapReads pcv (info :: infos) = heapReads pcv infos := by
  rw [heapReads, List.flatMap_cons, if_neg h, List.nil_append, heapReads]

theorem not_isHeap_of_size_eq_zero {info : MemoryInfo} (h : info.size = 0) : ¬ info.isHeap = true := by
  simp [MemoryInfo.isHeap, h]

theorem heapReads_of_empty {rs : List Region} (h : ∀ r ∈ rs, r.size = 0) (addr : ℕ) :
    heapReads pcv (infosFrom addr rs) = [] := by
  induction rs generalizing addr with
  | nil => rfl
  | cons r rs ih =>
    obtain ⟨hr, hrs⟩ := List.forall_mem_cons.1 h
    rw [infosFrom, heapReads_cons_neg fun h => not_isHeap_of_size_eq_zero hr h.1, ih hrs]

/-- the regions from `addr` on are still to be queried -/
def Ahead (pcv : PcvLayout) (addr : ℕ) (rs : List Region) : Prop :=
  ∃ pre, pcv.infos = pre ++ infosFrom addr rs ∧ ∀ info ∈ pre, info.addr + info.size ≤ addr

theorem ahead_start (pcv : PcvLayout) : Ahead pcv 0 pcv.regions := ⟨[], rfl, fun info h => by cases h⟩

/-- a query is answered from the regions ahead -/
theorem Ahead.query_eq {addr : ℕ} {rs : List Region} (h : Ahead pcv addr rs) :
    pcv.query addr = (infosFrom addr rs).find? fun info => info.addr ≤ addr ∧ addr < info.addr + info.size := by
  obtain ⟨pre, hinfos, hpre⟩ := h
  have hnone : (pre.find? fun info => info.addr ≤ addr ∧ addr < info.addr + info.size) = none := by
    rw [List.find?_eq_none]
    intro info hinfo
    have hle := hpre info hinfo
    simp only [decide_eq_true_eq, not_and]
    omega
  rw [PcvLayout.query, hinfos, List.find?_append, hnone, Option.none_or]

theorem Ahead.query_cons {addr : ℕ} {r : Region} {rs : List Region} (h : Ahead pcv addr (r :: rs)) (hsize : r.size ≠ 0) :
    pcv.query addr = some ⟨addr, r.size, r.perm, r.type⟩ := by
  rw [h.query_eq, infosFrom, List.find?_cons_of_pos]
  simp only [decide_eq_true_eq]
  omega

theorem Ahead.next {addr : ℕ} {r : Region} {rs : List Region} (h : Ahead pcv addr (r :: rs)) :
    Ahead pcv (addr + r.size) rs := by
  obtain ⟨pre, hinfos, hpre⟩ := h
  refine ⟨pre ++ [⟨addr, r.size, r.perm, r.type⟩], ?_, fun info hinfo => ?_⟩
  · rw [hinfos, infosFrom, List.append_assoc]
    rfl
  · rcases List.mem_append.1 hinfo with h | h
    · exact (hpre info h).trans (Nat.le_add_right _ _)
    · rw [List.mem_singleton.1 h]

/-- regions that end at `addr` with the last address are empty -/
theorem size_eq_zero_of_top {addr : ℕ} {rs : List Region} (htop : addr = 2 ^ 64)
    (hsum : addr + (rs.map (·.size)).sum ≤ 2 ^ 64) : ∀ r ∈ rs, r.size = 0 := by
  intro r hr
  have hle := List.single_le_sum (fun _ _ => Nat.zero_le _) r.size (List.mem_map_of_mem (f := (·.size)) hr)
  omega

/-- one region of those ahead, where the query behind it is not one for address 0 -/
theorem searchRegions_region {info : MemoryInfo} {infos : List MemoryInfo} {fuel addr : ℕ}
    (hquery : pcv.query addr = some info) (hpos : info.size ≠ 0) (hlt : info.addr + info.size < 2 ^ 64)
    (hnext : ∀ t : Scan, t.done = false →
      searchRegions soc pcv fuel (info.addr + info.size) t = some (scanReads soc pcv (heapReads pcv infos) t))
    (hdone : s.done = false) :
    searchRegions soc pcv (fuel + 1) addr s = some (scanReads soc pcv (heapReads pcv (info :: infos)) s) := by
  rw [searchRegions, hquery]
  dsimp only
  rw [Nat.mod_eq_of_lt hlt, if_neg (by omega)]
  by_cases hheap : info.isHeap = true
  · rw [if_pos hheap, heapReads_cons_pos hheap hlt, scanReads_append _ _ _ hdone, scanPages_eq]
    split_ifs with hend
    · rfl
    · exact hnext _ (by simpa using hend)
  · rw [if_neg hheap, heapReads_cons_neg fun h => hheap h.1]
    exact hnext s hdone

/-- **The two loops end, and read the heap in order.** -/
theorem searchRegions_eq (rs : List Region) : ∀ (addr fuel : ℕ) (s : Scan), Ahead pcv addr rs →
    addr + (rs.map (·.size)).sum ≤ 2 ^ 64 → rs.length < fuel → s.done = false →
    searchRegions soc pcv fuel addr s = some (scanReads soc pcv (heapReads pcv (infosFrom addr rs)) s) := by
  induction rs with
  | nil =>
    intro addr fuel s hahead _ hfuel _
    obtain ⟨fuel, rfl⟩ := Nat.exists_eq_add_one_of_ne_zero (Nat.ne_zero_of_lt hfuel)
    rw [searchRegions, hahead.query_eq]
    rfl
  | cons r rs ih =>
    intro addr fuel s hahead hsum hfuel hdone
    rw [List.map_cons, List.sum_cons] at hsum
    rw [List.length_cons] at hfuel
    by_cases hsize : r.size = 0
    · -- no address lies in an empty region
      have hnext := ih (addr + r.size) fuel s hahead.next (by omega) (by omega) hdone
      rw [infosFrom, heapReads_cons_neg fun h => not_isHeap_of_size_eq_zero hsize h.1, ← hnext, hsize, Nat.add_zero]
    · obtain ⟨fuel, rfl⟩ := Nat.exists_eq_add_one_of_ne_zero (Nat.ne_zero_of_lt hfuel)
      have hquery := hahead.query_cons hsize
      by_cases htop : addr + r.size = 2 ^ 64
      · -- the address of the next query is 0, and nothing is left behind this region
        have hempty := size_eq_zero_of_top htop (by omega : addr + r.size + (rs.map (·.size)).sum ≤ 2 ^ 64)
        have hlast : ¬ (MemoryInfo.isHeap ⟨addr, r.size, r.perm, r.type⟩ = true ∧ addr + r.size < 2 ^ 64) := by omega
        rw [searchRegions, hquery, infosFrom, heapReads_cons_neg hlast, heapReads_of_empty hempty]
        dsimp only
        rw [htop, Nat.mod_self, if_pos rfl]
        rfl
      · have hrest : addr + r.size + (rs.map (·.size)).sum ≤ 2 ^ 64 := by omega
        exact searchRegions_region hquery hsize (by omega : addr + r.size < 2 ^ 64)
          (fun t ht => ih _ fuel t hahead.next hrest (by omega) ht) hdone

/-! ## What is found -/

theorem size_of_mem_infosFrom {info : MemoryInfo} {rs : List Region} {addr : ℕ} (h : info ∈ infosFrom addr rs) :
    ∃ r ∈ rs, info.size = r.size := by
  induction rs generalizing addr with
  | nil => cases h
  | cons r rs ih =>
    rcases List.mem_cons.1 h with rfl | h
    · exact ⟨r, List.mem_cons_self, rfl⟩
    · obtain ⟨r', hr', hsize⟩ := ih h
      exact ⟨r', List.mem_cons_of_mem r hr', hsize⟩

/-- a read stays in its region -/
theorem pageRead_le {info : MemoryInfo} {k : ℕ} (hsize : pageSize ∣ info.size ∨ info.size < pageSize)
    (hk : k < (info.size + (pageSize - 1)) / pageSize) : k * pageSize + min info.size pageSize ≤ info.size := by
  simp only [pageSize] at hsize hk ⊢
  rcases hsize with ⟨q, hq⟩ | hsmall
  · omega
  · omega

theorem length_pageReads (info : MemoryInfo) : (pageReads info).length = (info.size + (pageSize - 1)) / pageSize := by
  rw [pageReads, List.length_map, List.length_range]

/-- a page that is read, and those of its region before it -/
theorem mem_heapReads {infos : List MemoryInfo} (h : page ∈ heapReads pcv infos) : ∃ info ∈ infos, info.isHeap = true ∧
    ∃ k < (info.size + (pageSize - 1)) / pageSize, page.address = info.addr + k * pageSize ∧
      page.memorySize = min info.size pageSize ∧ ∀ k' ≤ k, pcv.readable (info.addr + k' * pageSize) = true := by
  obtain ⟨info, hinfo, hpage⟩ := List.mem_flatMap.1 h
  split_ifs at hpage with hheap
  · obtain ⟨k, hk, hpage⟩ := List.mem_iff_getElem.1 hpage
    have hprefix := List.takeWhile_prefix (l := pageReads info) fun page => pcv.readable page.address
    have hcount : k < (info.size + (pageSize - 1)) / pageSize := by
      rw [← length_pageReads]
      exact hk.trans_le hprefix.length_le
    -- the page at a place of the prefix, which stands there in the whole list too
    have hget : ∀ (k' : ℕ) (hk' : k' ≤ k), ((pageReads info).takeWhile fun page => pcv.readable page.address).get
        ⟨k', hk'.trans_lt hk⟩ = ⟨info.addr + k' * pageSize, min info.size pageSize, min_le_right _ _⟩ := by
      intro k' hk'
      rw [List.get_eq_getElem, hprefix.getElem (hk'.trans_lt hk)]
      simp [pageReads]
    have hk' := hget k le_rfl
    rw [List.get_eq_getElem, hpage] at hk'
    refine ⟨info, hinfo, hheap.1, k, hcount, by rw [hk'], by rw [hk'], fun k' hle => ?_⟩
    have hread := List.mem_takeWhile_imp (List.get_mem _ ⟨k', hle.trans_lt hk⟩)
    rwa [hget k' hle] at hread
  · cases hpage

/-- a hit with vmax behind it is a record of the heap -/
theorem Hit.gpuRecord (h : Hit soc pcv page index) (hpage : page ∈ heapReads pcv pcv.infos)
    (hvmax : VmaxBehind soc pcv (page.address + index)) : GpuRecord soc pcv (page.address + index) := by
  obtain ⟨info, hinfo, hheap, k, hk, haddress, hmemory, hread⟩ := mem_heapReads hpage
  obtain ⟨r, hr, hsize⟩ := size_of_mem_infosFrom hinfo
  have hregion := pageRead_le (hsize ▸ pcv.sizes r hr) hk
  have hend := h.vmaxOnPage
  refine ⟨⟨info, hinfo, hheap, by omega, by omega, ?_⟩, ?_, hvmax⟩
  · intro page' hpage' hlt
    obtain ⟨k', hk', rfl⟩ := List.mem_map.1 hpage'
    have hle : k' ≤ k := by
      have hpageEnd := page.inBuffer
      simp only [pageSize] at hlt hpageEnd haddress
      omega
    exact hread k' hle
  · intro j q hj
    rw [Nat.add_assoc]
    exact h.regulator j q hj

theorem Finds.mem (h : Finds soc pcv pages (some (page, index))) : page ∈ pages ∧ Hit soc pcv page index := by
  generalize hfound : some (page, index) = found at h
  induction h with
  | nil => cases hfound
  | pass _ _ ih => exact ⟨List.mem_cons_of_mem _ (ih hfound).1, (ih hfound).2⟩
  | hit h =>
    cases hfound
    exact ⟨List.mem_cons_self, h⟩

/-- with nothing cached there must be no record -/
theorem complete_of_initial_iff (h : s.voltData = .initial) :
    Complete soc pcv s ↔ ¬ ∃ address, GpuRecord soc pcv address := by
  rw [Complete, h]
  constructor
  · rintro hcomplete hrecord
    obtain ⟨address, -, haddress, -⟩ := hcomplete hrecord
    simp only [GpuVoltData.initial, gpuVoltageTableOffset] at haddress
    omega
  · exact fun hnone hrecord => absurd hrecord hnone

/-- a record that is cached is enough -/
theorem Hit.complete (h : Hit soc pcv page index) (hpage : page ∈ heapReads pcv pcv.infos)
    (hvmax : VmaxBehind soc pcv (page.address + index)) {voltData : GpuVoltData}
    (hvolt : s.voltData = cachedAt soc pcv (page.address + index) voltData) : Complete soc pcv s := by
  intro _
  refine ⟨page.address + index, h.gpuRecord hpage hvmax, ?_⟩
  rw [hvolt, cachedAt, if_pos hvmax]
  dsimp only
  exact ⟨rfl, rfl⟩

/-- what is cached is complete exactly when it is a record, or there is none -/
theorem complete_iff (hdone : s.done = false) (hstart : s.voltData = .initial)
    (hfinds : Finds soc pcv (heapReads pcv pcv.infos) found) :
    Complete soc pcv (scanReads soc pcv (heapReads pcv pcv.infos) s) ↔
      (∃ page index, found = some (page, index) ∧ VmaxBehind soc pcv (page.address + index)) ∨
        ¬ ∃ address, GpuRecord soc pcv address := by
  have hvolt := scanReads_voltData hdone hfinds
  rw [hstart] at hvolt
  cases found with
  | none =>
    rw [complete_of_initial_iff hvolt, or_iff_right]
    rintro ⟨page, index, h, -⟩
    cases h
  | some hit =>
    obtain ⟨page, index⟩ := hit
    obtain ⟨hpage, hhit⟩ := hfinds.mem
    rw [Option.elim_some] at hvolt
    by_cases hvmax : VmaxBehind soc pcv (page.address + index)
    · exact iff_of_true (hhit.complete hpage hvmax hvolt) (Or.inl ⟨page, index, rfl, hvmax⟩)
    · rw [cachedAt, if_neg hvmax] at hvolt
      rw [complete_of_initial_iff hvolt, or_iff_right]
      rintro ⟨page', index', h, hvmax'⟩
      cases h
      exact hvmax hvmax'

theorem cacheGpuVoltTable_eq (soc : HocClkSocType) (stack : ByteMemory) (hhandle : pcv.handle = true) :
    cacheGpuVoltTable soc pcv stack = some (scanReads soc pcv (heapReads pcv pcv.infos) (Scan.start stack)) := by
  rw [cacheGpuVoltTable, hhandle, if_neg (by decide)]
  refine searchRegions_eq pcv.regions 0 _ _ (ahead_start pcv) ?_ (Nat.lt_succ_self _) rfl
  rw [Nat.zero_add]
  exact pcv.fits

theorem safe_start (stack : ByteMemory) : Safe (Scan.start stack) := fun a ha => by cases ha

/-- **The heap scan** ends, reads nothing but what was just read from PCV, and caches the table of the heap, exactly when no
position up to the first copy of the regulator is left open by the bytes of its page, that copy has the words that are taken
from behind it on its page, and it has vmax behind it unless nothing in the heap has. -/
theorem heapScan_iff (soc : HocClkSocType) (pcv : PcvLayout) (stack : ByteMemory) :
    ScanCorrect soc pcv stack ↔ (pcv.handle = true → ScanOk soc pcv) := by
  cases hhandle : pcv.handle with
  | false =>
    have hcache : cacheGpuVoltTable soc pcv stack = some (Scan.start stack) := if_pos hhandle
    refine iff_of_true ⟨_, hcache, safe_start stack, fun h => ?_⟩ fun h => ?_
    · exact absurd (hhandle.symm.trans h) (by decide)
    · exact absurd h (by decide)
  | true =>
    have hcache := cacheGpuVoltTable_eq soc stack hhandle
    have hsafe := safe_scanReads_iff soc pcv (heapReads pcv pcv.infos) (s := Scan.start stack) rfl
    constructor
    · rintro ⟨s, hs, hsafe', hcomplete⟩ -
      obtain rfl := Option.some.inj (hcache.symm.trans hs)
      obtain ⟨-, found, hfinds⟩ := hsafe.1 hsafe'
      exact ⟨found, hfinds, (complete_iff rfl rfl hfinds).1 (hcomplete hhandle)⟩
    · intro h
      obtain ⟨found, hfinds, hrecord⟩ := h rfl
      exact ⟨_, hcache, hsafe.2 ⟨safe_start stack, found, hfinds⟩, fun _ => (complete_iff rfl rfl hfinds).2 hrecord⟩

/-! A heap of two pages: the regulator in the last kilobyte of the first page, its table on both. -/

def straddling : PcvLayout where
  handle := true
  regions := [⟨0x1000, 0, 0⟩, ⟨0x2000, 3, 4⟩]
  readable _ := true
  memory := writeWords (writeBytes (fun _ => 0) 0x1C00 unkRegulator) (0x1C00 + 312) [800, 590]
  sizes := by decide
  fits := by decide

theorem straddling_regulator : MatchAt straddling.memory unkRegulator 0x1C00 := by
  have hbytes : ∀ k < 12, unkRegulator[k]? = some (straddling.memory (0x1C00 + k)) := by decide
  intro k q hq
  have hk := (List.getElem?_eq_some_iff.1 hq).1
  rw [length_unkRegulator] at hk
  exact Option.some.inj ((hbytes k hk).symm.trans hq)

theorem straddling_before {a : ℕ} (ha : a < 0x1C00) : straddling.memory a = 0 := by
  have hinner : writeBytes (fun _ => 0) 0x1C00 unkRegulator a = 0 := writeBytes_of_outside (Or.inl ha)
  have houter : straddling.memory a = writeBytes (fun _ => 0) 0x1C00 unkRegulator a :=
    writeBytes_of_outside (Or.inl (by omega))
  exact houter.trans hinner

/-- the table is read from behind the buffer, whatever is there -/
theorem straddling_table : ¬ ∃ stack, ScanCorrect .mariko straddling stack := by
  rintro ⟨stack, s, hs, hsafe, -⟩
  obtain rfl := Option.some.inj ((cacheGpuVoltTable_eq .mariko stack rfl).symm.trans hs)
  obtain ⟨-, found, hfinds⟩ := (safe_scanReads_iff _ _ _ rfl).1 hsafe
  have hreads : heapReads straddling straddling.infos = [⟨0x1000, pageSize, le_rfl⟩, ⟨0x2000, pageSize, le_rfl⟩] := rfl
  have hmatch : MatchAt (fun j => straddling.memory (0x1000 + j)) unkRegulator 0xC00 := by
    intro k q hq
    show straddling.memory (0x1000 + (0xC00 + k)) = q
    rw [← Nat.add_assoc]
    exact straddling_regulator k q hq
  rw [hreads] at hfinds
  cases hfinds with
  | pass hpassed _ => exact (hpassed 0xC00 (by decide)).not_matchAt hmatch
  | @hit _ _ index hhit =>
    have hindex : index = 0xC00 := by
      rcases lt_trichotomy index 0xC00 with hlt | heq | hgt
      · have hfirst : straddling.memory (0x1000 + (index + 0)) = 0xC0 := hhit.regulator 0 0xC0 (by decide)
        rw [straddling_before (by omega)] at hfirst
        exact absurd hfirst (by decide)
      · exact heq
      · exact absurd hmatch (hhit.first 0xC00 hgt).not_matchAt
    subst hindex
    exact absurd (hhit.tableOnPage (by decide)) (by decide)

/-! ## The search on whole pages -/

/-- PCV as the search without a buffer sees it -/
def PcvLayout.process (pcv : PcvLayout) (hpages : ∀ r ∈ pcv.regions, pageSize ∣ r.size) : PcvProcess where
  handle := pcv.handle
  query := pcv.query
  readable := pcv.readable
  memory := pcv.memory
  pages address info h := by
    obtain ⟨r, hr, hsize⟩ := size_of_mem_infosFrom (List.mem_of_find?_eq_some h)
    exact hsize ▸ hpages r hr

def Scan.outcome (s : Scan) : CacheOutcome :=
  if s.done && s.voltData.voltTableAddress ≠ 0 then .cached s.voltData else .notFound

variable {process : PcvProcess}

theorem Safe.of_append {t : Scan} {reads : List Access} (h : Safe t) (ht : t.accesses = s.accesses ++ reads) : Safe s :=
  fun a ha => h a (ht ▸ List.mem_append_left _ ha)

theorem readPage_safe (h : Safe (s.readPage soc pcv page)) : Safe s := by
  cases hfound : memmemImpl (readBytes (fill pcv.memory page s.buffer) 0 pageSize) unkRegulator with
  | none => exact h.of_append (by rw [readPage_of_none hfound])
  | some i => exact h.of_append (by rw [readPage_of_some hfound, List.append_assoc])

theorem readPage_voltData (hdone : (s.readPage soc pcv page).done = false) :
    (s.readPage soc pcv page).voltData = s.voltData := by
  cases hfound : memmemImpl (readBytes (fill pcv.memory page s.buffer) 0 pageSize) unkRegulator with
  | none => rw [readPage_of_none hfound]
  | some i =>
    rw [readPage_of_some hfound] at hdone
    cases hdone

/-- the bytes of a whole page, taken from the buffer or where they are -/
theorem drop_take_page (hmemory : process.memory = pcv.memory) (hsize : page.memorySize = pageSize) (buffer : ByteMemory)
    {a k : ℕ} (h : a + k ≤ pageSize) : ((readBytes process.memory page.address pageSize).drop a).take k =
      readBytes (fill pcv.memory page buffer) a k := by
  rw [readBytes_fill (hsize.symm ▸ h), readBytes_drop_take _ _ _ h, hmemory]

/-- a copy whose words are on the page is cached alike -/
theorem cacheFromPage_eq (hmemory : process.memory = pcv.memory) (hsize : page.memorySize = pageSize) (buffer : ByteMemory)
    (h : ∀ j ∈ foundReads soc (fill pcv.memory page buffer) index, j < pageSize) :
    cacheFromPage soc process .initial page.address index =
      if (foundVoltData soc page index (fill pcv.memory page buffer) .initial).voltTableAddress ≠ 0 then
        .cached (foundVoltData soc page index (fill pcv.memory page buffer) .initial)
      else .notFound := by
  obtain ⟨hvmax, htable⟩ := foundReads_lt_iff.1 h
  rw [cacheFromPage, if_neg (not_lt.2 hvmax), drop_take_page hmemory hsize buffer hvmax, foundVoltData]
  by_cases hmatch : readBytes (fill pcv.memory page buffer) (index + gpuVoltageTableOffset) 4 = ofWords [gpuTableVmax soc]
  · have hend := htable hmatch
    have haddress : page.address + (index + gpuVoltageTableOffset) ≠ 0 := by
      simp only [gpuVoltageTableOffset]
      omega
    rw [if_pos hmatch, if_neg (not_lt.2 hend), if_pos hmatch, if_pos haddress, drop_take_page hmemory hsize buffer hend]
    rfl
  · rw [if_neg hmatch, if_neg hmatch]
    rfl

/-- a whole page, searched in the buffer or where it is -/
theorem readPage_refines (hmemory : process.memory = pcv.memory) (hsize : page.memorySize = pageSize)
    (hdone : s.done = false) (hvolt : s.voltData = .initial) (hsafe : Safe (s.readPage soc pcv page)) :
    (memmemImpl (readBytes process.memory page.address pageSize) unkRegulator).map
        (cacheFromPage soc process .initial page.address) =
      if (s.readPage soc pcv page).done then some (s.readPage soc pcv page).outcome else none := by
  have hbuffer : readBytes process.memory page.address pageSize = readBytes (fill pcv.memory page s.buffer) 0 pageSize := by
    rw [readBytes_fill (by rw [hsize, Nat.zero_add]), hmemory, Nat.add_zero]
  rw [hbuffer]
  cases hfound : memmemImpl (readBytes (fill pcv.memory page s.buffer) 0 pageSize) unkRegulator with
  | none =>
    rw [readPage_of_none hfound]
    simp [hdone]
  | some i =>
    rw [readPage_of_some hfound] at hsafe ⊢
    have hreads : ∀ j ∈ foundReads soc (fill pcv.memory page s.buffer) i, j < page.memorySize := (safe_append_map.1 hsafe).2
    rw [Option.map_some, if_pos rfl, cacheFromPage_eq hmemory hsize s.buffer (hsize ▸ hreads), Scan.outcome, hvolt]
    simp

theorem scanPages_safe (h : Safe (scanPages soc pcv pages s)) : Safe s := by
  induction pages generalizing s with
  | nil => exact h
  | cons page pages ih =>
    rw [scanPages] at h
    split_ifs at h
    · exact h
    · exact readPage_safe h
    · exact readPage_safe (ih h)

theorem scanPages_voltData (hdone : (scanPages soc pcv pages s).done = false) :
    (scanPages soc pcv pages s).voltData = s.voltData := by
  induction pages generalizing s with
  | nil => rfl
  | cons page pages ih =>
    rw [scanPages] at hdone ⊢
    split_ifs at hdone ⊢ with hread hend
    · rfl
    · exact absurd (hend.symm.trans hdone) (by decide)
    · exact (ih hdone).trans (readPage_voltData (by simpa using hend))

theorem scanPages_refines (process : PcvProcess) (hmemory : process.memory = pcv.memory)
    (hreadable : process.readable = pcv.readable) (hsize : ∀ page ∈ pages, page.memorySize = pageSize)
    (hdone : s.done = false) (hvolt : s.voltData = .initial) (hsafe : Safe (scanPages soc pcv pages s)) :
    RyazhaClk.scanPages soc process .initial (pages.map (·.address)) =
      if (scanPages soc pcv pages s).done then some (scanPages soc pcv pages s).outcome else none := by
  induction pages generalizing s with
  | nil => simp [scanPages, RyazhaClk.scanPages, hdone]
  | cons page pages ih =>
    obtain ⟨hpage, hpages⟩ := List.forall_mem_cons.1 hsize
    rw [List.map_cons, RyazhaClk.scanPages, hreadable]
    rw [scanPages] at hsafe ⊢
    by_cases hread : pcv.readable page.address = false
    · simp [hread, hdone]
    · rw [if_neg hread] at hsafe ⊢
      rw [if_neg hread]
      by_cases hend : (s.readPage soc pcv page).done = true
      · rw [if_pos hend] at hsafe ⊢
        rw [readPage_refines hmemory hpage hdone hvolt hsafe, if_pos hend, Option.some_or]
      · rw [if_neg hend] at hsafe ⊢
        have hdone' : (s.readPage soc pcv page).done = false := by simpa using hend
        rw [readPage_refines hmemory hpage hdone hvolt (scanPages_safe hsafe), if_neg hend, Option.none_or]
        exact ih hpages hdone' ((readPage_voltData hdone').trans hvolt) hsafe

/-- the pages of a region of whole pages -/
theorem pageReads_of_dvd {info : MemoryInfo} (h : pageSize ∣ info.size) (hpos : info.size ≠ 0) :
    (pageReads info).map (·.address) = regionPages info ∧ ∀ page ∈ pageReads info, page.memorySize = pageSize := by
  obtain ⟨q, hq⟩ := h
  have hcount : (info.size + (pageSize - 1)) / pageSize = info.size / pageSize := by
    simp only [pageSize] at hq ⊢
    omega
  constructor
  · rw [pageReads, regionPages, List.map_map, hcount]
    rfl
  · intro page hpage
    obtain ⟨i, -, rfl⟩ := List.mem_map.1 hpage
    refine min_eq_right ?_
    simp only [pageSize] at hq ⊢
    omega

/-- a heap region of whole pages, searched with the buffer or without -/
theorem region_refines (hpages : ∀ r ∈ pcv.regions, pageSize ∣ r.size) {info : MemoryInfo} {address : ℕ}
    (hquery : pcv.query address = some info) (hheap : info.isHeap = true) (hdone : s.done = false)
    (hvolt : s.voltData = .initial) (hsafe : Safe (scanPages soc pcv (pageReads info) s)) :
    RyazhaClk.scanPages soc (pcv.process hpages) .initial (regionPages info) =
      if (scanPages soc pcv (pageReads info) s).done then some (scanPages soc pcv (pageReads info) s).outcome
      else none := by
  obtain ⟨hlist, hwhole⟩ := pageReads_of_dvd ((pcv.process hpages).pages address info hquery)
    fun h0 => not_isHeap_of_size_eq_zero h0 hheap
  rw [← hlist]
  exact scanPages_refines (pcv.process hpages) rfl rfl hwhole hdone hvolt hsafe

theorem searchRegions_refines (hpages : ∀ r ∈ pcv.regions, pageSize ∣ r.size) {t : Scan} (fuel : ℕ) :
    ∀ (address : ℕ) (s : Scan), s.done = false → s.voltData = .initial →
      searchRegions soc pcv fuel address s = some t → Safe t →
      RyazhaClk.searchRegions soc (pcv.process hpages) .initial fuel address = some t.outcome ∧ Safe s := by
  induction fuel with
  | zero =>
    intro address s _ _ h
    cases h
  | succ fuel ih =>
    intro address s hdone hvolt h hsafe
    have hstop : s.outcome = .notFound := by simp [Scan.outcome, hdone]
    rw [searchRegions] at h
    rw [RyazhaClk.searchRegions, show (pcv.process hpages).query address = pcv.query address from rfl]
    cases hquery : pcv.query address with
    | none =>
      rw [hquery] at h
      obtain rfl := Option.some.inj h
      exact ⟨by rw [hstop], hsafe⟩
    | some info =>
      rw [hquery] at h
      dsimp only at h ⊢
      split_ifs at h ⊢ with hnext hheap hend
      · obtain rfl := Option.some.inj h
        exact ⟨by rw [hstop], hsafe⟩
      · obtain rfl := Option.some.inj h
        rw [region_refines hpages hquery hheap hdone hvolt hsafe, if_pos hend]
        exact ⟨rfl, scanPages_safe hsafe⟩
      · have hdone' : (scanPages soc pcv (pageReads info) s).done = false := by simpa using hend
        obtain ⟨hrest, hsafe'⟩ := ih _ _ hdone' ((scanPages_voltData hdone').trans hvolt) h hsafe
        rw [region_refines hpages hquery hheap hdone hvolt hsafe', if_neg hend]
        exact ⟨hrest, scanPages_safe hsafe'⟩
      · exact ih _ s hdone hvolt h hsafe

/-- **On whole pages** a safe scan answers what the search without a buffer answers. -/
theorem heapScan_refines (hpages : ∀ r ∈ pcv.regions, pageSize ∣ r.size) {stack : ByteMemory}
    (h : cacheGpuVoltTable soc pcv stack = some s) (hsafe : Safe s) :
    RyazhaClk.cacheGpuVoltTable soc (pcv.process hpages) .initial (pcv.regions.length + 1) = some s.outcome := by
  rw [RyazhaClk.cacheGpuVoltTable, show (pcv.process hpages).handle = pcv.handle from rfl]
  unfold cacheGpuVoltTable at h
  split_ifs at h ⊢ with hhandle
  · obtain rfl := Option.some.inj h
    rfl
  · exact (searchRegions_refines hpages _ 0 _ rfl rfl h hsafe).1

end RyazhaClk.HeapScan
