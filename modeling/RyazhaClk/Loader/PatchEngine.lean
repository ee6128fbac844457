/-
The patch engine of the loader: a table of patcher entries, each with a search for candidate words and a patcher
function, applied at every word of PCV in turn. At each word the entries are tried in the order of the table until one
succeeds; after the scan every entry has to have succeeded as often as it demands.

- `call_spec`: every call of the scan is one of an entry of the table, on the state it found.
- `patchedCount_eq`: an entry's count is the number of its successful calls.
- `patch_counts`: without a crash every count is at least 1 and within the entry's maximum.
- `patch_atomic_iff`: the scan is atomic exactly when no failing call has changed the image.

The image is the memory around the mapped NSO, as a function: a read or write before or behind the NSO is one of the
words there.
-/
import RyazhaClk.Lib.Validated
import RyazhaClk.Loader.MemoryPatches

namespace RyazhaClk.Loader

open Validated

/-! ## Patcher functions -/

/-- the words of memory, by their distance from the start of the NSO -/
abbrev Words := ℤ → BitVec 32

/-- what the patcher functions change: the image, and the static `erista::maxEmcClocks` -/
structure PcvState where
  words : Words
  maxEmcClocks : List ℕ

abbrev PatchM := Prog PcvState PatchFailure

/-- the function returned a failure; after an abort it returns nothing -/
def Failed : PatchFailure → Prop
  | .result _ => True
  | .abort _ => False

instance : DecidablePred Failed
  | .result _ => isTrue trivial
  | .abort _ => isFalse id

def image : PatchM Words := peek PcvState.words

/-- `R_UNLESS` -/
def rUnless (c : Bool) (r : LdrResult) : PatchM Unit := if c then pure () else fail (.result r)

/-- `CRASH`, or the dereference of a null pointer -/
def crash {α : Type} (a : Abort) : PatchM α := fail (.abort a)

/-- a value that cannot be had is a crash -/
def orCrash {α : Type} : Except Abort α → PatchM α
  | .ok a => pure a
  | .error a => crash a

/-- `PATCH_OFFSET(ptr, value)` -/
def patchOffset (ptr : ℤ) (value : BitVec 32) : PatchM Unit :=
  poke fun s => { s with words := Function.update s.words ptr value }

/-- `if (value) PATCH_OFFSET(ptr, value)` -/
def patchIfSet (ptr : ℤ) (value : ℕ) : PatchM Unit :=
  if value ≠ 0 then patchOffset ptr (BitVec.ofNat 32 value) else pure ()

/-- several `PATCH_OFFSET` in order, by their distances from `ptr` -/
def patchOffsets (ptr : ℤ) : List (ℤ × BitVec 32) → PatchM Unit :=
  forEach fun write => patchOffset (ptr + write.1) write.2

/-- `memcmp` with `values`, from `ptr` on -/
def matchesAt (w : Words) (ptr : ℤ) : List (BitVec 32) → Bool
  | [] => true
  | value :: values => w ptr = value && matchesAt w (ptr + 1) values

/-- `memcpy` of `values`, from `ptr` on -/
def copyTo (ptr : ℤ) (values : List (BitVec 32)) : PatchM Unit :=
  patchOffsets ptr (values.mapIdx fun i value => ((i : ℤ), value))

instance : ReadOnly image := inferInstanceAs (ReadOnly (peek PcvState.words))

instance : Sure Failed image := inferInstanceAs (Sure Failed (peek PcvState.words))

instance (c : Bool) (r : LdrResult) : ReadOnly (rUnless c r) := by
  unfold rUnless
  infer_instance

instance {α : Type} (a : Abort) : ReadOnly (crash a : PatchM α) := by
  unfold crash
  infer_instance

instance {α : Type} (a : Abort) : Sure Failed (crash a : PatchM α) := sure_fail Failed id

instance {α : Type} (r : Except Abort α) : ReadOnly (orCrash r) := by
  cases r with
  | ok a => exact inferInstanceAs (ReadOnly (pure a))
  | error a => exact inferInstanceAs (ReadOnly (crash a))

instance (ptr : ℤ) (value : BitVec 32) : Sure Failed (patchOffset ptr value) :=
  inferInstanceAs (Sure Failed (poke _))

instance (ptr : ℤ) (value : ℕ) : Sure Failed (patchIfSet ptr value) :=
  inferInstanceAs (Sure Failed (if value ≠ 0 then patchOffset ptr (BitVec.ofNat 32 value) else pure ()))

instance (ptr : ℤ) (writes : List (ℤ × BitVec 32)) : Sure Failed (patchOffsets ptr writes) :=
  inferInstanceAs (Sure Failed (forEach (fun write => patchOffset (ptr + write.1) write.2) writes))

instance (ptr : ℤ) (values : List (BitVec 32)) : Sure Failed (copyTo ptr values) :=
  inferInstanceAs (Sure Failed (patchOffsets ptr _))

@[simp] theorem exec_image (s : PcvState) : image.exec s = (.ok s.words, s) := rfl

@[simp] theorem exec_patchOffset (ptr : ℤ) (value : BitVec 32) (s : PcvState) :
    (patchOffset ptr value).exec s = (.ok (), { s with words := Function.update s.words ptr value }) := rfl

/-! ## Entries -/

structure PatcherEntry where
  description : String
  patcherFn : ℤ → PatchM Unit
  maximumPatchedCount : ℕ
  patternSearchFn : Option (Words → ℤ → Bool) := none
  valueSearch : BitVec 32 := 0
  patchedCount : ℕ := 0

def PatcherEntry.searchOk (entry : PatcherEntry) (w : Words) (ptr : ℤ) : Bool :=
  match entry.patternSearchFn with
  | some patternFn => patternFn w ptr
  | none => entry.valueSearch = w ptr

def PatcherEntry.searchAndApply (entry : PatcherEntry) (ptr : ℤ) : PatchM Unit := do
  let w ← image
  if entry.searchOk w ptr then entry.patcherFn ptr else fail (.result .unsuccessfulPatcher)

/-- no maximum if it is 0 -/
def PatcherEntry.checkResult (entry : PatcherEntry) : Bool :=
  0 < entry.patchedCount && (entry.maximumPatchedCount = 0 || entry.patchedCount ≤ entry.maximumPatchedCount)

/-! ## The scan -/

/-- one `SearchAndApply`: the entry's place in the table, the word, and the states around the call -/
structure Call where
  index : ℕ
  entry : PatcherEntry
  ptr : ℤ
  before : PcvState
  outcome : Except PatchFailure Unit
  after : PcvState

/-- the entries with their counts, the state, the calls made, and the crash that ended the scan -/
structure Run where
  entries : List PatcherEntry
  state : PcvState
  calls : List Call
  crashed : Option Abort

def callOf (index : ℕ) (entry : PatcherEntry) (ptr : ℤ) (s : PcvState) : Call :=
  ⟨index, entry, ptr, s, ((entry.searchAndApply ptr).exec s).1, ((entry.searchAndApply ptr).exec s).2⟩

/-- the entries at one word, up to the first success; `index` is the place of the first of them -/
def applyEntries (ptr : ℤ) : ℕ → List PatcherEntry → PcvState → Run
  | _, [], s => ⟨[], s, [], none⟩
  | index, entry :: entries, s =>
    let call := callOf index entry ptr s
    match call.outcome with
    | .ok () => ⟨{ entry with patchedCount := entry.patchedCount + 1 } :: entries, call.after, [call], none⟩
    | .error (.result _) =>
      let rest := applyEntries ptr (index + 1) entries call.after
      { rest with
        entries := entry :: rest.entries
        calls := call :: rest.calls }
    | .error (.abort a) => ⟨entry :: entries, call.after, [call], some a⟩

def scanWords : List ℤ → List PatcherEntry → PcvState → Run
  | [], entries, s => ⟨entries, s, [], none⟩
  | ptr :: ptrs, entries, s =>
    let run := applyEntries ptr 0 entries s
    match run.crashed with
    | some _ => run
    | none =>
      let rest := scanWords ptrs run.entries run.state
      { rest with calls := run.calls ++ rest.calls }

/-- the first entry whose result does not check crashes with its description -/
def checkResults : List PatcherEntry → Option Abort
  | [] => none
  | entry :: entries => if entry.checkResult then checkResults entries else some (.panic Panic.patch entry.description)

def patch (ptrs : List ℤ) (entries : List PatcherEntry) (s : PcvState) : Run :=
  let run := scanWords ptrs entries s
  match run.crashed with
  | some _ => run
  | none => { run with crashed := checkResults run.entries }

/-- the words of the loop: those with a whole MTC table before the end of the NSO -/
def scanPositions (nsoSize mtcTableSize : ℕ) : List ℤ :=
  if nsoSize < mtcTableSize then [] else (List.range ((nsoSize - mtcTableSize) / 4 + 1)).map Int.ofNat

theorem scanPositions_nodup (nsoSize mtcTableSize : ℕ) : (scanPositions nsoSize mtcTableSize).Nodup := by
  unfold scanPositions
  by_cases h : nsoSize < mtcTableSize
  · rw [if_pos h]
    exact List.nodup_nil
  · rw [if_neg h]
    exact List.nodup_range.map fun a b hab => Int.ofNat.inj hab

/-! ## The calls of a scan -/

/-- an entry as it stands in the table, before any success -/
def PatcherEntry.fresh (entry : PatcherEntry) : PatcherEntry := { entry with patchedCount := 0 }

/-- one of an entry of the table, on the state it found -/
structure CallSpec (entries : List PatcherEntry) (call : Call) : Prop where
  entry : (entries.map PatcherEntry.fresh)[call.index]? = some call.entry.fresh
  exec : (call.entry.searchAndApply call.ptr).exec call.before = (call.outcome, call.after)

theorem applyEntries_entries (ptr : ℤ) (index : ℕ) (entries : List PatcherEntry) (s : PcvState) :
    (applyEntries ptr index entries s).entries.map PatcherEntry.fresh = entries.map PatcherEntry.fresh := by
  induction entries generalizing index s with
  | nil => rfl
  | cons entry entries ih =>
    rw [applyEntries]
    dsimp only
    split
    · rfl
    · simp only [List.map_cons, ih]
    · rfl

/-- the calls at one word: of the entries from `index` on, all at the word -/
theorem applyEntries_calls {ptr : ℤ} {index : ℕ} {entries : List PatcherEntry} {s : PcvState} {call : Call}
    (h : call ∈ (applyEntries ptr index entries s).calls) :
    ∃ i, entries[i]? = some call.entry ∧ call = callOf (index + i) call.entry ptr call.before := by
  induction entries generalizing index s with
  | nil => simp [applyEntries] at h
  | cons entry entries ih =>
    have hhead : ∀ call, call = callOf index entry ptr s →
        ∃ i, (entry :: entries)[i]? = some call.entry ∧ call = callOf (index + i) call.entry ptr call.before := by
      rintro call rfl
      exact ⟨0, rfl, rfl⟩
    rw [applyEntries] at h
    dsimp only at h
    split at h
    · exact hhead call (List.mem_singleton.1 h)
    · rcases List.mem_cons.1 h with h | h
      · exact hhead call h
      · obtain ⟨i, hi, hcall⟩ := ih h
        exact ⟨i + 1, by simpa using hi, by rwa [show index + (i + 1) = index + 1 + i by omega]⟩
    · exact hhead call (List.mem_singleton.1 h)

theorem scanWords_calls {ptrs : List ℤ} {entries : List PatcherEntry} {s : PcvState} {call : Call}
    (h : call ∈ (scanWords ptrs entries s).calls) : call.ptr ∈ ptrs ∧ CallSpec entries call := by
  induction ptrs generalizing entries s with
  | nil => simp [scanWords] at h
  | cons ptr ptrs ih =>
    have hword : call ∈ (applyEntries ptr 0 entries s).calls → call.ptr ∈ ptr :: ptrs ∧ CallSpec entries call := by
      intro h
      obtain ⟨i, hi, hcall⟩ := applyEntries_calls h
      rw [Nat.zero_add] at hcall
      have hindex : call.index = i := congrArg Call.index hcall
      have hptr : call.ptr = ptr := congrArg Call.ptr hcall
      refine ⟨by simp [hptr], ?_, ?_⟩
      · rw [hindex, List.getElem?_map, hi]
        rfl
      · rw [hptr, congrArg Call.outcome hcall, congrArg Call.after hcall]
        rfl
    rw [scanWords] at h
    dsimp only at h
    split at h
    · exact hword h
    · rcases List.mem_append.1 h with h | h
      · exact hword h
      · obtain ⟨hptr, hentry, hexec⟩ := ih h
        rw [applyEntries_entries] at hentry
        exact ⟨List.mem_cons_of_mem ptr hptr, hentry, hexec⟩

theorem patch_calls (ptrs : List ℤ) (entries : List PatcherEntry) (s : PcvState) :
    (patch ptrs entries s).calls = (scanWords ptrs entries s).calls := by
  rw [patch]
  split <;> rfl

theorem patch_entries (ptrs : List ℤ) (entries : List PatcherEntry) (s : PcvState) :
    (patch ptrs entries s).entries = (scanWords ptrs entries s).entries := by
  rw [patch]
  split <;> rfl

/-- **every call is one of an entry of the table** -/
theorem call_spec {ptrs : List ℤ} {entries : List PatcherEntry} {s : PcvState} {call : Call}
    (h : call ∈ (patch ptrs entries s).calls) : CallSpec entries call := by
  rw [patch_calls] at h
  exact (scanWords_calls h).2

/-! ## Counts -/

def Call.succeeded (call : Call) : Bool :=
  match call.outcome with
  | .ok () => true
  | .error _ => false

/-- the successful calls of the entry at `index` -/
def successes (calls : List Call) (index : ℕ) : ℕ :=
  calls.countP fun call => call.index = index && call.succeeded

@[simp] theorem successes_nil (index : ℕ) : successes [] index = 0 := rfl

theorem successes_append (calls calls' : List Call) (index : ℕ) :
    successes (calls ++ calls') index = successes calls index + successes calls' index := List.countP_append

theorem successes_cons_of_failed {call : Call} (h : call.succeeded = false) (calls : List Call) (index : ℕ) :
    successes (call :: calls) index = successes calls index := by
  simp [successes, h]

theorem successes_singleton {call : Call} (h : call.succeeded = true) (index : ℕ) :
    successes [call] index = if call.index = index then 1 else 0 := by
  by_cases hindex : call.index = index <;> simp [successes, h, hindex]

/-- the calls at one word raise the counts of their entries -/
theorem applyEntries_patchedCount (ptr : ℤ) (index : ℕ) (entries : List PatcherEntry) (s : PcvState) (i : ℕ) :
    (applyEntries ptr index entries s).entries[i]?.map PatcherEntry.patchedCount =
      entries[i]?.map fun e => e.patchedCount + successes (applyEntries ptr index entries s).calls (index + i) := by
  induction entries generalizing index s i with
  | nil => rfl
  | cons entry entries ih =>
    have hindex : ∀ call ∈ (applyEntries ptr (index + 1) entries (callOf index entry ptr s).after).calls,
        call.index ≠ index := by
      intro call hcall
      obtain ⟨j, -, hj⟩ := applyEntries_calls hcall
      have := congrArg Call.index hj
      simp only [callOf] at this
      omega
    rw [applyEntries]
    dsimp only
    split
    · rename_i hok
      have hsucc : (callOf index entry ptr s).succeeded = true := by rw [Call.succeeded, hok]
      rw [successes_singleton hsucc]
      cases i with
      | zero => simp [callOf]
      | succ i => simp [callOf]
    · rename_i hfail
      have hsucc : (callOf index entry ptr s).succeeded = false := by rw [Call.succeeded, hfail]
      rw [successes_cons_of_failed hsucc]
      cases i with
      | zero =>
        have hnone : successes (applyEntries ptr (index + 1) entries (callOf index entry ptr s).after).calls index = 0 := by
          rw [successes, List.countP_eq_zero]
          intro call hcall
          simp [hindex call hcall]
        simp [hnone]
      | succ i =>
        have hrest := ih (index + 1) (callOf index entry ptr s).after i
        rw [show index + 1 + i = index + (i + 1) by omega] at hrest
        simpa using hrest
    · rename_i a habort
      have hsucc : (callOf index entry ptr s).succeeded = false := by rw [Call.succeeded, habort]
      rw [successes_cons_of_failed hsucc, successes_nil]
      simp

theorem scanWords_patchedCount (ptrs : List ℤ) (entries : List PatcherEntry) (s : PcvState) (i : ℕ) :
    (scanWords ptrs entries s).entries[i]?.map PatcherEntry.patchedCount =
      entries[i]?.map fun e => e.patchedCount + successes (scanWords ptrs entries s).calls i := by
  induction ptrs generalizing entries s with
  | nil => simp [scanWords]
  | cons ptr ptrs ih =>
    have hword := applyEntries_patchedCount ptr 0 entries s i
    rw [Nat.zero_add] at hword
    rw [scanWords]
    dsimp only
    split
    · exact hword
    · dsimp only
      have hrest := ih (applyEntries ptr 0 entries s).entries (applyEntries ptr 0 entries s).state
      have hadd : ∀ (o : Option PatcherEntry) (n : ℕ), o.map (fun e => e.patchedCount + n)
          = (o.map PatcherEntry.patchedCount).map (· + n) := by
        intro o n
        rw [Option.map_map]
        rfl
      rw [hrest, hadd, hword, Option.map_map, successes_append]
      simp only [Function.comp_def, Nat.add_assoc]

/-- an entry's count is the number of its successful calls -/
theorem patchedCount_eq {ptrs : List ℤ} {entries : List PatcherEntry} {s : PcvState} {i : ℕ} {e : PatcherEntry}
    (hfresh : ∀ e ∈ entries, e.patchedCount = 0) (he : (patch ptrs entries s).entries[i]? = some e) :
    e.patchedCount = successes (patch ptrs entries s).calls i := by
  rw [patch_entries] at he
  have hcount := scanWords_patchedCount ptrs entries s i
  rw [he, Option.map_some] at hcount
  rcases h0 : entries[i]? with _ | e0
  · rw [h0] at hcount
    cases hcount
  · rw [h0, Option.map_some, Option.some.injEq, hfresh e0 (List.mem_of_getElem? h0), Nat.zero_add] at hcount
    rw [hcount, patch_calls]

theorem checkResults_eq_none {entries : List PatcherEntry} :
    checkResults entries = none ↔ ∀ e ∈ entries, e.checkResult = true := by
  induction entries with
  | nil => simp [checkResults]
  | cons entry entries ih =>
    rw [checkResults]
    by_cases hentry : entry.checkResult = true
    · simp [hentry, ih]
    · simp [hentry]

/-- **a patch that completes has counted every entry at least once and at most to its maximum** -/
theorem patch_counts {ptrs : List ℤ} {entries : List PatcherEntry} {s : PcvState}
    (h : (patch ptrs entries s).crashed = none) :
    ∀ e ∈ (patch ptrs entries s).entries,
      1 ≤ e.patchedCount ∧ (e.maximumPatchedCount ≠ 0 → e.patchedCount ≤ e.maximumPatchedCount) := by
  have hchecks : checkResults (scanWords ptrs entries s).entries = none := by
    rw [patch] at h
    split at h
    · rename_i a hcrash
      rw [hcrash] at h
      cases h
    · exact h
  intro e he
  rw [patch_entries] at he
  have hcheck := checkResults_eq_none.1 hchecks e he
  simp only [PatcherEntry.checkResult, Bool.and_eq_true, decide_eq_true_eq, Bool.or_eq_true] at hcheck
  refine ⟨hcheck.1, ?_⟩
  intro hmax
  rcases hcheck.2 with h0 | hle
  · exact absurd h0 hmax
  · exact hle

/-! ## Atomicity -/

/-- the call returned a failure -/
def Call.Fails (call : Call) : Prop := ∃ r, call.outcome = .error (.result r)

def Call.Unchanged (call : Call) : Prop := call.after.words = call.before.words

structure PatchAtomic (run : Run) : Prop where
  /-- a patcher function that returns failure leaves the image as it found it -/
  failure_unchanged : ∀ call ∈ run.calls, call.Fails → call.Unchanged
  /-- at each scanned position at most one entry changes the image -/
  one_entry : ∀ c ∈ run.calls, ∀ c' ∈ run.calls, c.ptr = c'.ptr → ¬ c.Unchanged → ¬ c'.Unchanged → c.index = c'.index
  /-- without a crash every entry has succeeded at least once and at most as often as its maximum, if it has one -/
  counts : run.crashed = none → ∀ (i : ℕ) (e : PatcherEntry), run.entries[i]? = some e →
    1 ≤ successes run.calls i ∧ (e.maximumPatchedCount ≠ 0 → successes run.calls i ≤ e.maximumPatchedCount)

/-- at one word, the failing calls change nothing and the first other call is the last -/
theorem applyEntries_one {ptr : ℤ} {index : ℕ} {entries : List PatcherEntry} {s : PcvState}
    (hclean : ∀ call ∈ (applyEntries ptr index entries s).calls, call.Fails → call.Unchanged) :
    ∀ c ∈ (applyEntries ptr index entries s).calls, ∀ c' ∈ (applyEntries ptr index entries s).calls,
      ¬ c.Unchanged → ¬ c'.Unchanged → c.index = c'.index := by
  induction entries generalizing index s with
  | nil =>
    intro c hc
    simp [applyEntries] at hc
  | cons entry entries ih =>
    rw [applyEntries] at hclean ⊢
    dsimp only at hclean ⊢
    split at hclean
    · intro c hc c' hc' _ _
      rw [List.mem_singleton.1 hc, List.mem_singleton.1 hc']
    · rename_i r hfail
      have hhead : (callOf index entry ptr s).Unchanged := hclean _ List.mem_cons_self ⟨r, hfail⟩
      have hrest := ih fun call hcall => hclean call (List.mem_cons_of_mem _ hcall)
      intro c hc c' hc' hch hch'
      rcases List.mem_cons.1 hc with rfl | hc
      · exact absurd hhead hch
      · rcases List.mem_cons.1 hc' with rfl | hc'
        · exact absurd hhead hch'
        · exact hrest c hc c' hc' hch hch'
    · intro c hc c' hc' _ _
      rw [List.mem_singleton.1 hc, List.mem_singleton.1 hc']

theorem scanWords_one {ptrs : List ℤ} {entries : List PatcherEntry} {s : PcvState} (hptrs : ptrs.Nodup)
    (hclean : ∀ call ∈ (scanWords ptrs entries s).calls, call.Fails → call.Unchanged) :
    ∀ c ∈ (scanWords ptrs entries s).calls, ∀ c' ∈ (scanWords ptrs entries s).calls,
      c.ptr = c'.ptr → ¬ c.Unchanged → ¬ c'.Unchanged → c.index = c'.index := by
  induction ptrs generalizing entries s with
  | nil =>
    intro c hc
    simp [scanWords] at hc
  | cons ptr ptrs ih =>
    rw [List.nodup_cons] at hptrs
    have hword : ∀ c ∈ (applyEntries ptr 0 entries s).calls, c.ptr = ptr := by
      intro c hc
      obtain ⟨i, -, hcall⟩ := applyEntries_calls hc
      exact congrArg Call.ptr hcall
    rw [scanWords] at hclean ⊢
    dsimp only at hclean ⊢
    split at hclean
    · intro c hc c' hc' _
      exact applyEntries_one hclean c hc c' hc'
    · dsimp only at hclean ⊢
      have hhere := applyEntries_one fun call hcall => hclean call (List.mem_append_left _ hcall)
      have hthere := ih hptrs.2 fun call hcall => hclean call (List.mem_append_right _ hcall)
      intro c hc c' hc' hptr
      rcases List.mem_append.1 hc with hc | hc
      · rcases List.mem_append.1 hc' with hc' | hc'
        · exact hhere c hc c' hc'
        · have hmem := (scanWords_calls hc').1
          rw [← hptr, hword c hc] at hmem
          exact absurd hmem hptrs.1
      · rcases List.mem_append.1 hc' with hc' | hc'
        · have hmem := (scanWords_calls hc).1
          rw [hptr, hword c' hc'] at hmem
          exact absurd hmem hptrs.1
        · exact hthere c hc c' hc' hptr

/-- **the patch is atomic exactly when no failing call has changed the image** -/
theorem patch_atomic_iff {ptrs : List ℤ} {entries : List PatcherEntry} {s : PcvState} (hptrs : ptrs.Nodup)
    (hfresh : ∀ e ∈ entries, e.patchedCount = 0) :
    PatchAtomic (patch ptrs entries s) ↔
      ∀ call ∈ (patch ptrs entries s).calls, call.Fails → call.Unchanged := by
  refine ⟨PatchAtomic.failure_unchanged, ?_⟩
  intro hclean
  refine ⟨hclean, ?_, ?_⟩
  · rw [patch_calls] at hclean ⊢
    exact scanWords_one hptrs hclean
  · intro hdone i e he
    have hcounts := patch_counts hdone e (List.mem_of_getElem? he)
    rwa [patchedCount_eq hfresh he] at hcounts

end RyazhaClk.Loader
