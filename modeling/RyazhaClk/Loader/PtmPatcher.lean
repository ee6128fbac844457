/-
The patch of PTM (`ptm.cpp`): the loader looks for the table of performance configurations in the image, checks each of its
sixteen entries, raises the CPU clock of the boost entries and, on Mariko, the memory clock of all of them.

- `ptmPatchEntries_eq_ok_iff`: the loop goes through exactly when every entry is known, and leaves each one patched.
- `ptmPatch_eq_ok_iff`: the patch succeeds exactly when the first table of the image has known entries and one or two of them
  are boost entries; it changes the pairs of CPU and memory clocks of that table and not another word.
-/
import RyazhaClk.Lib.Records
import RyazhaClk.Loader.PatchEngine

namespace RyazhaClk.Loader

open Records

/-! ## Entries -/

/-- `perf_conf_entry`: the id, the pairs of CPU, GPU and memory clocks, and padding -/
abbrev PerfConfEntry := Fin 8 → BitVec 32

def entryCnt : ℕ := 16

def cpuPtmDefault : BitVec 32 := 1020000000
def cpuPtmDevOC : BitVec 32 := 1224000000
def cpuPtmBoost : BitVec 32 := 1785000000

def memPtmLimit : BitVec 32 := 1600000000
def memPtmAlt : BitVec 32 := 1331200000
def memPtmClamp : BitVec 32 := 1065600000

def ptmEntryIsValid (entry : PerfConfEntry) : Bool :=
  entry 1 = entry 2 && entry 3 = entry 4 && entry 5 = entry 6

def ptmTablePatternFn (entry : PerfConfEntry) : Bool :=
  if !ptmEntryIsValid entry then false else entry 1 = cpuPtmDefault

inductive PtmCrash where
  | confTableNotFound
  | invalidEntry
  | unknownCpuFreq
  | unknownMemFreq
  | cpuPtmBoost
  | memPtm
deriving DecidableEq

/-- the image, and the `patched_count` of the two patcher entries -/
structure PtmState where
  words : Words
  cpuPtmBoostCount : ℕ
  memPtmCount : ℕ

/-- field `f` of entry `i` -/
def confField (confTable : ℤ) (i : ℕ) (f : Fin 8) : ℤ := confTable + (8 : ℕ) * i + f

section Patch

variable (C : CustomizeTable) (isMariko : Bool)

/-- `CpuPtmBoost` -/
def cpuPtmBoostFn (confTable : ℤ) (i : ℕ) (w : Words) : Words :=
  if C.eristaCpuBoostClock = 0 ∨ C.marikoCpuBoostClock = 0 then w
  else
    let cpuPtmBoostNew := BitVec.ofNat 32
      (if isMariko then C.marikoCpuBoostClock * 1000 else C.eristaCpuBoostClock * 1000)
    Function.update (Function.update w (confField confTable i 1) cpuPtmBoostNew) (confField confTable i 2) cpuPtmBoostNew

/-- `MemPtm` -/
def memPtmFn (confTable : ℤ) (i : ℕ) (w : Words) : Words :=
  Function.update (Function.update w (confField confTable i 5) memPtmLimit) (confField confTable i 6) memPtmLimit

/-- the CPU clock of an entry: known, and patched where it is that of the boost -/
def ptmPatchCpu (confTable : ℤ) (s : PtmState) (i : ℕ) : Except PtmCrash PtmState :=
  let freq := s.words (confField confTable i 1)
  if freq = cpuPtmBoost then
    .ok { s with words := cpuPtmBoostFn C isMariko confTable i s.words, cpuPtmBoostCount := s.cpuPtmBoostCount + 1 }
  else if freq = cpuPtmDefault ∨ freq = cpuPtmDevOC then .ok s
  else .error .unknownCpuFreq

/-- its memory clock -/
def ptmPatchMem (confTable : ℤ) (s : PtmState) (i : ℕ) : Except PtmCrash PtmState :=
  let freq := s.words (confField confTable i 5)
  if freq = memPtmLimit ∨ freq = memPtmAlt ∨ freq = memPtmClamp then
    .ok (if isMariko then { s with words := memPtmFn confTable i s.words, memPtmCount := s.memPtmCount + 1 } else s)
  else .error .unknownMemFreq

/-- one turn of the loop over the table -/
def ptmPatchEntry (confTable : ℤ) (s : PtmState) (i : ℕ) : Except PtmCrash PtmState :=
  if !ptmEntryIsValid (record 8 s.words confTable i) then .error .invalidEntry
  else (ptmPatchCpu C isMariko confTable s i).bind fun s => ptmPatchMem isMariko confTable s i

/-- the turns from entry 0 on -/
def ptmPatchEntries (confTable : ℤ) (w : Words) : ℕ → Except PtmCrash PtmState
  | 0 => .ok ⟨w, 0, 0⟩
  | n + 1 => (ptmPatchEntries confTable w n).bind fun s => ptmPatchEntry C isMariko confTable s n

/-- the words at which a table would end within the image -/
def confTablePlaces (nsoSize : ℕ) : ℕ := if nsoSize < 32 * entryCnt then 0 else (nsoSize - 32 * entryCnt) / 4 + 1

/-- `Patch`; `nsoSize` counts bytes -/
def ptmPatch (w : Words) (nsoSize : ℕ) : Except PtmCrash Words :=
  match (List.range (confTablePlaces nsoSize)).find? fun p : ℕ => ptmTablePatternFn (record 8 w p 0) with
  | none => .error .confTableNotFound
  | some confTable =>
    (ptmPatchEntries C isMariko confTable w entryCnt).bind fun s =>
      if s.cpuPtmBoostCount = 0 ∨ 2 < s.cpuPtmBoostCount then .error .cpuPtmBoost
      else if isMariko ∧ (s.memPtmCount = 0 ∨ 16 < s.memPtmCount) then .error .memPtm
      else .ok s.words

end Patch

/-! ## What an entry becomes -/

/-- an entry with the clocks the patch knows -/
structure PtmEntryOk (entry : PerfConfEntry) : Prop where
  valid : entry 1 = entry 2 ∧ entry 3 = entry 4 ∧ entry 5 = entry 6
  cpu : entry 1 = cpuPtmBoost ∨ entry 1 = cpuPtmDefault ∨ entry 1 = cpuPtmDevOC
  mem : entry 5 = memPtmLimit ∨ entry 5 = memPtmAlt ∨ entry 5 = memPtmClamp

/-- the CPU clock of the boost behind the patch; a clock that is not set leaves it for both SoCs -/
def boostClock (C : CustomizeTable) (isMariko : Bool) : BitVec 32 :=
  if C.eristaCpuBoostClock = 0 ∨ C.marikoCpuBoostClock = 0 then cpuPtmBoost
  else BitVec.ofNat 32 (if isMariko then C.marikoCpuBoostClock * 1000 else C.eristaCpuBoostClock * 1000)

/-- an entry behind the patch -/
def patchedEntry (C : CustomizeTable) (isMariko : Bool) (entry : PerfConfEntry) : PerfConfEntry := fun f =>
  if (f = 1 ∨ f = 2) ∧ entry 1 = cpuPtmBoost then boostClock C isMariko
  else if (f = 5 ∨ f = 6) ∧ isMariko then memPtmLimit
  else entry f

/-- the boost entries among the first `n` -/
def boostEntries (w : Words) (confTable : ℤ) (n : ℕ) : ℕ :=
  (List.range n).countP fun i => record 8 w confTable i 1 = cpuPtmBoost

/-- the first `n` entries are patched, and nothing else -/
structure PatchedTo (C : CustomizeTable) (isMariko : Bool) (confTable : ℤ) (w w' : Words) (n : ℕ) : Prop where
  entries : ∀ i, record 8 w' confTable i =
    if i < n then patchedEntry C isMariko (record 8 w confTable i) else record 8 w confTable i
  frame : Frame confTable (confTable + 8 * n) w w'

variable {C : CustomizeTable} {isMariko : Bool} {confTable : ℤ} {w w' w'' : Words} {s s' : PtmState} {i n : ℕ}

theorem ptmEntryIsValid_iff {entry : PerfConfEntry} :
    ptmEntryIsValid entry = true ↔ entry 1 = entry 2 ∧ entry 3 = entry 4 ∧ entry 5 = entry 6 := by
  simp [ptmEntryIsValid, and_assoc]

/-! ## One turn -/

/-- the image behind the turn of entry `i` -/
def ptmPatchedWords (C : CustomizeTable) (isMariko : Bool) (confTable : ℤ) (i : ℕ) (w : Words) : Words :=
  let boosted := if record 8 w confTable i 1 = cpuPtmBoost then cpuPtmBoostFn C isMariko confTable i w else w
  if isMariko then memPtmFn confTable i boosted else boosted

theorem record_confField (w : Words) (f : Fin 8) (v : BitVec 32) (j : ℕ) :
    record 8 (Function.update w (confField confTable i f) v) confTable j =
      if j = i then Function.update (record 8 w confTable i) f v else record 8 w confTable j :=
  record_update w confTable i j f v

/-- a pair of clocks written -/
theorem record_pair (w : Words) (f g : Fin 8) (v : BitVec 32) (j : ℕ) :
    record 8 (Function.update (Function.update w (confField confTable i f) v) (confField confTable i g) v) confTable j =
      if j = i then fun k => if k = f ∨ k = g then v else record 8 w confTable i k else record 8 w confTable j := by
  rw [record_confField, record_confField, record_confField, if_pos rfl]
  by_cases hj : j = i
  · rw [if_pos hj, if_pos hj]
    funext k
    by_cases hg : k = g
    · rw [hg, Function.update_self, if_pos (Or.inr rfl)]
    · rw [Function.update_of_ne hg]
      by_cases hf : k = f
      · rw [hf, Function.update_self, if_pos (Or.inl rfl)]
      · rw [Function.update_of_ne hf, if_neg (by simp [hf, hg])]
  · rw [if_neg hj, if_neg hj, if_neg hj]

theorem frame_pair (w : Words) (f g : Fin 8) (v : BitVec 32) :
    Frame (confTable + 8 * i) (confTable + 8 * (i + 1 : ℕ)) w
      (Function.update (Function.update w (confField confTable i f) v) (confField confTable i g) v) := by
  have hinside : ∀ h : Fin 8, confTable + 8 * i ≤ confField confTable i h ∧
      confField confTable i h < confTable + 8 * (i + 1 : ℕ) := by
    intro h
    have hlt := h.isLt
    unfold confField
    omega
  exact (frame_update (hinside f).1 (hinside f).2).trans (frame_update (hinside g).1 (hinside g).2)

theorem record_cpuPtmBoostFn (w : Words) (j : ℕ) (hpair : record 8 w confTable i 1 = record 8 w confTable i 2)
    (hcpu : record 8 w confTable i 1 = cpuPtmBoost) :
    record 8 (cpuPtmBoostFn C isMariko confTable i w) confTable j =
      if j = i then fun f => if f = 1 ∨ f = 2 then boostClock C isMariko else record 8 w confTable i f
      else record 8 w confTable j := by
  unfold cpuPtmBoostFn boostClock
  by_cases hclock : C.eristaCpuBoostClock = 0 ∨ C.marikoCpuBoostClock = 0
  · rw [if_pos hclock, if_pos hclock]
    split_ifs with hj
    · subst hj
      funext f
      split_ifs with hf
      · rcases hf with rfl | rfl
        · exact hcpu
        · exact hpair.symm.trans hcpu
      · rfl
    · rfl
  · rw [if_neg hclock, if_neg hclock]
    exact record_pair w 1 2 _ j

theorem frame_cpuPtmBoostFn (w : Words) :
    Frame (confTable + 8 * i) (confTable + 8 * (i + 1 : ℕ)) w (cpuPtmBoostFn C isMariko confTable i w) := by
  unfold cpuPtmBoostFn
  split_ifs
  · exact Frame.refl _ _ w
  · exact frame_pair w 1 2 _
  · exact frame_pair w 1 2 _

/-- the turn of an entry patches it and leaves the others -/
theorem record_ptmPatchedWords (w : Words) (j : ℕ) (hpair : record 8 w confTable i 1 = record 8 w confTable i 2) :
    record 8 (ptmPatchedWords C isMariko confTable i w) confTable j =
      if j = i then patchedEntry C isMariko (record 8 w confTable i) else record 8 w confTable j := by
  have hboosted : ∀ j, record 8 (if record 8 w confTable i 1 = cpuPtmBoost then
      cpuPtmBoostFn C isMariko confTable i w else w) confTable j =
      if j = i then fun f => if (f = 1 ∨ f = 2) ∧ record 8 w confTable i 1 = cpuPtmBoost then boostClock C isMariko
        else record 8 w confTable i f
      else record 8 w confTable j := by
    intro j
    by_cases hcpu : record 8 w confTable i 1 = cpuPtmBoost
    · rw [if_pos hcpu, record_cpuPtmBoostFn w j hpair hcpu]
      simp only [hcpu, and_true]
    · rw [if_neg hcpu]
      simp only [hcpu, and_false, if_false]
      split_ifs with hj
      · rw [hj]
      · rfl
  unfold ptmPatchedWords memPtmFn patchedEntry
  dsimp only
  cases isMariko with
  | false =>
    rw [if_neg Bool.false_ne_true, hboosted]
    simp
  | true =>
    rw [if_pos rfl, record_pair, hboosted, hboosted, if_pos rfl]
    split_ifs with hj
    · funext f
      by_cases hmem : f = 5 ∨ f = 6
      · have hcpu : ¬ (f = 1 ∨ f = 2) := by
          rcases hmem with rfl | rfl <;> decide
        simp [hmem, hcpu]
      · simp [hmem]
    · rfl

theorem frame_ptmPatchedWords (w : Words) :
    Frame (confTable + 8 * i) (confTable + 8 * (i + 1 : ℕ)) w (ptmPatchedWords C isMariko confTable i w) := by
  have hboosted : Frame (confTable + 8 * i) (confTable + 8 * (i + 1 : ℕ)) w
      (if record 8 w confTable i 1 = cpuPtmBoost then cpuPtmBoostFn C isMariko confTable i w else w) := by
    split_ifs
    · exact frame_cpuPtmBoostFn w
    · exact Frame.refl _ _ w
  unfold ptmPatchedWords
  cases isMariko with
  | false => exact hboosted
  | true => exact hboosted.trans (frame_pair _ 5 6 _)

theorem ptmPatchCpu_eq_ok_iff : ptmPatchCpu C isMariko confTable s i = .ok s' ↔
    (record 8 s.words confTable i 1 = cpuPtmBoost ∨ record 8 s.words confTable i 1 = cpuPtmDefault ∨
      record 8 s.words confTable i 1 = cpuPtmDevOC) ∧
    s' = ⟨if record 8 s.words confTable i 1 = cpuPtmBoost then cpuPtmBoostFn C isMariko confTable i s.words else s.words,
      s.cpuPtmBoostCount + (if record 8 s.words confTable i 1 = cpuPtmBoost then 1 else 0), s.memPtmCount⟩ := by
  have hfreq : s.words (confField confTable i 1) = record 8 s.words confTable i 1 := rfl
  unfold ptmPatchCpu
  rw [hfreq]
  by_cases hboost : record 8 s.words confTable i 1 = cpuPtmBoost
  · rw [if_pos hboost, if_pos hboost, if_pos hboost]
    exact ⟨fun h => ⟨Or.inl hboost, (Except.ok.inj h).symm⟩, fun h => congrArg Except.ok h.2.symm⟩
  · rw [if_neg hboost, if_neg hboost, if_neg hboost]
    by_cases hknown : record 8 s.words confTable i 1 = cpuPtmDefault ∨ record 8 s.words confTable i 1 = cpuPtmDevOC
    · rw [if_pos hknown]
      exact ⟨fun h => ⟨Or.inr hknown, (Except.ok.inj h).symm⟩, fun h => congrArg Except.ok h.2.symm⟩
    · simp [hboost, hknown]

theorem ptmPatchMem_eq_ok_iff : ptmPatchMem isMariko confTable s i = .ok s' ↔
    (record 8 s.words confTable i 5 = memPtmLimit ∨ record 8 s.words confTable i 5 = memPtmAlt ∨
      record 8 s.words confTable i 5 = memPtmClamp) ∧
    s' = ⟨if isMariko then memPtmFn confTable i s.words else s.words, s.cpuPtmBoostCount,
      s.memPtmCount + if isMariko then 1 else 0⟩ := by
  have hfreq : s.words (confField confTable i 5) = record 8 s.words confTable i 5 := rfl
  unfold ptmPatchMem
  rw [hfreq]
  by_cases hknown : record 8 s.words confTable i 5 = memPtmLimit ∨ record 8 s.words confTable i 5 = memPtmAlt ∨
      record 8 s.words confTable i 5 = memPtmClamp
  · rw [if_pos hknown]
    cases isMariko <;>
      exact ⟨fun h => ⟨hknown, (Except.ok.inj h).symm⟩, fun h => congrArg Except.ok h.2.symm⟩
  · simp [hknown]

/-- the CPU clocks are not the memory clock -/
theorem cpuPtmBoostFn_mem (w : Words) : record 8 (cpuPtmBoostFn C isMariko confTable i w) confTable i 5 =
    record 8 w confTable i 5 := by
  have hpair : ∀ v, record 8 (Function.update (Function.update w (confField confTable i 1) v) (confField confTable i 2) v)
      confTable i 5 = record 8 w confTable i 5 := by
    intro v
    rw [record_pair, if_pos rfl]
    exact if_neg (by decide)
  unfold cpuPtmBoostFn
  dsimp only
  split_ifs
  · rfl
  · exact hpair _
  · exact hpair _

/-- a turn goes through exactly on an entry with known clocks -/
theorem ptmPatchEntry_eq_ok_iff : ptmPatchEntry C isMariko confTable s i = .ok s' ↔
    PtmEntryOk (record 8 s.words confTable i) ∧ s' = ⟨ptmPatchedWords C isMariko confTable i s.words,
      s.cpuPtmBoostCount + (if record 8 s.words confTable i 1 = cpuPtmBoost then 1 else 0),
      s.memPtmCount + if isMariko then 1 else 0⟩ := by
  have hmem : record 8 (if record 8 s.words confTable i 1 = cpuPtmBoost then cpuPtmBoostFn C isMariko confTable i s.words
      else s.words) confTable i 5 = record 8 s.words confTable i 5 := by
    split_ifs
    · exact cpuPtmBoostFn_mem s.words
    · rfl
  unfold ptmPatchEntry
  cases hvalid : ptmEntryIsValid (record 8 s.words confTable i) with
  | false =>
    have hnot : ¬ PtmEntryOk (record 8 s.words confTable i) := by
      intro h
      rw [ptmEntryIsValid_iff.2 h.valid] at hvalid
      cases hvalid
    simp [hnot]
  | true =>
    rw [if_neg (by simp)]
    constructor
    · intro h
      rcases hcpu : ptmPatchCpu C isMariko confTable s i with e | t
      · rw [hcpu] at h
        cases h
      · rw [hcpu] at h
        obtain ⟨hknown, rfl⟩ := ptmPatchCpu_eq_ok_iff.1 hcpu
        obtain ⟨hclock, rfl⟩ := ptmPatchMem_eq_ok_iff.1 h
        exact ⟨⟨ptmEntryIsValid_iff.1 hvalid, hknown, by rwa [hmem] at hclock⟩, rfl⟩
    · rintro ⟨hok, rfl⟩
      rw [ptmPatchCpu_eq_ok_iff.2 ⟨hok.cpu, rfl⟩]
      exact ptmPatchMem_eq_ok_iff.2 ⟨by rw [hmem]; exact hok.mem, rfl⟩

/-! ## The loop -/

theorem PatchedTo.entry_same (h : PatchedTo C isMariko confTable w w' n) (hi : n ≤ i) :
    record 8 w' confTable i = record 8 w confTable i := by
  rw [h.entries, if_neg (Nat.not_lt.2 hi)]

theorem PatchedTo.succ (h : PatchedTo C isMariko confTable w w' n)
    (hpair : record 8 w confTable n 1 = record 8 w confTable n 2) :
    PatchedTo C isMariko confTable w (ptmPatchedWords C isMariko confTable n w') (n + 1) := by
  have hsame := h.entry_same le_rfl
  constructor
  · intro i
    rw [record_ptmPatchedWords w' i (by rw [hsame]; exact hpair), hsame, h.entries]
    rcases lt_trichotomy i n with hi | rfl | hi
    · rw [if_neg (by omega), if_pos hi, if_pos (by omega)]
    · rw [if_pos rfl, if_pos (by omega)]
    · rw [if_neg (by omega), if_neg (by omega), if_neg (by omega)]
  · have hturn := @frame_ptmPatchedWords C isMariko confTable n w'
    exact (h.frame.mono le_rfl (by push_cast; omega)).trans (hturn.mono (by omega) (by push_cast; omega))

/-- the entries and the words outside the table say what the image is -/
theorem PatchedTo.unique (h : PatchedTo C isMariko confTable w w' n) (h' : PatchedTo C isMariko confTable w w'' n) :
    w' = w'' := by
  funext p
  by_cases hp : p < confTable ∨ confTable + 8 * n ≤ p
  · rw [h.frame p hp, h'.frame p hp]
  · have hplace : confTable + (8 : ℕ) * ((p - confTable) / 8).toNat + ((p - confTable) % 8).toNat = p := by omega
    have hfield : ((p - confTable) % 8).toNat < 8 := by omega
    have hrecord := congrFun ((h.entries ((p - confTable) / 8).toNat).trans (h'.entries _).symm)
      ⟨((p - confTable) % 8).toNat, hfield⟩
    unfold record at hrecord
    dsimp only at hrecord
    rwa [hplace] at hrecord

theorem boostEntries_succ (w : Words) (confTable : ℤ) (n : ℕ) : boostEntries w confTable (n + 1) =
    boostEntries w confTable n + if record 8 w confTable n 1 = cpuPtmBoost then 1 else 0 := by
  unfold boostEntries
  rw [List.range_succ, List.countP_append, List.countP_singleton]
  simp

/-- what the loop has made of the first `n` entries -/
structure LoopDone (C : CustomizeTable) (isMariko : Bool) (confTable : ℤ) (w : Words) (n : ℕ) (s : PtmState) : Prop where
  patched : PatchedTo C isMariko confTable w s.words n
  boosts : s.cpuPtmBoostCount = boostEntries w confTable n
  mems : s.memPtmCount = if isMariko then n else 0

theorem LoopDone.unique (h : LoopDone C isMariko confTable w n s) (h' : LoopDone C isMariko confTable w n s') : s = s' := by
  obtain ⟨words, boosts, mems⟩ := s
  obtain ⟨words', boosts', mems'⟩ := s'
  obtain rfl := h.patched.unique h'.patched
  obtain rfl : boosts = boosts' := h.boosts.trans h'.boosts.symm
  obtain rfl : mems = mems' := h.mems.trans h'.mems.symm
  rfl

theorem LoopDone.succ (h : LoopDone C isMariko confTable w n s)
    (hturn : ptmPatchEntry C isMariko confTable s n = .ok s') :
    PtmEntryOk (record 8 w confTable n) ∧ LoopDone C isMariko confTable w (n + 1) s' := by
  obtain ⟨hok, rfl⟩ := ptmPatchEntry_eq_ok_iff.1 hturn
  rw [h.patched.entry_same le_rfl] at hok ⊢
  refine ⟨hok, h.patched.succ hok.valid.1, ?_, ?_⟩
  · rw [boostEntries_succ, h.boosts]
  · dsimp only
    rw [h.mems]
    cases isMariko <;> rfl

theorem ptmPatchEntries_spec (h : ptmPatchEntries C isMariko confTable w n = .ok s) :
    (∀ i < n, PtmEntryOk (record 8 w confTable i)) ∧ LoopDone C isMariko confTable w n s := by
  induction n generalizing s with
  | zero =>
    obtain rfl := Except.ok.inj h
    refine ⟨fun i hi => absurd hi (Nat.not_lt_zero i), ⟨fun i => ?_, Frame.refl _ _ w⟩, rfl, ?_⟩
    · rw [if_neg (Nat.not_lt_zero i)]
    · cases isMariko <;> rfl
  | succ n ih =>
    rw [ptmPatchEntries] at h
    rcases hrun : ptmPatchEntries C isMariko confTable w n with e | t
    · rw [hrun] at h
      cases h
    · rw [hrun] at h
      obtain ⟨hall, hdone⟩ := ih hrun
      obtain ⟨hok, hdone'⟩ := hdone.succ h
      refine ⟨fun i hi => ?_, hdone'⟩
      rcases Nat.lt_succ_iff_lt_or_eq.1 hi with hlt | rfl
      · exact hall i hlt
      · exact hok

theorem exists_ptmPatchEntries (h : ∀ i < n, PtmEntryOk (record 8 w confTable i)) :
    ∃ s, ptmPatchEntries C isMariko confTable w n = .ok s := by
  induction n with
  | zero => exact ⟨_, rfl⟩
  | succ n ih =>
    obtain ⟨s, hs⟩ := ih fun i hi => h i (by omega)
    have hsame := (ptmPatchEntries_spec hs).2.patched.entry_same le_rfl
    have hok : PtmEntryOk (record 8 s.words confTable n) := by
      rw [hsame]
      exact h n (Nat.lt_succ_self n)
    have hturn := (@ptmPatchEntry_eq_ok_iff C isMariko confTable s _ n).2 ⟨hok, rfl⟩
    exact ⟨_, by rw [ptmPatchEntries, hs]; exact hturn⟩

/-- **The loop** goes through exactly when every entry has known clocks, and leaves each one patched. -/
theorem ptmPatchEntries_eq_ok_iff : ptmPatchEntries C isMariko confTable w n = .ok s ↔
    (∀ i < n, PtmEntryOk (record 8 w confTable i)) ∧ LoopDone C isMariko confTable w n s := by
  constructor
  · exact ptmPatchEntries_spec
  · rintro ⟨hall, hdone⟩
    obtain ⟨t, ht⟩ := @exists_ptmPatchEntries C isMariko confTable w n hall
    rw [ht, (ptmPatchEntries_spec ht).2.unique hdone]

/-! ## The patch -/

/-- the first place at which a table begins, with room for all of it -/
structure FirstTable (w : Words) (nsoSize p : ℕ) : Prop where
  found : ptmTablePatternFn (record 8 w p 0) = true
  room : 4 * p + 32 * entryCnt ≤ nsoSize
  first : ∀ q < p, ptmTablePatternFn (record 8 w q 0) = false

theorem lt_confTablePlaces_iff {nsoSize p : ℕ} : p < confTablePlaces nsoSize ↔ 4 * p + 32 * entryCnt ≤ nsoSize := by
  unfold confTablePlaces entryCnt
  split_ifs <;> omega

theorem find_eq_some_iff {nsoSize p : ℕ} :
    (List.range (confTablePlaces nsoSize)).find? (fun p : ℕ => ptmTablePatternFn (record 8 w p 0)) = some p ↔
      FirstTable w nsoSize p := by
  rw [List.find?_range_eq_some, List.mem_range, lt_confTablePlaces_iff]
  constructor
  · rintro ⟨hfound, hroom, hfirst⟩
    exact ⟨hfound, hroom, fun q hq => by simpa using hfirst q hq⟩
  · rintro ⟨hfound, hroom, hfirst⟩
    exact ⟨hfound, hroom, fun q hq => by simpa using hfirst q hq⟩

theorem FirstTable.unique {nsoSize p q : ℕ} (h : FirstTable w nsoSize p) (h' : FirstTable w nsoSize q) : p = q :=
  Option.some.inj ((find_eq_some_iff.2 h).symm.trans (find_eq_some_iff.2 h'))

/-- **The patch of PTM.** It succeeds exactly when the first table of the image has sixteen entries with known clocks and
one or two of them are boost entries; what it leaves is that table with its entries patched, and every other word. -/
theorem ptmPatch_eq_ok_iff (C : CustomizeTable) (isMariko : Bool) (w w' : Words) (nsoSize : ℕ) :
    ptmPatch C isMariko w nsoSize = .ok w' ↔ ∃ p, FirstTable w nsoSize p ∧
      (∀ i < entryCnt, PtmEntryOk (record 8 w p i)) ∧
      (boostEntries w p entryCnt = 1 ∨ boostEntries w p entryCnt = 2) ∧ PatchedTo C isMariko p w w' entryCnt := by
  unfold ptmPatch
  cases hfind : (List.range (confTablePlaces nsoSize)).find? fun p : ℕ => ptmTablePatternFn (record 8 w p 0) with
  | none =>
    constructor
    · intro h
      cases h
    · rintro ⟨p, hfirst, -⟩
      rw [find_eq_some_iff.2 hfirst] at hfind
      cases hfind
  | some p =>
    have hp := find_eq_some_iff.1 hfind
    constructor
    · intro h
      rcases hrun : ptmPatchEntries C isMariko p w entryCnt with e | s
      · simp only [hrun] at h
        cases h
      · simp only [hrun] at h
        obtain ⟨hall, hdone⟩ := ptmPatchEntries_eq_ok_iff.1 hrun
        have hboosts := hdone.boosts
        change (if s.cpuPtmBoostCount = 0 ∨ 2 < s.cpuPtmBoostCount then _ else _) = _ at h
        split_ifs at h with hcount hmem
        obtain rfl := Except.ok.inj h
        exact ⟨p, hp, hall, by omega, hdone.patched⟩
    · rintro ⟨q, hq, hall, hboosts, hpatched⟩
      obtain rfl := hq.unique hp
      have hdone : LoopDone C isMariko q w entryCnt
          ⟨w', boostEntries w q entryCnt, if isMariko then entryCnt else 0⟩ := ⟨hpatched, rfl, rfl⟩
      have hmem : ¬ (isMariko = true ∧ ((if isMariko then entryCnt else 0) = 0 ∨ 16 < if isMariko then entryCnt else 0)) := by
        cases isMariko <;> decide
      simp only [ptmPatchEntries_eq_ok_iff.2 ⟨hall, hdone⟩, Except.bind]
      rw [if_neg (by omega), if_neg hmem]

end RyazhaClk.Loader
