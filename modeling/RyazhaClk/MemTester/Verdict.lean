/-
What the memory tester's verdict says about the memory its workers share, over all interleavings of their accesses.

- `within_runJob`: a job uses the cells behind its worker's buffer only.
- `verdict`: in the long and the fast test the first "ok" is printed only when the words of all buffers are sound, unless
  two buffers have a cell in common; and on sound buffers no test ever fails.
- `crossed_rows_pass`: two buffers that do have cells in common can pass.
-/
import Mathlib.Tactic
import RyazhaClk.MemTester.Footprint
import RyazhaClk.MemTester.SharedMemory

namespace RyazhaClk.MemTester

open Accesses FaultyMemory Transition

/-- the part of the memory a worker tests, from a page on -/
structure Buffer where
  aligned : ℕ
  bufsize : ℕ
  page : 4096 ∣ aligned
  space : aligned + bufsize ≤ 2 ^ 63

namespace Buffer

/-- its bits -/
def bits (b : Buffer) : Set ℕ := region b.aligned b.bufsize

/-- the bits of its whole words -/
def words (b : Buffer) : Set ℕ := region b.aligned (8 * (b.bufsize / 8))

theorem words_subset (b : Buffer) : b.words ⊆ b.bits := fun _ hk => ⟨hk.1, lt_of_lt_of_le hk.2 (by omega)⟩

/-- the two halves, as the tests are given them -/
theorem regions (b : Buffer) : Regions b.bits b.aligned (b.aligned + b.bufsize / 2) (b.bufsize / 8 / 2) := by
  refine ⟨fun k hk => ?_, fun k hk => ?_, by omega⟩ <;>
  · have hk' : 8 * _ ≤ k ∧ k < 8 * (_ + _) := hk
    exact ⟨by omega, by omega⟩

end Buffer

/-- the test chosen with A, X or Y -/
inductive Mode where
  | long
  | fast
  | stress
deriving DecidableEq

def Mode.dividend : Mode → ℕ
  | .long => 1
  | .fast => 4
  | .stress => 16

variable {R : Type} [DecidableEq R]

/-- the table `test_select` points to -/
def Mode.testSelect (mode : Mode) (d : Dram R) : List (Test R) :=
  match mode with
  | .stress => stressTests d
  | _ => tests d mode.dividend

def Mode.jobs : Mode → ℕ
  | .stress => 3
  | _ => 15

theorem Mode.length_testSelect (mode : Mode) (d : Dram R) : (mode.testSelect d).length = mode.jobs := by
  cases mode <;> rfl

/-- a job of `testWorker`, the stuck address test for -1; a null row is never called -/
def runJob (mode : Mode) (b : Buffer) (d : Dram R) (job : ℤ) (rand : ℕ → BitVec 32) : Prog (Memory R) ℤ :=
  if job = -1 then testStuckAddress d mode.dividend b.aligned (b.bufsize / 8)
  else
    match (mode.testSelect d)[job.toNat]? with
    | some t => t.fp rand b.aligned (b.aligned + b.bufsize / 2) (b.bufsize / 8 / 2)
    | none => pure 0

/-- the jobs of the workers, each on its buffer -/
def bufferJobs {n : ℕ} (mode : Mode) (bufs : Fin n → Buffer) (d : Dram R) (i : Fin n) :
    ℤ → (ℕ → BitVec 32) → Prog (Memory R) ℤ := runJob mode (bufs i) d

/-- a step of the tester, with a buffer for each worker in one memory -/
def memtesterStep {n : ℕ} (mode : Mode) (bufs : Fin n → Buffer) (d : Dram R) :
    SharedTester n (Memory R) → TesterEvent n (ℕ → BitVec 32) → Option (SharedTester n (Memory R)) :=
  sharedStep mode.jobs (bufferJobs mode bufs d)

theorem Mode.jobs_pos (mode : Mode) : 0 < mode.jobs := by cases mode <;> decide

/-! ## The jobs of one worker -/

section Worker

variable (mode : Mode) (b : Buffer) (d : Dram R)

/-- what a test of the list needs of the memory, and every one but the first gets -/
def Ready (k : ℤ) (m : Memory R) : Prop :=
  1 ≤ k → Agree d b.aligned (b.aligned + b.bufsize / 2) (b.bufsize / 8 / 2) m

variable {mode b d}

theorem testSelect_passes (h : Sound d.wiring b.bits) (hbig : mode = .stress → 512 ≤ b.bufsize) :
    ∀ t ∈ mode.testSelect d, Passes d b.aligned (b.aligned + b.bufsize / 2) (b.bufsize / 8 / 2) t := by
  cases mode with
  | long => exact passes_tests h b.regions 1
  | fast => exact passes_tests h b.regions 4
  | stress =>
    have hsize := hbig rfl
    exact passes_stressTests h b.regions (by omega)

theorem testSelect_establishes (h : Sound d.wiring b.bits) :
    ∀ t ∈ (mode.testSelect d)[0]?, Establishes d b.aligned (b.aligned + b.bufsize / 2) (b.bufsize / 8 / 2) t := by
  cases mode with
  | long | fast =>
    intro t ht
    obtain rfl := Option.some.inj ht
    exact establishes_filled h b.regions _ _
  | stress =>
    intro t ht
    obtain rfl := Option.some.inj ht
    exact establishes_testStressMemcpy h b.regions _

/-- on a sound buffer every job passes and leaves what the next one needs -/
theorem runJob_passes (h : Sound d.wiring b.bits) (hbig : mode = .stress → 512 ≤ b.bufsize) {k : ℤ}
    (hlo : -1 ≤ k) (hhi : k < mode.jobs) (rand : ℕ → BitVec 32) {m : Memory R} (hm : Ready b d k m) :
    ((runJob mode b d k rand).run m).1 = 0 ∧ Ready b d (nextJob mode.jobs k) ((runJob mode b d k rand).run m).2 := by
  unfold runJob
  by_cases hstuck : k = -1
  · rw [if_pos hstuck]
    constructor
    · exact testStuckAddress_of_sound mode.dividend (h.mono b.words_subset) m
    · intro hk
      have hpos := mode.jobs_pos
      rw [hstuck, nextJob] at hk
      split_ifs at hk <;> omega
  · rw [if_neg hstuck]
    have hlen : k.toNat < (mode.testSelect d).length := by
      rw [mode.length_testSelect]
      omega
    have hsome := List.getElem?_eq_getElem hlen
    have hpasses : ((mode.testSelect d)[k.toNat].fp rand b.aligned (b.aligned + b.bufsize / 2) (b.bufsize / 8 / 2) m).1 = 0 ∧
        Agree d b.aligned (b.aligned + b.bufsize / 2) (b.bufsize / 8 / 2)
          ((mode.testSelect d)[k.toNat].fp rand b.aligned (b.aligned + b.bufsize / 2) (b.bufsize / 8 / 2) m).2 := by
      by_cases hzero : k = 0
      · subst hzero
        exact testSelect_establishes h _ hsome rand m
      · exact testSelect_passes h hbig _ (List.getElem_mem hlen) rand m (hm (by omega))
    rw [hsome]
    exact ⟨hpasses.1, fun _ => hpasses.2⟩

/-- a job keeps to the cells of its buffer -/
theorem within_runJob (hbig : mode = .stress → 512 ≤ b.bufsize) (k : ℤ) (rand : ℕ → BitVec 32) :
    Within (d.cells b.bits) (runJob mode b d k rand) := by
  have htests : ∀ t ∈ mode.testSelect d, ∀ rand,
      Within (d.cells b.bits) (t.fp rand b.aligned (b.aligned + b.bufsize / 2) (b.bufsize / 8 / 2)) := by
    cases mode with
    | long => exact within_tests b.regions 1
    | fast => exact within_tests b.regions 4
    | stress =>
      have hsize := hbig rfl
      exact within_stressTests b.regions (by omega)
  unfold runJob
  split_ifs
  · exact within_testStuckAddress b.words_subset _
  · cases ht : (mode.testSelect d)[k.toNat]? with
    | none => exact .pure 0
    | some t => exact htests t (List.mem_of_getElem? ht) rand

end Worker

/-! ## The verdict -/

section Verdict

variable {n : ℕ} {mode : Mode} {bufs : Fin n → Buffer} {d : Dram R}

/-- the whole words of a buffer, once the first "ok" of a long or a fast test is printed -/
theorem words_sound {mem : Fin n → Memory R} {t : Tester n (Memory R)}
    (hr : Reachable (testerStep mode.jobs (runs (bufferJobs mode bufs d))) (Tester.start mem) t) (hmode : mode ≠ .stress)
    (hok : t.ok ≠ []) (i : Fin n) : Sound d.wiring (bufs i).words := by
  have h := LockstepInv.reachable mode.jobs_pos hr
  have hmem : (-1 : ℤ) ∈ t.ok := by
    obtain ⟨k, ok, hcons⟩ := List.exists_cons_of_ne_nil hok
    have horder := h.order
    rw [hcons, List.length_cons, List.range_succ_eq_map, List.map_cons] at horder
    have hhead := List.head_eq_of_cons_eq horder
    rw [hcons, hhead]
    exact List.mem_cons.2 (Or.inl (by simp [jobSeq]))
  have hpassed : (-1 : ℤ) ∈ (t.workers i).passed := by
    rcases h.worker_cases i with hw | hw | hw
    · rwa [hw.passed]
    · cases hw with
      | missed _ _ _ _ passed => rwa [passed]
      | working _ _ _ passed => rwa [passed]
      | passed _ _ _ passed =>
        rw [passed]
        exact List.mem_append_left _ hmem
      | failed _ _ _ passed => rwa [passed]
    · rw [hw.passed]
      exact List.mem_append_left _ hmem
  obtain ⟨rand, m, hzero⟩ := passed_spec hr i (-1) hpassed
  rw [runs, bufferJobs, runJob, if_pos rfl] at hzero
  have hspace := (bufs i).space
  refine sound_of_testStuckAddress ?_ ((by norm_num : 8 ∣ 4096).trans (bufs i).page) (by omega) hzero
  cases mode with
  | long => decide
  | fast => decide
  | stress => exact absurd rfl hmode

omit [DecidableEq R] in
/-- sound parts that have no cell in common are sound together -/
theorem sound_iUnion {S T : Fin n → Set ℕ} (hsound : ∀ i, Sound d.wiring (S i)) (hsub : ∀ i, S i ⊆ T i)
    (hapart : ∀ i j, i ≠ j → Disjoint (d.cells (T i)) (d.cells (T j))) : Sound d.wiring (⋃ i, S i) := by
  constructor
  · intro a ha b hb hcell
    obtain ⟨i, hi⟩ := Set.mem_iUnion.1 ha
    obtain ⟨j, hj⟩ := Set.mem_iUnion.1 hb
    by_cases hij : i = j
    · subst hij
      exact (hsound i).apart hi hj hcell
    · exact absurd ⟨b, hsub j hj, hcell.symm⟩ (Set.disjoint_left.1 (hapart i j hij) ⟨a, hsub i hi, rfl⟩)
  · intro a ha
    obtain ⟨i, hi⟩ := Set.mem_iUnion.1 ha
    exact (hsound i).keeps a hi

omit [DecidableEq R] in
/-- buffers of a sound part have no cell in common -/
theorem cells_disjoint (hsound : Sound d.wiring (⋃ i, (bufs i).bits))
    (hbufs : ∀ i j, i ≠ j → Disjoint (bufs i).bits (bufs j).bits) (i j : Fin n) (hij : i ≠ j) :
    Disjoint (d.cells (bufs i).bits) (d.cells (bufs j).bits) := by
  rw [Set.disjoint_left]
  rintro c ⟨a, ha, rfl⟩ ⟨b, hb, hcell⟩
  have hsame := hsound.apart (Set.mem_iUnion.2 ⟨j, hb⟩) (Set.mem_iUnion.2 ⟨i, ha⟩) hcell
  exact Set.disjoint_left.1 (hbufs i j hij) ha (hsame ▸ hb)

/-- **The verdict.** Once the long or the fast test has printed an "ok", every word of every buffer has a row of its own
and cells that keep both bits, if no cell is reached from two buffers. On sound buffers no worker ever stops and the tester
never reports an error. -/
theorem verdict {m : Memory R} {s : SharedTester n (Memory R)}
    (hbufs : ∀ i j, i ≠ j → Disjoint (bufs i).bits (bufs j).bits) (hbig : mode = .stress → ∀ i, 512 ≤ (bufs i).bufsize)
    (hr : Reachable (memtesterStep mode bufs d) (SharedTester.start m) s) :
    (mode ≠ .stress → s.threads.ok ≠ [] → (∀ i j, i ≠ j → Disjoint (d.cells (bufs i).bits) (d.cells (bufs j).bits)) →
      Sound d.wiring (⋃ i, (bufs i).words)) ∧
    (Sound d.wiring (⋃ i, (bufs i).bits) →
      (∀ i, (s.threads.workers i).pc ≠ .stopped) ∧ ∀ j, s.threads.main ≠ .failed j) := by
  have hwithin : ∀ i k rand, Within (d.cells (bufs i).bits) (bufferJobs mode bufs d i k rand) :=
    fun i => within_runJob fun hmode => hbig hmode i
  constructor
  · intro hmode hok hapart
    obtain ⟨t, ht, hshares⟩ := shares_reachable hapart hwithin hr
    rw [hshares.threads] at hok
    exact sound_iUnion (words_sound ht hmode hok) (fun i => (bufs i).words_subset) hapart
  · intro hsound
    obtain ⟨t, ht, hshares⟩ := shares_reachable (cells_disjoint hsound hbufs) hwithin hr
    have hstep : ∀ i, ∀ k : ℤ, ∀ rand m, -1 ≤ k → k < mode.jobs → Ready (bufs i) d k m →
        (runs (bufferJobs mode bufs d) i k rand m).1 = 0 ∧
          Ready (bufs i) d (nextJob mode.jobs k) (runs (bufferJobs mode bufs d) i k rand m).2 :=
      fun i k rand m hlo hhi hm =>
        runJob_passes (hsound.mono (Set.subset_iUnion (fun i => (bufs i).bits) i)) (fun hmode => hbig hmode i) hlo hhi rand hm
    have hnever := never_failed (fun i => Ready (bufs i) d) mode.jobs_pos (fun i hk => absurd hk (by decide)) hstep ht
    rw [hshares.threads]
    exact hnever

end Verdict

/-! ## A sample run -/

/-- memory without a fault -/
def plainDram : Dram ℕ where
  row := id
  keep _ b := b

theorem sound_plainDram (S : Set ℕ) : Sound plainDram.wiring S := by
  refine ⟨fun b _ b' _ hcell => ?_, fun _ _ _ => rfl⟩
  obtain ⟨hrow, hbit⟩ := Prod.mk.inj hcell
  simp only [plainDram, id_eq] at hrow
  omega

/-- a word on each of two pages -/
def wordBuffers (i : Fin 2) : Buffer where
  aligned := 4096 * (i + 1)
  bufsize := 8
  page := Nat.dvd_mul_right 4096 (i + 1)
  space := by omega

def plainStep : SharedTester 2 (Memory ℕ) → TesterEvent 2 (ℕ → BitVec 32) → Option (SharedTester 2 (Memory ℕ)) :=
  memtesterStep .fast wordBuffers plainDram

def plainWorker (i : Fin 2) : TesterEvent 2 (ℕ → BitVec 32) := .worker i fun _ => 0

/-- up to the first ok, the accesses of the two workers in turn -/
def plainRun : List (TesterEvent 2 (ℕ → BitVec 32)) :=
  [.main, .main, plainWorker 0, plainWorker 1, .main, .main, .main, .main] ++
    (List.replicate 10 [plainWorker 0, plainWorker 1]).flatten ++ List.replicate 5 .main

theorem disjoint_wordBuffers (i j : Fin 2) (hij : i ≠ j) : Disjoint (wordBuffers i).bits (wordBuffers j).bits := by
  rw [Set.disjoint_left]
  rintro k ⟨hi, hi'⟩ ⟨hj, hj'⟩
  simp only [wordBuffers] at hi hi' hj hj'
  omega

/-- it has printed the first "ok", its two words are sound and it goes on without an error -/
theorem plainDram_never_fails : ∃ s, run plainStep (SharedTester.start fun _ => false) plainRun = some s ∧
    s.threads.ok = [-1] ∧ Sound plainDram.wiring (⋃ i, (wordBuffers i).words) ∧
    (∀ i, (s.threads.workers i).pc ≠ .stopped) ∧ ∀ j, s.threads.main ≠ .failed j := by
  have hok : (run plainStep (SharedTester.start fun _ => false) plainRun).map (fun s => s.threads.ok) = some [-1] := by
    decide +kernel
  obtain ⟨s, hs, hsok⟩ := Option.map_eq_some_iff.1 hok
  have hr : Reachable plainStep (SharedTester.start fun _ => false) s := ⟨plainRun, hs⟩
  obtain ⟨hfirst, hsecond⟩ := verdict disjoint_wordBuffers (fun h => absurd h (by decide)) hr
  have hcells := cells_disjoint (sound_plainDram _) disjoint_wordBuffers
  have hwords := hfirst (by decide) (by rw [hsok]; decide) hcells
  exact ⟨s, hs, hsok, hwords, hsecond (sound_plainDram _)⟩

/-- a decoder that sends both pages to the same rows -/
def crossedDram : Dram ℕ where
  row a := a % 512
  keep _ b := b

/-- the same up to the first ok, but one worker after the other -/
def soloRun : List (TesterEvent 2 (ℕ → BitVec 32)) :=
  [.main, .main, plainWorker 0, plainWorker 1, .main, .main, .main, .main] ++
    List.replicate 10 (plainWorker 0) ++ List.replicate 10 (plainWorker 1) ++ List.replicate 5 .main

/-- **Buffers that share cells can pass.** Each worker finds its word as it has written it, before the other overwrites it. -/
theorem crossed_rows_pass : ∃ s,
    run (memtesterStep .fast wordBuffers crossedDram) (SharedTester.start fun _ => false) soloRun = some s ∧
      s.threads.ok = [-1] ∧ ¬ Sound crossedDram.wiring (⋃ i, (wordBuffers i).words) := by
  have hok : (run (memtesterStep .fast wordBuffers crossedDram) (SharedTester.start fun _ => false) soloRun).map
      (fun s => s.threads.ok) = some [-1] := by
    decide +kernel
  obtain ⟨s, hs, hsok⟩ := Option.map_eq_some_iff.1 hok
  refine ⟨s, hs, hsok, fun hsound => ?_⟩
  have hfirst : 32768 ∈ ⋃ i, (wordBuffers i).words := Set.mem_iUnion.2 ⟨0, by decide, by decide⟩
  have hother : 65536 ∈ ⋃ i, (wordBuffers i).words := Set.mem_iUnion.2 ⟨1, by decide, by decide⟩
  have hsame := hsound.apart hfirst hother rfl
  omega

end RyazhaClk.MemTester
