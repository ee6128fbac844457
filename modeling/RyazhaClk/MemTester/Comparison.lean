/-
No test fails on a sound memory: the tests that compare two regions.

The invariant is `Agree`: the regions hold the same bits. A test that fills both regions brings it about, a test that
updates them keeps it and needs it, so the order of the tests matters and the numbers drawn do not.
- `passes_tests`, `passes_stressTests`: every test passes on regions that agree and leaves them so.
- `establishes_filled`, `establishes_testStressMemcpy`: the first test of each list also on regions that do not.
-/
import Mathlib.Tactic
import RyazhaClk.MemTester.StuckAddress

namespace RyazhaClk.MemTester

open Accesses FaultyMemory

/-- two regions of `count` words in the part `S` of the memory, one behind the other -/
structure Regions (S : Set ℕ) (bufa bufb count : ℕ) : Prop where
  first : region bufa (8 * count) ⊆ S
  second : region bufb (8 * count) ⊆ S
  apart : bufa + 8 * count ≤ bufb

/-- the first `n` words of two regions hold the same bits -/
def Agree {R : Type} (d : Dram R) (bufa bufb n : ℕ) (m : Memory R) : Prop :=
  ∀ k < 64 * n, read d.wiring m (8 * bufa + k) = read d.wiring m (8 * bufb + k)

variable {R : Type} {d : Dram R} {S : Set ℕ} {bufa bufb count : ℕ} {m : Memory R}

theorem mem_of_region {base k : ℕ} (hin : region base (8 * count) ⊆ S) (hk : k < 64 * count) : 8 * base + k ∈ S :=
  hin ⟨by omega, by omega⟩

theorem Agree.readWord_eq (h : Agree d bufa bufb count m) {i : ℕ} (hi : i < count) :
    readWord d (bufa + 8 * i) m = readWord d (bufb + 8 * i) m := by
  apply BitVec.eq_of_getLsbD_eq
  intro k hk
  rw [readWord, readWord, getLsbD_readBits 64 _ m hk, getLsbD_readBits 64 _ m hk]
  have hbit := h (64 * i + k) (by omega)
  rwa [show 8 * bufa + (64 * i + k) = 8 * (bufa + 8 * i) + k by omega,
    show 8 * bufb + (64 * i + k) = 8 * (bufb + 8 * i) + k by omega] at hbit

theorem Agree.readByte_eq (h : Agree d bufa bufb count m) {i : ℕ} (hi : i < 8 * count) :
    readByte d (bufa + i) m = readByte d (bufb + i) m := by
  apply BitVec.eq_of_getLsbD_eq
  intro k hk
  rw [readByte, readByte, getLsbD_readBits 8 _ m hk, getLsbD_readBits 8 _ m hk]
  have hbit := h (8 * i + k) (by omega)
  rwa [show 8 * bufa + (8 * i + k) = 8 * (bufa + i) + k by omega,
    show 8 * bufb + (8 * i + k) = 8 * (bufb + i) + k by omega] at hbit

theorem Agree.run_compareRegions (h : Agree d bufa bufb count m) : (compareRegions d bufa bufb count).run m = (0, m) := by
  have hfold : ∀ is : List ℕ, (∀ i ∈ is, i < count) →
      is.foldl (fun r i => if readWord d (bufa + 8 * i) m ≠ readWord d (bufb + 8 * i) m then -1 else r) (0 : ℤ) = 0 := by
    intro is his
    induction is with
    | nil => rfl
    | cons i is ih =>
      rw [List.foldl_cons, if_neg (not_not_intro (h.readWord_eq (his i List.mem_cons_self)))]
      exact ih fun j hj => his j (List.mem_cons_of_mem i hj)
  have hloads := Prog.run_foldlM_of_load
    (g := fun (r : ℤ) i m => if readWord d (bufa + 8 * i) m ≠ readWord d (bufb + 8 * i) m then -1 else r)
    (fun r i => do
      let p1 ← loadWord d (bufa + 8 * i)
      let p2 ← loadWord d (bufb + 8 * i)
      return if p1 ≠ p2 then -1 else r) (fun _ _ _ => rfl) (List.range count) 0 m
  rw [hfold _ fun i hi => List.mem_range.1 hi] at hloads
  exact hloads

theorem Agree.run_memcmp (h : Agree d bufa bufb count m) : (memcmp d bufa bufb (8 * count)).run m = (0, m) := by
  have hloop : ∀ is : List ℕ, (∀ i ∈ is, i < 8 * count) → (memcmpFrom d bufa bufb is).run m = (0, m) := by
    intro is his
    induction is with
    | nil => rfl
    | cons i is ih =>
      rw [memcmpFrom, Prog.run_bind, Prog.run_bind, run_loadByte, run_loadByte, exec_loadByte, exec_loadByte,
        if_neg (not_not_intro (h.readByte_eq (his i List.mem_cons_self)))]
      exact ih fun j hj => his j (List.mem_cons_of_mem i hj)
  exact hloop _ fun i hi => List.mem_range.1 hi

section Sound

variable [DecidableEq R]

/-- a write, bit by bit -/
theorem read_writeBits (h : Sound d.wiring S) {n a : ℕ} (v : BitVec n) (m : Memory R) (hin : ∀ k < n, 8 * a + k ∈ S)
    {b : ℕ} (hb : b ∈ S) : read d.wiring (writeBits d a v m) b =
      if 8 * a ≤ b ∧ b < 8 * a + n then v.getLsbD (b - 8 * a) else read d.wiring m b := by
  have hws : ∀ p ∈ bitWrites a v, p.1 ∈ S := by
    intro p hp
    obtain ⟨k, hk, rfl⟩ := mem_bitWrites.1 hp
    exact hin k hk
  split_ifs with hbit
  · have hmem : (8 * a + (b - 8 * a), v.getLsbD (b - 8 * a)) ∈ bitWrites a v := mem_bitWrites.2 ⟨_, by omega, rfl⟩
    have hone : ∀ p ∈ bitWrites a v, ∀ q ∈ bitWrites a v, p.1 = q.1 → p.2 = q.2 := by
      intro p hp q hq hpq
      obtain ⟨k, -, rfl⟩ := mem_bitWrites.1 hp
      obtain ⟨k', -, rfl⟩ := mem_bitWrites.1 hq
      obtain rfl : k = k' := Nat.add_left_cancel hpq
      rfl
    have hread := h.read_fill m hws hone hmem
    rwa [show 8 * a + (b - 8 * a) = b by omega] at hread
  · refine h.read_fill_of_notMem m hws hb fun p hp hpb => ?_
    obtain ⟨k, hk, rfl⟩ := mem_bitWrites.1 hp
    simp only at hpb
    omega

/-! ## Both regions, a word at a time -/

section Word

variable {base base' i k : ℕ}

/-- a word written to a region, read in the region itself -/
theorem read_writeWord_own (h : Sound d.wiring S) (hin : region base (8 * count) ⊆ S) (hi : i < count)
    (hk : k < 64 * count) (v : BitVec 64) (m : Memory R) : read d.wiring (writeWord d (base + 8 * i) v m) (8 * base + k) =
      if k / 64 = i then v.getLsbD (k % 64) else read d.wiring m (8 * base + k) := by
  have hword : ∀ j < 64, 8 * (base + 8 * i) + j ∈ S := by
    intro j hj
    rw [show 8 * (base + 8 * i) + j = 8 * base + (64 * i + j) by omega]
    exact mem_of_region hin (by omega)
  rw [writeWord, read_writeBits h v m hword (mem_of_region hin hk)]
  by_cases hki : k / 64 = i
  · rw [if_pos hki, if_pos (by omega), show 8 * base + k - 8 * (base + 8 * i) = k % 64 by omega]
  · rw [if_neg hki, if_neg (by omega)]

/-- a word written to a region, read in another one -/
theorem read_writeWord_other (h : Sound d.wiring S) (hin : region base (8 * count) ⊆ S)
    (hin' : region base' (8 * count) ⊆ S) (hapart : base + 8 * count ≤ base' ∨ base' + 8 * count ≤ base) (hi : i < count)
    (hk : k < 64 * count) (v : BitVec 64) (m : Memory R) :
    read d.wiring (writeWord d (base + 8 * i) v m) (8 * base' + k) = read d.wiring m (8 * base' + k) := by
  have hword : ∀ j < 64, 8 * (base + 8 * i) + j ∈ S := by
    intro j hj
    rw [show 8 * (base + 8 * i) + j = 8 * base + (64 * i + j) by omega]
    exact mem_of_region hin (by omega)
  rw [writeWord, read_writeBits h v m hword (mem_of_region hin' hk), if_neg (by omega)]

end Word

/-- `m'` is `m` with `v` in the word `i` of both regions -/
structure WroteBoth (d : Dram R) (bufa bufb count i : ℕ) (v : BitVec 64) (m m' : Memory R) : Prop where
  first : ∀ k < 64 * count, read d.wiring m' (8 * bufa + k) =
    if k / 64 = i then v.getLsbD (k % 64) else read d.wiring m (8 * bufa + k)
  second : ∀ k < 64 * count, read d.wiring m' (8 * bufb + k) =
    if k / 64 = i then v.getLsbD (k % 64) else read d.wiring m (8 * bufb + k)

omit [DecidableEq R] in
theorem WroteBoth.agree {i n : ℕ} {v : BitVec 64} {m' : Memory R} (h : WroteBoth d bufa bufb count i v m m')
    (hn : n ≤ count) (hm : ∀ k < 64 * n, k / 64 ≠ i → read d.wiring m (8 * bufa + k) = read d.wiring m (8 * bufb + k)) :
    Agree d bufa bufb n m' := by
  intro k hk
  rw [h.first k (by omega), h.second k (by omega)]
  split_ifs with hki
  · rfl
  · exact hm k hk hki

/-- the second region first -/
theorem writeBoth_wrote (h : Sound d.wiring S) (hr : Regions S bufa bufb count) {i : ℕ} (hi : i < count) (v : BitVec 64)
    (m : Memory R) : WroteBoth d bufa bufb count i v m ((writeBoth d bufa bufb i v).exec m) := by
  have hexec : (writeBoth d bufa bufb i v).exec m =
      writeWord d (bufa + 8 * i) v (writeWord d (bufb + 8 * i) v m) := rfl
  constructor <;> intro k hk
  · rw [hexec, read_writeWord_own h hr.first hi hk,
      read_writeWord_other h hr.second hr.first (Or.inr hr.apart) hi hk]
  · rw [hexec, read_writeWord_other h hr.first hr.second (Or.inl hr.apart) hi hk,
      read_writeWord_own h hr.second hi hk]

/-- a word that is updated -/
def updatedWord (d : Dram R) (a : ℕ) (op : BitVec 64 → BitVec 64) (m : Memory R) : Memory R :=
  writeWord d a (op (readWord d a m)) m

/-- the first region first -/
theorem update_wrote (h : Sound d.wiring S) (hr : Regions S bufa bufb count) {i : ℕ} (hi : i < count)
    (op : BitVec 64 → BitVec 64) {m : Memory R} (hm : Agree d bufa bufb count m) :
    WroteBoth d bufa bufb count i (op (readWord d (bufa + 8 * i) m)) m
      (updatedWord d (bufb + 8 * i) op (updatedWord d (bufa + 8 * i) op m)) := by
  have hsame : readWord d (bufb + 8 * i) (updatedWord d (bufa + 8 * i) op m) = readWord d (bufa + 8 * i) m := by
    rw [hm.readWord_eq hi]
    apply BitVec.eq_of_getLsbD_eq
    intro k hk
    rw [readWord, readWord, getLsbD_readBits 64 _ _ hk, getLsbD_readBits 64 _ _ hk, updatedWord,
      show 8 * (bufb + 8 * i) + k = 8 * bufb + (64 * i + k) by omega]
    exact read_writeWord_other h hr.first hr.second (Or.inl hr.apart) hi (by omega) _ m
  rw [updatedWord, hsame, updatedWord]
  constructor <;> intro k hk
  · rw [read_writeWord_other h hr.second hr.first (Or.inr hr.apart) hi hk, read_writeWord_own h hr.first hi hk]
  · rw [read_writeWord_own h hr.second hi hk, read_writeWord_other h hr.first hr.second (Or.inl hr.apart) hi hk]

/-! ## Loops over the words -/

/-- **A fill makes the regions agree**, whatever they held. -/
theorem fillBoth_agree (h : Sound d.wiring S) (hr : Regions S bufa bufb count) (value : ℕ → BitVec 64) (m : Memory R) :
    Agree d bufa bufb count ((fillBoth d bufa bufb count value).exec m) := by
  have hfirst : ∀ n ≤ count, Agree d bufa bufb n
      ((List.range n).foldl (fun m i => (writeBoth d bufa bufb i (value i)).exec m) m) := by
    intro n
    induction n with
    | zero => exact fun _ k hk => absurd hk (Nat.not_lt_zero k)
    | succ n ih =>
      intro hn
      rw [List.range_succ, List.foldl_append, List.foldl_cons, List.foldl_nil]
      refine (writeBoth_wrote h hr (show n < count from hn) (value n) _).agree hn fun k hk hne => ?_
      exact ih (by omega) k (by omega)
  rw [fillBoth, Prog.exec_forM]
  exact hfirst count le_rfl

omit [DecidableEq R] in
/-- a loop over the words that writes one word of both regions at a time -/
theorem foldl_agree (step : Memory R → ℕ → Memory R)
    (hstep : ∀ m, ∀ i < count, Agree d bufa bufb count m → ∃ v, WroteBoth d bufa bufb count i v m (step m i))
    (hm : Agree d bufa bufb count m) {is : List ℕ} (his : ∀ i ∈ is, i < count) :
    Agree d bufa bufb count (is.foldl step m) := by
  induction is generalizing m with
  | nil => exact hm
  | cons i is ih =>
    obtain ⟨v, hwrote⟩ := hstep m i (his i List.mem_cons_self) hm
    exact ih (hwrote.agree le_rfl fun k hk _ => hm k hk) fun j hj => his j (List.mem_cons_of_mem i hj)

/-- **An update keeps them so.** -/
theorem updateBoth_agree (h : Sound d.wiring S) (hr : Regions S bufa bufb count) (op : BitVec 64 → BitVec 64)
    (hm : Agree d bufa bufb count m) : Agree d bufa bufb count ((updateBoth d bufa bufb count op).exec m) := by
  rw [updateBoth, Prog.exec_forM]
  exact foldl_agree _ (fun _ _ hi hm => ⟨_, update_wrote h hr hi op hm⟩) hm fun _ hi => List.mem_range.1 hi

theorem roundLoop_passes (h : Sound d.wiring S) (hr : Regions S bufa bufb count) (values : List (ℕ → BitVec 64))
    (hm : Agree d bufa bufb count m) : (roundLoop d bufa bufb count values m).1 = 0 ∧
      Agree d bufa bufb count (roundLoop d bufa bufb count values m).2 := by
  induction values generalizing m with
  | nil => exact ⟨rfl, hm⟩
  | cons value values ih =>
    have hfill := fillBoth_agree h hr value m
    rw [roundLoop, Prog.run_bind, Prog.run_bind_of hfill.run_compareRegions,
      if_neg (not_not_intro rfl)]
    exact ih hfill

/-! ## The memory functions -/

theorem read_writeByte (h : Sound d.wiring S) {a n i b : ℕ} (hin : region a n ⊆ S) (hi : i < n) (hb : b ∈ S)
    (v : BitVec 8) (m : Memory R) : read d.wiring (writeByte d (a + i) v m) b =
      if b / 8 = a + i then v.getLsbD (b % 8) else read d.wiring m b := by
  have hbyte : ∀ j < 8, 8 * (a + i) + j ∈ S := fun j hj => hin ⟨by omega, by omega⟩
  rw [writeByte, read_writeBits h v m hbyte hb]
  by_cases hbi : b / 8 = a + i
  · rw [if_pos hbi, if_pos (by omega), show b - 8 * (a + i) = b % 8 by omega]
  · rw [if_neg hbi, if_neg (by omega)]

theorem read_memset (h : Sound d.wiring S) {dst n b : ℕ} (hin : region dst n ⊆ S) (hb : b ∈ S) (c : BitVec 8)
    (m : Memory R) : read d.wiring ((memset d dst c n).exec m) b =
      if dst ≤ b / 8 ∧ b / 8 < dst + n then c.getLsbD (b % 8) else read d.wiring m b := by
  have hfirst : ∀ j ≤ n, read d.wiring ((List.range j).foldl (fun m i => writeByte d (dst + i) c m) m) b =
      if dst ≤ b / 8 ∧ b / 8 < dst + j then c.getLsbD (b % 8) else read d.wiring m b := by
    intro j
    induction j with
    | zero =>
      intro _
      rw [if_neg (by omega)]
      rfl
    | succ j ih =>
      intro hj
      rw [List.range_succ, List.foldl_append, List.foldl_cons, List.foldl_nil,
        read_writeByte h hin (show j < n from hj) hb, ih (by omega)]
      split_ifs <;> first | rfl | omega
  rw [memset, Prog.exec_forM]
  exact hfirst n le_rfl

/-- the bytes of the source as they were, those of the destination like them -/
theorem read_memcpy (h : Sound d.wiring S) {dst src n : ℕ} (hdst : region dst n ⊆ S) (hsrc : region src n ⊆ S)
    (hapart : dst + n ≤ src) {k : ℕ} (hk : k < 8 * n) (m : Memory R) :
    read d.wiring ((memcpy d dst src n).exec m) (8 * dst + k) = read d.wiring m (8 * src + k) ∧
      read d.wiring ((memcpy d dst src n).exec m) (8 * src + k) = read d.wiring m (8 * src + k) := by
  have hfirst : ∀ j ≤ n, ∀ k < 8 * n,
      (k < 8 * j → read d.wiring ((List.range j).foldl (fun m i => writeByte d (dst + i) (readByte d (src + i) m) m) m)
        (8 * dst + k) = read d.wiring m (8 * src + k)) ∧
      read d.wiring ((List.range j).foldl (fun m i => writeByte d (dst + i) (readByte d (src + i) m) m) m)
        (8 * src + k) = read d.wiring m (8 * src + k) := by
    intro j
    induction j with
    | zero => exact fun _ k _ => ⟨fun hk => absurd hk (by omega), rfl⟩
    | succ j ih =>
      intro hj k hk
      have hprev := ih (by omega)
      rw [List.range_succ, List.foldl_append, List.foldl_cons, List.foldl_nil]
      constructor
      · intro hkj
        rw [read_writeByte h hdst (show j < n from hj) (hdst ⟨by omega, by omega⟩)]
        by_cases hlast : (8 * dst + k) / 8 = dst + j
        · rw [if_pos hlast, readByte, getLsbD_readBits 8 _ _ (Nat.mod_lt _ (by norm_num)),
            show 8 * (src + j) + (8 * dst + k) % 8 = 8 * src + k by omega]
          exact (hprev k hk).2
        · rw [if_neg hlast]
          exact (hprev k hk).1 (by omega)
      · rw [read_writeByte h hdst (show j < n from hj) (hsrc ⟨by omega, by omega⟩), if_neg (by omega)]
        exact (hprev k hk).2
  rw [memcpy, Prog.exec_forM]
  exact ⟨(hfirst n le_rfl k hk).1 hk, (hfirst n le_rfl k hk).2⟩

theorem memsetBoth_agree (h : Sound d.wiring S) (hr : Regions S bufa bufb count) (rand : ℕ → BitVec 32) (j : ℕ)
    (m : Memory R) : Agree d bufa bufb count ((memsetBoth d rand j bufa bufb count).exec m) := by
  have hapart := hr.apart
  intro k hk
  rw [memsetBoth, Prog.exec_bind, read_memset h hr.second (mem_of_region hr.first hk),
    read_memset h hr.second (mem_of_region hr.second hk), read_memset h hr.first (mem_of_region hr.first hk),
    if_neg (by omega), if_pos (by omega), if_pos (by omega)]
  exact congrArg _ (by omega)

theorem memcpy_agree (h : Sound d.wiring S) (hr : Regions S bufa bufb count) (m : Memory R) :
    Agree d bufa bufb count ((memcpy d bufa bufb (8 * count)).exec m) := by
  intro k hk
  obtain ⟨hfirst, hsecond⟩ := read_memcpy h hr.first hr.second hr.apart (show k < 8 * (8 * count) by omega) m
  rw [hfirst, hsecond]

/-! ## The tests -/

/-- on the regions a test ends with zero and leaves them agreeing -/
def Establishes (d : Dram R) (bufa bufb count : ℕ) (t : Test R) : Prop :=
  ∀ rand m, (t.fp rand bufa bufb count m).1 = 0 ∧ Agree d bufa bufb count (t.fp rand bufa bufb count m).2

/-- it does so where they agreed before -/
def Passes (d : Dram R) (bufa bufb count : ℕ) (t : Test R) : Prop :=
  ∀ rand m, Agree d bufa bufb count m →
    (t.fp rand bufa bufb count m).1 = 0 ∧ Agree d bufa bufb count (t.fp rand bufa bufb count m).2

omit [DecidableEq R] in
theorem Establishes.passes {t : Test R} (h : Establishes d bufa bufb count t) : Passes d bufa bufb count t :=
  fun rand m _ => h rand m

theorem establishes_filled (h : Sound d.wiring S) (hr : Regions S bufa bufb count)
    (value : (ℕ → BitVec 32) → ℕ → BitVec 64) (name : String) :
    Establishes d bufa bufb count ⟨name, filled d value⟩ := by
  intro rand m
  have hfill := fillBoth_agree h hr (value rand) m
  have hrun : (filled d value rand bufa bufb count).run m = (0, (fillBoth d bufa bufb count (value rand)).exec m) := by
    rw [filled, Prog.run_bind, hfill.run_compareRegions]
  dsimp only
  rw [hrun]
  exact ⟨rfl, hfill⟩

theorem passes_updated (h : Sound d.wiring S) (hr : Regions S bufa bufb count)
    (op : BitVec 64 → BitVec 64 → BitVec 64) (name : String) : Passes d bufa bufb count ⟨name, updated d op⟩ := by
  intro rand m hm
  have hupdate := updateBoth_agree h hr (fun word => op word (randUl rand 0)) hm
  have hrun : (updated d op rand bufa bufb count).run m =
      (0, (updateBoth d bufa bufb count fun word => op word (randUl rand 0)).exec m) := by
    rw [updated, Prog.run_bind, hupdate.run_compareRegions]
  dsimp only
  rw [hrun]
  exact ⟨rfl, hupdate⟩

theorem passes_rounds (h : Sound d.wiring S) (hr : Regions S bufa bufb count) (values : List (ℕ → BitVec 64))
    (name : String) : Passes d bufa bufb count ⟨name, rounds d values⟩ :=
  fun _ _ hm => roundLoop_passes h hr values hm

/-- **The tests of the two regions.** None of them fails on sound memory, whatever numbers it draws. -/
theorem passes_tests (h : Sound d.wiring S) (hr : Regions S bufa bufb count) (dividend : ℕ) :
    ∀ t ∈ tests d dividend, Passes d bufa bufb count t := by
  simp only [tests, List.forall_mem_cons, List.not_mem_nil, false_imp_iff, implies_true, and_true]
  exact ⟨(establishes_filled h hr _ _).passes, passes_updated h hr _ _, passes_updated h hr _ _,
    passes_updated h hr _ _, passes_updated h hr _ _, passes_updated h hr _ _, passes_updated h hr _ _,
    (establishes_filled h hr _ _).passes, passes_rounds h hr _ _, passes_rounds h hr _ _, passes_rounds h hr _ _,
    passes_rounds h hr _ _, passes_rounds h hr _ _, passes_rounds h hr _ _, passes_rounds h hr _ _⟩

theorem establishes_testStressMemcpy (h : Sound d.wiring S) (hr : Regions S bufa bufb count) (name : String) :
    Establishes d bufa bufb count ⟨name, testStressMemcpy d⟩ := by
  intro rand m
  have hcopy : ∀ m, Agree d bufa bufb count
      (((List.range 128).forM fun _ => memcpy d bufa bufb (8 * count)).exec m) := by
    intro m
    rw [Prog.exec_forM, List.range_succ, List.foldl_append, List.foldl_cons, List.foldl_nil]
    exact memcpy_agree h hr _
  dsimp only
  rw [testStressMemcpy, Prog.run_bind, Prog.run_bind, (hcopy _).run_memcmp]
  exact ⟨rfl, hcopy _⟩

theorem passes_testStressMemset (h : Sound d.wiring S) (hr : Regions S bufa bufb count) (name : String) :
    Passes d bufa bufb count ⟨name, testStressMemset d⟩ := by
  intro rand m _
  have hset : Agree d bufa bufb count
      (((List.range 128).forM fun j => memsetBoth d rand j bufa bufb count).exec m) := by
    rw [Prog.exec_forM, List.range_succ, List.foldl_append, List.foldl_cons, List.foldl_nil]
    exact memsetBoth_agree h hr rand 127 _
  dsimp only
  rw [testStressMemset, Prog.run_bind, hset.run_memcmp]
  exact ⟨rfl, hset⟩

/-- the words written to provoke a comparison have to lie in the regions -/
theorem passes_testStressMemcmp (h : Sound d.wiring S) (hr : Regions S bufa bufb count) (hcount : 32 ≤ count)
    (name : String) : Passes d bufa bufb count ⟨name, testStressMemcmp d⟩ := by
  intro rand m _
  have hloop : ∀ js : List ℕ, (∀ j ∈ js, j < count) → ∀ m, Agree d bufa bufb count m →
      (memcmpLoop d rand bufa bufb count js m).1 = 0 ∧
        Agree d bufa bufb count (memcmpLoop d rand bufa bufb count js m).2 := by
    intro js
    induction js with
    | nil => exact fun _ m hm => ⟨rfl, hm⟩
    | cons j js ih =>
      intro hjs m hm
      have hwrite : Agree d bufa bufb count ((writeBoth d bufa bufb j (randUl rand (j + 1))).exec m) :=
        (writeBoth_wrote h hr (hjs j List.mem_cons_self) _ m).agree le_rfl fun k hk _ => hm k hk
      rw [memcmpLoop, Prog.run_bind, Prog.run_bind_of hwrite.run_memcmp, if_neg (not_not_intro rfl)]
      exact ih (fun i hi => hjs i (List.mem_cons_of_mem j hi)) _ hwrite
  dsimp only
  rw [testStressMemcmp, Prog.run_bind]
  exact hloop _ (fun j hj => lt_of_lt_of_le (List.mem_range.1 hj) hcount) _ (memsetBoth_agree h hr rand 0 m)

theorem passes_stressTests (h : Sound d.wiring S) (hr : Regions S bufa bufb count) (hcount : 32 ≤ count) :
    ∀ t ∈ stressTests d, Passes d bufa bufb count t := by
  simp only [stressTests, List.forall_mem_cons, List.not_mem_nil, false_imp_iff, implies_true, and_true]
  exact ⟨(establishes_testStressMemcpy h hr _).passes, passes_testStressMemset h hr _,
    passes_testStressMemcmp h hr hcount _⟩

end Sound

end RyazhaClk.MemTester
