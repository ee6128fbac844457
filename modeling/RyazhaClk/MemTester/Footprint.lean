/-
Which cells a test touches: those of its two regions, and the ones behind the whole words of the buffer for the stuck
address test.

- `within_testStuckAddress`, `within_tests`: a test looks at no other cells and changes no others.
- `within_stressTests`: nor does the stress test, on regions of at least 32 words.
-/
import Mathlib.Tactic
import RyazhaClk.MemTester.Comparison

namespace RyazhaClk.MemTester

open Accesses FaultyMemory

variable {R : Type} {d : Dram R} {S : Set ℕ} {bufa bufb count : ℕ}

/-- the cells behind some bits of the address space -/
def Dram.cells (d : Dram R) (S : Set ℕ) : Set (R × ℕ) := d.wiring.cell '' S

/-! ## Accesses -/

theorem readBits_congr {n a : ℕ} {m m' : Memory R} (hin : ∀ k < n, 8 * a + k ∈ S) (hm : Set.EqOn m m' (d.cells S)) :
    readBits d n a m = readBits d n a m' := by
  apply BitVec.eq_of_getLsbD_eq
  intro k hk
  rw [getLsbD_readBits n a m hk, getLsbD_readBits n a m' hk]
  exact hm ⟨_, hin k hk, rfl⟩

theorem word_subset {base i : ℕ} (h : region base (8 * count) ⊆ S) (hi : i < count) :
    ∀ k < 64, 8 * (base + 8 * i) + k ∈ S := fun k hk => h ⟨by omega, by omega⟩

theorem byte_subset {base n i : ℕ} (h : region base n ⊆ S) (hi : i < n) : ∀ k < 8, 8 * (base + i) + k ∈ S :=
  fun k hk => h ⟨by omega, by omega⟩

theorem within_loadWord {a : ℕ} (hin : ∀ k < 64, 8 * a + k ∈ S) : Within (d.cells S) (loadWord d a) :=
  .load fun _ _ hm => readBits_congr hin hm

theorem within_loadByte {a : ℕ} (hin : ∀ k < 8, 8 * a + k ∈ S) : Within (d.cells S) (loadByte d a) :=
  .load fun _ _ hm => readBits_congr hin hm

variable [DecidableEq R]

theorem within_writeBits {n a : ℕ} (v : BitVec n) (hin : ∀ k < n, 8 * a + k ∈ S) :
    Within (d.cells S) (Prog.store (writeBits d a v)) := by
  refine .store (fun m c hc => ?_) fun m m' hm => fill_congr hm _
  refine fill_of_notMem m fun p hp hcell => hc ?_
  obtain ⟨k, hk, rfl⟩ := mem_bitWrites.1 hp
  exact ⟨_, hin k hk, hcell⟩

theorem within_storeWord {a : ℕ} (v : BitVec 64) (hin : ∀ k < 64, 8 * a + k ∈ S) :
    Within (d.cells S) (storeWord d a v) := within_writeBits v hin

theorem within_storeByte {a : ℕ} (v : BitVec 8) (hin : ∀ k < 8, 8 * a + k ∈ S) : Within (d.cells S) (storeByte d a v) :=
  within_writeBits v hin

/-! ## Loops over words -/

omit [DecidableEq R] in
theorem within_compareRegions (hr : Regions S bufa bufb count) : Within (d.cells S) (compareRegions d bufa bufb count) := by
  refine .foldlM (fun r i hi => ?_) 0
  rw [List.mem_range] at hi
  refine .bind (within_loadWord (word_subset hr.first hi)) fun p1 => ?_
  exact .bind (within_loadWord (word_subset hr.second hi)) fun p2 => .pure _

theorem within_writeBoth (hr : Regions S bufa bufb count) {i : ℕ} (hi : i < count) (v : BitVec 64) :
    Within (d.cells S) (writeBoth d bufa bufb i v) :=
  .bind (within_storeWord v (word_subset hr.second hi)) fun _ => within_storeWord v (word_subset hr.first hi)

theorem within_fillBoth (hr : Regions S bufa bufb count) (value : ℕ → BitVec 64) :
    Within (d.cells S) (fillBoth d bufa bufb count value) :=
  .forM fun _ hi => within_writeBoth hr (List.mem_range.1 hi) _

theorem within_updateWord {a : ℕ} (op : BitVec 64 → BitVec 64) (hin : ∀ k < 64, 8 * a + k ∈ S) :
    Within (d.cells S) (updateWord d a op) := .bind (within_loadWord hin) fun _ => within_storeWord _ hin

theorem within_updateBoth (hr : Regions S bufa bufb count) (op : BitVec 64 → BitVec 64) :
    Within (d.cells S) (updateBoth d bufa bufb count op) := by
  refine .forM fun i hi => ?_
  rw [List.mem_range] at hi
  exact .bind (within_updateWord op (word_subset hr.first hi)) fun _ => within_updateWord op (word_subset hr.second hi)

theorem within_roundLoop (hr : Regions S bufa bufb count) (values : List (ℕ → BitVec 64)) :
    Within (d.cells S) (roundLoop d bufa bufb count values) := by
  induction values with
  | nil => exact .pure 0
  | cons value values ih =>
    refine .bind (within_fillBoth hr value) fun _ => .bind (within_compareRegions hr) fun r => ?_
    split_ifs
    · exact .pure _
    · exact ih

theorem within_stuckLoop (hin : region bufa (8 * count) ⊆ S) (js : List ℕ) :
    Within (d.cells S) (stuckLoop d bufa count js) := by
  have hcheck : ∀ j : ℕ, ∀ is : List ℕ, (∀ i ∈ is, i < count) → Within (d.cells S) (checkLoop d bufa j is) := by
    intro j is his
    induction is with
    | nil => exact .pure _
    | cons i is ih =>
      refine .bind (within_loadWord (word_subset hin (his i List.mem_cons_self))) fun p1 => ?_
      split_ifs
      · exact .pure _
      · exact ih fun i' hi' => his i' (List.mem_cons_of_mem i hi')
  induction js with
  | nil => exact .pure 0
  | cons j js ih =>
    have hset : Within (d.cells S) (setAddresses d bufa count j) :=
      .forM fun i hi => within_storeWord _ (word_subset hin (List.mem_range.1 hi))
    refine .bind hset fun _ => .bind (hcheck j _ fun i hi => List.mem_range.1 hi) fun found => ?_
    split_ifs
    · exact ih
    · exact .pure _

theorem within_testStuckAddress (hin : region bufa (8 * count) ⊆ S) (dividend : ℕ) :
    Within (d.cells S) (testStuckAddress d dividend bufa count) := within_stuckLoop hin _

theorem within_filled (hr : Regions S bufa bufb count) (value : (ℕ → BitVec 32) → ℕ → BitVec 64) (rand : ℕ → BitVec 32) :
    Within (d.cells S) (filled d value rand bufa bufb count) :=
  .bind (within_fillBoth hr _) fun _ => within_compareRegions hr

theorem within_updated (hr : Regions S bufa bufb count) (op : BitVec 64 → BitVec 64 → BitVec 64) (rand : ℕ → BitVec 32) :
    Within (d.cells S) (updated d op rand bufa bufb count) :=
  .bind (within_updateBoth hr _) fun _ => within_compareRegions hr

/-- **The tests of the two regions** keep to them. -/
theorem within_tests (hr : Regions S bufa bufb count) (dividend : ℕ) :
    ∀ t ∈ tests d dividend, ∀ rand, Within (d.cells S) (t.fp rand bufa bufb count) := by
  have hfilled := within_filled (d := d) hr
  have hupdated := within_updated (d := d) hr
  have hrounds := fun values (_ : ℕ → BitVec 32) => within_roundLoop (d := d) hr values
  simp only [tests, List.forall_mem_cons, List.not_mem_nil, false_imp_iff, implies_true, and_true]
  exact ⟨hfilled _, hupdated _, hupdated _, hupdated _, hupdated _, hupdated _, hupdated _, hfilled _, hrounds _, hrounds _,
    hrounds _, hrounds _, hrounds _, hrounds _, hrounds _⟩

/-! ## The memory functions -/

theorem within_memset {dst n : ℕ} (hin : region dst n ⊆ S) (c : BitVec 8) : Within (d.cells S) (memset d dst c n) :=
  .forM fun _ hi => within_storeByte c (byte_subset hin (List.mem_range.1 hi))

theorem within_memcpy {dst src n : ℕ} (hdst : region dst n ⊆ S) (hsrc : region src n ⊆ S) :
    Within (d.cells S) (memcpy d dst src n) := by
  refine .forM fun i hi => ?_
  rw [List.mem_range] at hi
  exact .bind (within_loadByte (byte_subset hsrc hi)) fun b => within_storeByte b (byte_subset hdst hi)

omit [DecidableEq R] in
theorem within_memcmp {a b n : ℕ} (ha : region a n ⊆ S) (hb : region b n ⊆ S) : Within (d.cells S) (memcmp d a b n) := by
  have hloop : ∀ is : List ℕ, (∀ i ∈ is, i < n) → Within (d.cells S) (memcmpFrom d a b is) := by
    intro is his
    induction is with
    | nil => exact .pure _
    | cons i is ih =>
      have hi := his i List.mem_cons_self
      refine .bind (within_loadByte (byte_subset ha hi)) fun p1 => .bind (within_loadByte (byte_subset hb hi)) fun p2 => ?_
      split_ifs
      · exact .pure _
      · exact ih fun i' hi' => his i' (List.mem_cons_of_mem i hi')
  exact hloop _ fun i hi => List.mem_range.1 hi

theorem within_memsetBoth (hr : Regions S bufa bufb count) (rand : ℕ → BitVec 32) (k : ℕ) :
    Within (d.cells S) (memsetBoth d rand k bufa bufb count) :=
  .bind (within_memset hr.first _) fun _ => within_memset hr.second _

theorem within_memcmpLoop (hr : Regions S bufa bufb count) (rand : ℕ → BitVec 32) {js : List ℕ}
    (hjs : ∀ j ∈ js, j < count) : Within (d.cells S) (memcmpLoop d rand bufa bufb count js) := by
  induction js with
  | nil => exact .pure 0
  | cons j js ih =>
    refine .bind (within_writeBoth hr (hjs j List.mem_cons_self) _) fun _ => ?_
    refine .bind (within_memcmp hr.first hr.second) fun rc => ?_
    split_ifs
    · exact .pure rc
    · exact ih fun i hi => hjs i (List.mem_cons_of_mem j hi)

/-- **The stress test** keeps to regions with room for its 32 words. -/
theorem within_stressTests (hr : Regions S bufa bufb count) (hcount : 32 ≤ count) :
    ∀ t ∈ stressTests d, ∀ rand, Within (d.cells S) (t.fp rand bufa bufb count) := by
  have hmemcmp : Within (d.cells S) (memcmp d bufa bufb (8 * count)) := within_memcmp hr.first hr.second
  simp only [stressTests, List.forall_mem_cons, List.not_mem_nil, false_imp_iff, implies_true, and_true]
  refine ⟨fun rand => ?_, fun rand => ?_, fun rand => ?_⟩
  · refine .bind (within_memsetBoth hr rand 0) fun _ => .bind ?_ fun _ => hmemcmp
    exact .forM fun _ _ => within_memcpy hr.first hr.second
  · refine .bind ?_ fun _ => hmemcmp
    exact .forM fun j _ => within_memsetBoth hr rand j
  · refine .bind (within_memsetBoth hr rand 0) fun _ => ?_
    exact within_memcmpLoop hr rand fun j hj => lt_of_lt_of_le (List.mem_range.1 hj) hcount

end RyazhaClk.MemTester
