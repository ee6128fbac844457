/-
What the stuck address test finds: every word holds its own address, then the complement of it.

- `stuckLoop_eq_zero_iff`: whether a round passes does not depend on what the memory held.
- `testStuckAddress_iff`: two rounds pass exactly when the words of the buffer have rows of their own and every cell
  behind them keeps both bits; one round, when they keep their addresses.
-/
import Mathlib.Tactic
import RyazhaClk.MemTester.Tests

namespace RyazhaClk.MemTester

open Accesses FaultyMemory

/-- the bits of `n` bytes -/
def region (a n : ℕ) : Set ℕ := {b | 8 * a ≤ b ∧ b < 8 * (a + n)}

variable {R : Type} {d : Dram R}

/-! ## Words as bits -/

theorem getLsbD_readBits (n a : ℕ) (m : Memory R) {k : ℕ} (hk : k < n) :
    (readBits d n a m).getLsbD k = read d.wiring m (8 * a + k) := by
  rw [readBits, ShiftRegister.getLsbD_ofBits, decide_eq_true hk, Bool.true_and, List.getD_eq_getElem?_getD,
    List.getElem?_map, List.getElem?_range hk, Option.map_some, Option.getD_some]

theorem mem_bitWrites {n a : ℕ} {v : BitVec n} {p : ℕ × Bool} :
    p ∈ bitWrites a v ↔ ∃ k < n, p = (8 * a + k, v.getLsbD k) := by
  simp only [bitWrites, List.mem_map, List.mem_range]
  constructor
  · rintro ⟨k, hk, rfl⟩
    exact ⟨k, hk, rfl⟩
  · rintro ⟨k, hk, rfl⟩
    exact ⟨k, hk, rfl⟩

theorem readBits_eq_iff {n a : ℕ} {m : Memory R} {v : BitVec n} :
    readBits d n a m = v ↔ ∀ p ∈ bitWrites a v, read d.wiring m p.1 = p.2 := by
  constructor
  · rintro rfl p hp
    obtain ⟨k, hk, rfl⟩ := mem_bitWrites.1 hp
    exact (getLsbD_readBits n a m hk).symm
  · intro h
    apply BitVec.eq_of_getLsbD_eq
    intro k hk
    rw [getLsbD_readBits n a m hk]
    exact h _ (mem_bitWrites.2 ⟨k, hk, rfl⟩)

/-! ## One round -/

section Round

variable {bufa count : ℕ}

/-- the writes of a round -/
def addressWrites (bufa count j : ℕ) : List (ℕ × Bool) :=
  (List.range count).flatMap fun i => bitWrites (bufa + 8 * i) (stuckValue j i (bufa + 8 * i))

/-- the bit `k` of the word `i` in round `j` -/
def stuckBit (bufa j i k : ℕ) : Bool := (stuckValue j i (bufa + 8 * i)).getLsbD k

theorem mem_addressWrites {j : ℕ} {p : ℕ × Bool} :
    p ∈ addressWrites bufa count j ↔
      ∃ i < count, ∃ k < 64, p = (8 * (bufa + 8 * i) + k, stuckBit bufa j i k) := by
  simp only [addressWrites, List.mem_flatMap, List.mem_range, mem_bitWrites, stuckBit]

theorem exec_setAddresses [DecidableEq R] (j : ℕ) (m : Memory R) :
    (setAddresses d bufa count j).exec m = fill d.wiring m (addressWrites bufa count j) := by
  rw [setAddresses, Prog.exec_forM]
  simp only [exec_storeWord, writeWord, writeBits, addressWrites, ← fill_flatMap]

theorem run_checkLoop [DecidableEq R] (j : ℕ) (is : List ℕ) (m : Memory R) : (checkLoop d bufa j is).run m =
    (is.all fun i => readWord d (bufa + 8 * i) m == stuckValue j i (bufa + 8 * i), m) := by
  induction is with
  | nil => rfl
  | cons i is ih =>
    rw [checkLoop, Prog.run_bind, run_loadWord, exec_loadWord, List.all_cons]
    by_cases hword : readWord d (bufa + 8 * i) m = stuckValue j i (bufa + 8 * i)
    · simp [hword, ih]
    · simp [hword]

@[simp] theorem exec_checkAddresses [DecidableEq R] (j : ℕ) (m : Memory R) : (checkAddresses d bufa count j).exec m = m :=
  congrArg Prod.snd (run_checkLoop j (List.range count) m)

theorem checkAddresses_iff [DecidableEq R] {j : ℕ} {m : Memory R} :
    ((checkAddresses d bufa count j).run m).1 = true ↔ ∀ p ∈ addressWrites bufa count j, read d.wiring m p.1 = p.2 := by
  rw [checkAddresses, run_checkLoop]
  simp only [addressWrites, List.all_eq_true, List.mem_range, beq_iff_eq, List.mem_flatMap]
  constructor
  · rintro h p ⟨i, hi, hp⟩
    exact readBits_eq_iff.1 (h i hi) p hp
  · intro h i hi
    exact readBits_eq_iff.2 fun p hp => h p ⟨i, hi, hp⟩

/-- the cells keep what a round writes, and words that share a row get the same in it -/
structure RoundOk (d : Dram R) (bufa count j : ℕ) : Prop where
  keeps : ∀ p ∈ addressWrites bufa count j, d.keep (d.wiring.cell p.1) p.2 = p.2
  shared : ∀ p ∈ addressWrites bufa count j, ∀ q ∈ addressWrites bufa count j,
    d.wiring.cell p.1 = d.wiring.cell q.1 → p.2 = q.2

theorem checkAddresses_setAddresses [DecidableEq R] {j : ℕ} (m : Memory R) :
    ((checkAddresses d bufa count j).run ((setAddresses d bufa count j).exec m)).1 = true ↔ RoundOk d bufa count j := by
  rw [checkAddresses_iff, exec_setAddresses]
  refine (reads_fill_iff m (addressWrites bufa count j)).trans ?_
  exact ⟨fun h => ⟨h.1, h.2⟩, fun h => ⟨h.keeps, h.shared⟩⟩

/-- **The rounds.** The loop ends with zero exactly when each round is one the memory can pass. -/
theorem stuckLoop_eq_zero_iff [DecidableEq R] (js : List ℕ) (m : Memory R) :
    (stuckLoop d bufa count js m).1 = 0 ↔ ∀ j ∈ js, RoundOk d bufa count j := by
  induction js generalizing m with
  | nil => simp [stuckLoop]
  | cons j js ih =>
    rw [stuckLoop, List.forall_mem_cons, ← checkAddresses_setAddresses m, Prog.run_bind, Prog.run_bind]
    by_cases hcheck : ((checkAddresses d bufa count j).run ((setAddresses d bufa count j).exec m)).1 = true
    · rw [if_pos hcheck, ih]
      exact ⟨fun h => ⟨hcheck, h⟩, fun h => h.2⟩
    · rw [if_neg hcheck]
      exact ⟨fun h => absurd h (Int.negSucc_ne_zero 0), fun h => absurd h.1 hcheck⟩

end Round

/-! ## Addresses -/

theorem stuckValue_inj {j i i' p p' : ℕ} (hp : p < 2 ^ 63) (hp' : p' < 2 ^ 63)
    (h : stuckValue j i p = stuckValue j i' p') : p = p' := by
  have htop : ∀ q : ℕ, q < 2 ^ 63 → (BitVec.ofNat 64 q).getLsbD 63 = false := by
    intro q hq
    rw [BitVec.getLsbD_ofNat, Nat.testBit_lt_two_pow hq, Bool.and_false]
  have heq : BitVec.ofNat 64 p = BitVec.ofNat 64 p' → p = p' := by
    intro h
    have hnat := congrArg BitVec.toNat h
    rw [BitVec.toNat_ofNat, BitVec.toNat_ofNat] at hnat
    omega
  -- an address and the complement of one differ in the top bit
  have hapart : ∀ q q' : ℕ, q < 2 ^ 63 → q' < 2 ^ 63 → BitVec.ofNat 64 q ≠ ~~~BitVec.ofNat 64 q' := by
    intro q q' hq hq' h
    have hbit := congrArg (fun v : BitVec 64 => v.getLsbD 63) h
    simp only [BitVec.getLsbD_not, htop q hq, htop q' hq'] at hbit
    cases hbit
  unfold stuckValue at h
  split_ifs at h
  · exact heq h
  · exact absurd h (hapart p p' hp hp')
  · exact absurd h.symm (hapart p' p hp' hp)
  · exact heq (BitVec.not_inj.1 h)

theorem stuckBit_succ (bufa j i : ℕ) {k : ℕ} (hk : k < 64) : stuckBit bufa (j + 1) i k = !stuckBit bufa j i k := by
  unfold stuckBit stuckValue
  by_cases heven : (j + i) % 2 = 0
  · rw [if_pos heven, if_neg (by omega), BitVec.getLsbD_not, decide_eq_true hk, Bool.true_and]
  · rw [if_neg heven, if_pos (by omega), BitVec.getLsbD_not, decide_eq_true hk, Bool.true_and, Bool.not_not]

section Buffer

variable {bufa count : ℕ}

/-- a bit of the buffer is a bit of one of its words -/
theorem mem_region_iff {b : ℕ} :
    b ∈ region bufa (8 * count) ↔ ∃ i < count, ∃ k < 64, b = 8 * (bufa + 8 * i) + k := by
  rw [region, Set.mem_ofPred_eq]
  constructor
  · rintro ⟨hlo, hhi⟩
    exact ⟨(b - 8 * bufa) / 64, by omega, (b - 8 * bufa) % 64, Nat.mod_lt _ (by norm_num), by omega⟩
  · rintro ⟨i, hi, k, hk, rfl⟩
    omega

/-- the bit `k` of the word `i` is that bit of its row -/
theorem cell_eq (hbase : 8 ∣ bufa) (i : ℕ) {k : ℕ} (hk : k < 64) :
    d.wiring.cell (8 * (bufa + 8 * i) + k) = (d.row (bufa / 8 + i), k) := by
  obtain ⟨base, rfl⟩ := hbase
  simp only [Dram.wiring, Prod.mk.injEq, Nat.mul_div_cancel_left base (show 0 < 8 by norm_num)]
  exact ⟨congrArg d.row (by omega), by omega⟩

theorem RoundOk.of_sound (h : Sound d.wiring (region bufa (8 * count))) (j : ℕ) : RoundOk d bufa count j := by
  have hin : ∀ p ∈ addressWrites bufa count j, p.1 ∈ region bufa (8 * count) := by
    intro p hp
    obtain ⟨i, hi, k, hk, rfl⟩ := mem_addressWrites.1 hp
    exact mem_region_iff.2 ⟨i, hi, k, hk, rfl⟩
  refine ⟨fun p hp => h.keeps p.1 (hin p hp) p.2, fun p hp q hq hcell => ?_⟩
  have hsame := h.apart (hin p hp) (hin q hq) hcell
  obtain ⟨i, hi, k, hk, rfl⟩ := mem_addressWrites.1 hp
  obtain ⟨i', hi', k', hk', rfl⟩ := mem_addressWrites.1 hq
  simp only at hsame
  obtain rfl : i = i' := by omega
  obtain rfl : k = k' := by omega
  rfl

/-- one round tells all rows apart -/
theorem RoundOk.row_injective {j : ℕ} (h : RoundOk d bufa count j) (hbase : 8 ∣ bufa) (hspace : bufa + 8 * count ≤ 2 ^ 63)
    {i i' : ℕ} (hi : i < count) (hi' : i' < count) (hrow : d.row (bufa / 8 + i) = d.row (bufa / 8 + i')) : i = i' := by
  have hvalue : stuckValue j i (bufa + 8 * i) = stuckValue j i' (bufa + 8 * i') := by
    apply BitVec.eq_of_getLsbD_eq
    intro k hk
    exact h.shared _ (mem_addressWrites.2 ⟨i, hi, k, hk, rfl⟩) _ (mem_addressWrites.2 ⟨i', hi', k, hk, rfl⟩)
      (by rw [cell_eq hbase i hk, cell_eq hbase i' hk, hrow])
  have haddress := stuckValue_inj (by omega) (by omega) hvalue
  omega

/-- two rounds in a row show every cell both bits -/
theorem sound_of_rounds {j : ℕ} (h : RoundOk d bufa count j) (hnext : RoundOk d bufa count (j + 1)) (hbase : 8 ∣ bufa)
    (hspace : bufa + 8 * count ≤ 2 ^ 63) : Sound d.wiring (region bufa (8 * count)) := by
  constructor
  · intro b hb b' hb' hcell
    obtain ⟨i, hi, k, hk, rfl⟩ := mem_region_iff.1 hb
    obtain ⟨i', hi', k', hk', rfl⟩ := mem_region_iff.1 hb'
    rw [cell_eq hbase i hk, cell_eq hbase i' hk', Prod.mk.injEq] at hcell
    obtain ⟨hrow, rfl⟩ := hcell
    rw [h.row_injective hbase hspace hi hi' hrow]
  · intro b hb v
    obtain ⟨i, hi, k, hk, rfl⟩ := mem_region_iff.1 hb
    have hfirst := h.keeps _ (mem_addressWrites.2 ⟨i, hi, k, hk, rfl⟩)
    have hsecond := hnext.keeps _ (mem_addressWrites.2 ⟨i, hi, k, hk, rfl⟩)
    rw [stuckBit_succ bufa j i hk] at hsecond
    show d.keep _ v = v
    cases hbit : stuckBit bufa j i k <;> cases v <;> simp_all

theorem sound_of_testStuckAddress [DecidableEq R] {dividend : ℕ} (hrounds : 2 ≤ 16 / dividend) (hbase : 8 ∣ bufa)
    (hspace : bufa + 8 * count ≤ 2 ^ 63) {m : Memory R} (h : (testStuckAddress d dividend bufa count m).1 = 0) :
    Sound d.wiring (region bufa (8 * count)) := by
  rw [testStuckAddress, stuckLoop_eq_zero_iff] at h
  exact sound_of_rounds (h 0 (List.mem_range.2 (by omega))) (h 1 (List.mem_range.2 (by omega))) hbase hspace

theorem testStuckAddress_of_sound [DecidableEq R] (dividend : ℕ) (h : Sound d.wiring (region bufa (8 * count)))
    (m : Memory R) : (testStuckAddress d dividend bufa count m).1 = 0 :=
  (stuckLoop_eq_zero_iff _ m).2 fun j _ => RoundOk.of_sound h j

/-- every word has a row of its own, and its cells keep the bits of its address or those of the complement -/
structure KeepsAddresses (d : Dram R) (bufa count j : ℕ) : Prop where
  apart : ∀ i < count, ∀ i' < count, d.row (bufa / 8 + i) = d.row (bufa / 8 + i') → i = i'
  keeps : ∀ i < count, ∀ k < 64, d.keep (d.row (bufa / 8 + i), k) (stuckBit bufa j i k) = stuckBit bufa j i k

theorem roundOk_iff (hbase : 8 ∣ bufa) (hspace : bufa + 8 * count ≤ 2 ^ 63) (j : ℕ) :
    RoundOk d bufa count j ↔ KeepsAddresses d bufa count j := by
  constructor
  · intro h
    refine ⟨fun i hi i' hi' hrow => h.row_injective hbase hspace hi hi' hrow, fun i hi k hk => ?_⟩
    have hkeep := h.keeps _ (mem_addressWrites.2 ⟨i, hi, k, hk, rfl⟩)
    rwa [cell_eq hbase i hk] at hkeep
  · intro h
    constructor
    · intro p hp
      obtain ⟨i, hi, k, hk, rfl⟩ := mem_addressWrites.1 hp
      rw [cell_eq hbase i hk]
      exact h.keeps i hi k hk
    · intro p hp q hq hcell
      obtain ⟨i, hi, k, hk, rfl⟩ := mem_addressWrites.1 hp
      obtain ⟨i', hi', k', hk', rfl⟩ := mem_addressWrites.1 hq
      rw [cell_eq hbase i hk, cell_eq hbase i' hk', Prod.mk.injEq] at hcell
      obtain ⟨hrow, rfl⟩ := hcell
      rw [h.apart i hi i' hi' hrow]

/-- **The stuck address test is exact.** With two rounds or more it passes, whatever the memory held, exactly when the
words of the buffer are sound; with the one round of the stress test, when they have rows of their own and keep their
addresses. -/
theorem testStuckAddress_iff [DecidableEq R] (dividend : ℕ) (hbase : 8 ∣ bufa) (hspace : bufa + 8 * count ≤ 2 ^ 63)
    (m : Memory R) :
    (2 ≤ 16 / dividend →
      ((testStuckAddress d dividend bufa count m).1 = 0 ↔ Sound d.wiring (region bufa (8 * count)))) ∧
    (16 / dividend = 1 → ((testStuckAddress d dividend bufa count m).1 = 0 ↔ KeepsAddresses d bufa count 0)) := by
  constructor
  · intro hrounds
    exact ⟨sound_of_testStuckAddress hrounds hbase hspace, fun h => testStuckAddress_of_sound dividend h m⟩
  · intro honce
    rw [testStuckAddress, stuckLoop_eq_zero_iff, honce, ← roundOk_iff hbase hspace]
    simp

end Buffer

/-- a decoder that ignores the lowest address line of the words -/
def droppedLine : Dram ℕ where
  row i := i / 2
  keep _ b := b

/-- two words on such a line are found out -/
theorem droppedLine_found : (testStuckAddress droppedLine 4 4096 2 fun _ => false).1 ≠ 0 := by
  intro hpass
  have h := ((testStuckAddress_iff 4 (by decide) (by decide) _).1 (by decide)).1 hpass
  have hsame := h.apart (show 8 * 4096 ∈ region 4096 (8 * 2) from ⟨by decide, by decide⟩)
    (show 8 * 4104 ∈ region 4096 (8 * 2) from ⟨by decide, by decide⟩) rfl
  exact absurd hsame (by decide)

end RyazhaClk.MemTester
