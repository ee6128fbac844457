/-
The tests of the memory tester, over memory whose address decoder and cells may be faulty.

A row of the memory holds an aligned word, a cell of it one bit; an access of a word or a byte reaches the cells of its
bits, also where it is not aligned. A test is the program of its accesses, between which other threads make theirs. What
`rand` returns is a parameter of each test: `rand i` is its call `i`.
-/
import Mathlib.Tactic
import RyazhaClk.Lib.Accesses
import RyazhaClk.Lib.FaultyMemory
import RyazhaClk.Lib.ShiftRegister

namespace RyazhaClk.MemTester

open Accesses FaultyMemory

/-! ## Memory -/

/-- the row an aligned word is decoded to, and what a cell stores of a bit -/
structure Dram (R : Type) where
  row : ℕ → R
  keep : R × ℕ → Bool → Bool

/-- the cells, each a bit of a row -/
abbrev Memory (R : Type) := R × ℕ → Bool

variable {R : Type} (d : Dram R)

/-- bit `b` of the memory is bit `b % 64` of its word -/
def Dram.wiring : Wiring ℕ (R × ℕ) Bool where
  cell b := (d.row (b / 64), b % 64)
  keep := d.keep

/-- the `n` bits from a byte address on, lowest first -/
def readBits (n a : ℕ) (m : Memory R) : BitVec n :=
  ShiftRegister.ofBits ((List.range n).map fun k => read d.wiring m (8 * a + k))

def readWord (a : ℕ) (m : Memory R) : BitVec 64 := readBits d 64 a m

def readByte (a : ℕ) (m : Memory R) : BitVec 8 := readBits d 8 a m

def loadWord (a : ℕ) : Prog (Memory R) (BitVec 64) := .load (readWord d a)

def loadByte (a : ℕ) : Prog (Memory R) (BitVec 8) := .load (readByte d a)

@[simp] theorem run_loadWord (a : ℕ) (m : Memory R) : (loadWord d a).run m = (readWord d a m, m) := rfl

@[simp] theorem exec_loadWord (a : ℕ) (m : Memory R) : (loadWord d a).exec m = m := rfl

@[simp] theorem run_loadByte (a : ℕ) (m : Memory R) : (loadByte d a).run m = (readByte d a m, m) := rfl

@[simp] theorem exec_loadByte (a : ℕ) (m : Memory R) : (loadByte d a).exec m = m := rfl

variable [DecidableEq R]

def bitWrites {n : ℕ} (a : ℕ) (v : BitVec n) : List (ℕ × Bool) := (List.range n).map fun k => (8 * a + k, v.getLsbD k)

def writeBits {n : ℕ} (a : ℕ) (v : BitVec n) (m : Memory R) : Memory R := fill d.wiring m (bitWrites a v)

def writeWord (a : ℕ) (v : BitVec 64) (m : Memory R) : Memory R := writeBits d a v m

def writeByte (a : ℕ) (v : BitVec 8) (m : Memory R) : Memory R := writeBits d a v m

def storeWord (a : ℕ) (v : BitVec 64) : Prog (Memory R) Unit := .store (writeWord d a v)

def storeByte (a : ℕ) (v : BitVec 8) : Prog (Memory R) Unit := .store (writeByte d a v)

@[simp] theorem exec_storeWord (a : ℕ) (v : BitVec 64) (m : Memory R) : (storeWord d a v).exec m = writeWord d a v m := rfl

@[simp] theorem exec_storeByte (a : ℕ) (v : BitVec 8) (m : Memory R) : (storeByte d a v).exec m = writeByte d a v m := rfl

/-! ## Loops over the words of two regions -/

def compareRegions (bufa bufb count : ℕ) : Prog (Memory R) ℤ :=
  (List.range count).foldlM (fun r i => do
    let p1 ← loadWord d (bufa + 8 * i)
    let p2 ← loadWord d (bufb + 8 * i)
    return if p1 ≠ p2 then -1 else r) 0

/-- `*p1++ = *p2++ = v`, the inner assignment first -/
def writeBoth (bufa bufb i : ℕ) (v : BitVec 64) : Prog (Memory R) Unit := do
  storeWord d (bufb + 8 * i) v
  storeWord d (bufa + 8 * i) v

def fillBoth (bufa bufb count : ℕ) (value : ℕ → BitVec 64) : Prog (Memory R) Unit :=
  (List.range count).forM fun i => writeBoth d bufa bufb i (value i)

def updateWord (a : ℕ) (op : BitVec 64 → BitVec 64) : Prog (Memory R) Unit := do
  let p ← loadWord d a
  storeWord d a (op p)

/-- `*p1++ op= q; *p2++ op= q` -/
def updateBoth (bufa bufb count : ℕ) (op : BitVec 64 → BitVec 64) : Prog (Memory R) Unit :=
  (List.range count).forM fun i => do
    updateWord d (bufa + 8 * i) op
    updateWord d (bufb + 8 * i) op

/-- one fill after the other, each compared before the next -/
def roundLoop (bufa bufb count : ℕ) : List (ℕ → BitVec 64) → Prog (Memory R) ℤ
  | [] => return 0
  | value :: rounds => do
    fillBoth d bufa bufb count value
    let r ← compareRegions d bufa bufb count
    if r ≠ 0 then return -1 else roundLoop bufa bufb count rounds

/-! ## Numbers -/

def UL_LEN : ℕ := 64
def UL_ONEBITS : BitVec 64 := 0xffffffffffffffff
def CHECKERBOARD1 : BitVec 64 := 0x5555555555555555
def CHECKERBOARD2 : BitVec 64 := 0xaaaaaaaaaaaaaaaa

def rand32 (rand : ℕ → BitVec 32) (i : ℕ) : BitVec 32 := rand i ||| rand (i + 1) <<< 16

def rand64 (rand : ℕ → BitVec 32) (i : ℕ) : BitVec 64 :=
  (rand32 rand i).setWidth 64 <<< 32 ||| (rand32 rand (i + 2)).setWidth 64

/-- the `k`-th number a test draws, of four calls -/
def randUl (rand : ℕ → BitVec 32) (k : ℕ) : BitVec 64 := rand64 rand (4 * k)

/-- `ONE << k`; the processor takes the amount modulo 64 -/
def oneShl (k : ℕ) : BitVec 64 := 1#64 <<< (k % 64)

def ulByte (x : ℕ) : BitVec 64 :=
  let x := BitVec.ofNat 64 x
  x ||| x <<< 8 ||| x <<< 16 ||| x <<< 24 ||| x <<< 32 ||| x <<< 40 ||| x <<< 48 ||| x <<< 56

/-- `q` on the even words and its complement on the odd ones -/
def alternate (q : BitVec 64) (i : ℕ) : BitVec 64 := if i % 2 = 0 then q else ~~~q

/-- the bit that is walked up in the first 64 rounds and down in the others -/
def walkBit (j : ℕ) : ℕ := if j < UL_LEN then j else UL_LEN * 2 - j - 1

/-! ## The tests -/

/-- what is written to the word `i`, at `p`, in round `j` -/
def stuckValue (j i p : ℕ) : BitVec 64 := if (j + i) % 2 = 0 then BitVec.ofNat 64 p else ~~~BitVec.ofNat 64 p

def setAddresses (bufa count j : ℕ) : Prog (Memory R) Unit :=
  (List.range count).forM fun i => storeWord d (bufa + 8 * i) (stuckValue j i (bufa + 8 * i))

/-- the words that are left to check -/
def checkLoop (bufa j : ℕ) : List ℕ → Prog (Memory R) Bool
  | [] => return true
  | i :: is => do
    let p1 ← loadWord d (bufa + 8 * i)
    if p1 ≠ stuckValue j i (bufa + 8 * i) then return false else checkLoop bufa j is

def checkAddresses (bufa count j : ℕ) : Prog (Memory R) Bool := checkLoop d bufa j (List.range count)

def stuckLoop (bufa count : ℕ) : List ℕ → Prog (Memory R) ℤ
  | [] => return 0
  | j :: js => do
    setAddresses d bufa count j
    let found ← checkAddresses d bufa count j
    if found then stuckLoop bufa count js else return -1

def testStuckAddress (dividend bufa count : ℕ) : Prog (Memory R) ℤ :=
  stuckLoop d bufa count (List.range (16 / dividend))

/-- a row of `tests`: the numbers drawn, the two regions and their words -/
structure Test (R : Type) where
  name : String
  fp : (ℕ → BitVec 32) → ℕ → ℕ → ℕ → Prog (Memory R) ℤ

def filled (value : (ℕ → BitVec 32) → ℕ → BitVec 64) (rand : ℕ → BitVec 32) (bufa bufb count : ℕ) :
    Prog (Memory R) ℤ := do
  fillBoth d bufa bufb count (value rand)
  compareRegions d bufa bufb count

def updated (op : BitVec 64 → BitVec 64 → BitVec 64) (rand : ℕ → BitVec 32) (bufa bufb count : ℕ) :
    Prog (Memory R) ℤ := do
  updateBoth d bufa bufb count (fun word => op word (randUl rand 0))
  compareRegions d bufa bufb count

def rounds (values : List (ℕ → BitVec 64)) (_rand : ℕ → BitVec 32) (bufa bufb count : ℕ) : Prog (Memory R) ℤ :=
  roundLoop d bufa bufb count values

def testRandomValue := filled d fun rand i => randUl rand i

def testXorComparison := updated d fun word q => word ^^^ q

def testSubComparison := updated d fun word q => word - q

def testMulComparison := updated d fun word q => word * q

/-- a zero divisor is made one before it is used -/
def testDivComparison := updated d fun word q => word / if q = 0 then q + 1 else q

def testOrComparison := updated d fun word q => word ||| q

def testAndComparison := updated d fun word q => word &&& q

def testSeqincComparison := filled d fun rand i => BitVec.ofNat 64 i + randUl rand 0

variable (dividend : ℕ)

def testSolidbitsComparison :=
  rounds d ((List.range (64 / dividend / dividend)).map fun j => alternate (if j % 2 = 0 then UL_ONEBITS else 0))

def testCheckerboardComparison :=
  rounds d
    ((List.range (64 / dividend / dividend)).map fun j => alternate (if j % 2 = 0 then CHECKERBOARD1 else CHECKERBOARD2))

def testBlockseqComparison := rounds d ((List.range (64 / dividend / dividend)).map fun j _ => ulByte j)

def testWalkbits0Comparison :=
  rounds d ((List.range (UL_LEN * 2 / dividend / dividend)).map fun j _ => oneShl (walkBit j))

def testWalkbits1Comparison :=
  rounds d ((List.range (UL_LEN * 2 / dividend / dividend)).map fun j _ => UL_ONEBITS ^^^ oneShl (walkBit j))

def testBitspreadComparison :=
  rounds d ((List.range (UL_LEN * 2 / dividend / dividend)).map fun j i =>
    let spread := oneShl (walkBit j) ||| oneShl (walkBit j + 2)
    if i % 2 = 0 then spread else UL_ONEBITS ^^^ spread)

/-- in the round `8 * k + j` the bit `k` has been flipped `j + 1` times -/
def testBitflipComparison :=
  rounds d ((List.range (UL_LEN / dividend / dividend)).flatMap fun k =>
    (List.range 8).map fun j => alternate ((fun q => ~~~q)^[j + 1] (oneShl k)))

def tests : List (Test R) :=
  [⟨"Random Value", testRandomValue d⟩,
   ⟨"Compare XOR", testXorComparison d⟩,
   ⟨"Compare SUB", testSubComparison d⟩,
   ⟨"Compare MUL", testMulComparison d⟩,
   ⟨"Compare DIV", testDivComparison d⟩,
   ⟨"Compare OR", testOrComparison d⟩,
   ⟨"Compare AND", testAndComparison d⟩,
   ⟨"Sequential Increment", testSeqincComparison d⟩,
   ⟨"Solid Bits", testSolidbitsComparison d dividend⟩,
   ⟨"Block Sequential", testBlockseqComparison d dividend⟩,
   ⟨"Checkerboard", testCheckerboardComparison d dividend⟩,
   ⟨"Bit Spread", testBitspreadComparison d dividend⟩,
   ⟨"Bit Flip (Slow)", testBitflipComparison d dividend⟩,
   ⟨"Walking Ones", testWalkbits1Comparison d dividend⟩,
   ⟨"Walking Zeroes", testWalkbits0Comparison d dividend⟩]

/-! ## The tests of the memory functions -/

def memset (dst : ℕ) (c : BitVec 8) (n : ℕ) : Prog (Memory R) Unit :=
  (List.range n).forM fun i => storeByte d (dst + i) c

def memcpy (dst src n : ℕ) : Prog (Memory R) Unit :=
  (List.range n).forM fun i => do
    let b ← loadByte d (src + i)
    storeByte d (dst + i) b

/-- the bytes that are left to compare -/
def memcmpFrom (a b : ℕ) : List ℕ → Prog (Memory R) ℤ
  | [] => return 0
  | i :: is => do
    let p1 ← loadByte d (a + i)
    let p2 ← loadByte d (b + i)
    if p1 ≠ p2 then return (p1.toNat : ℤ) - p2.toNat else memcmpFrom a b is

/-- the difference of the first bytes that differ -/
def memcmp (a b n : ℕ) : Prog (Memory R) ℤ := memcmpFrom d a b (List.range n)

/-- both regions set to the low byte of the `k`-th number drawn -/
def memsetBoth (rand : ℕ → BitVec 32) (k bufa bufb count : ℕ) : Prog (Memory R) Unit := do
  memset d bufa ((randUl rand k).setWidth 8) (8 * count)
  memset d bufb ((randUl rand k).setWidth 8) (8 * count)

def testStressMemcpy (rand : ℕ → BitVec 32) (bufa bufb count : ℕ) : Prog (Memory R) ℤ := do
  memsetBoth d rand 0 bufa bufb count
  (List.range 128).forM fun _ => memcpy d bufa bufb (8 * count)
  memcmp d bufa bufb (8 * count)

def testStressMemset (rand : ℕ → BitVec 32) (bufa bufb count : ℕ) : Prog (Memory R) ℤ := do
  (List.range 128).forM fun j => memsetBoth d rand j bufa bufb count
  memcmp d bufa bufb (8 * count)

def memcmpLoop (rand : ℕ → BitVec 32) (bufa bufb count : ℕ) : List ℕ → Prog (Memory R) ℤ
  | [] => return 0
  | j :: js => do
    writeBoth d bufa bufb j (randUl rand (j + 1))
    let rc ← memcmp d bufa bufb (8 * count)
    if rc ≠ 0 then return rc else memcmpLoop rand bufa bufb count js

def testStressMemcmp (rand : ℕ → BitVec 32) (bufa bufb count : ℕ) : Prog (Memory R) ℤ := do
  memsetBoth d rand 0 bufa bufb count
  memcmpLoop d rand bufa bufb count (List.range 32)

def stressTests : List (Test R) :=
  [⟨"Stress memcpy x128", testStressMemcpy d⟩,
   ⟨"Stress memset x128", testStressMemset d⟩,
   ⟨"Stress memcmp x 32", testStressMemcmp d⟩]

end RyazhaClk.MemTester
