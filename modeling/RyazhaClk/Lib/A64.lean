/-
A part of the A64 instruction set on the register files: wide moves to a 32-bit register, the no-operation hint, and the
single-precision multiply-adds. Every instruction here goes on to the next word.

- `run_movz`, `run_movz_movk`: what a wide move, and a pair of them, load.
- `nop_harmless`, `fpMulAdd_not_harmless`: the hint has no effect, a multiply-add clears the upper bits of its register.

The floating-point operation itself is a parameter.
-/
import RyazhaClk.Lib.BitFields

namespace RyazhaClk.A64

open BitFields

/-! ## Decoding -/

inductive Insn where
  | movz (hw : BitVec 2) (imm16 : BitVec 16) (rd : BitVec 5)
  | movk (hw : BitVec 2) (imm16 : BitVec 16) (rd : BitVec 5)
  | nop
  /-- `FMADD`, `FMSUB`, `FNMADD` and `FNMSUB` by the bits `o1` and `o0` -/
  | fpMulAdd (o1 o0 : Bool) (rm ra rn rd : BitVec 5)
deriving DecidableEq

/-- move wide, immediate: `sf` 0, and the half of a 32-bit register -/
def isMoveWide (ins : BitVec 32) : Bool :=
  getField ins 31 1 = 0 && getField ins 23 6 = 0b100101 && getField ins 22 1 = 0

/-- floating-point data-processing with three sources, single precision -/
def isFpMulAdd (ins : BitVec 32) : Bool := getField ins 24 8 = 0b00011111 && getField ins 22 2 = 0

/-- `none` for every other word -/
def decode (ins : BitVec 32) : Option Insn :=
  if isMoveWide ins && getField ins 29 2 = 0b10 then
    some (.movz (getField ins 21 2) (getField ins 5 16) (getField ins 0 5))
  else if isMoveWide ins && getField ins 29 2 = 0b11 then
    some (.movk (getField ins 21 2) (getField ins 5 16) (getField ins 0 5))
  else if ins = 0xD503201F then some .nop
  else if isFpMulAdd ins then
    some (.fpMulAdd (getField ins 21 1 = 1) (getField ins 15 1 = 1) (getField ins 16 5) (getField ins 10 5)
      (getField ins 5 5) (getField ins 0 5))
  else none

/-! ## Execution -/

/-- the general registers and the vector registers -/
structure Regs where
  x : BitVec 5 → BitVec 64
  v : BitVec 5 → BitVec 128

/-- register 31 reads as zero and is not written -/
def Regs.getW (r : Regs) (n : BitVec 5) : BitVec 32 := if n = 31 then 0 else (r.x n).setWidth 32

/-- the upper half of the 64-bit register is cleared -/
def Regs.setW (r : Regs) (n : BitVec 5) (value : BitVec 32) : Regs :=
  if n = 31 then r else { r with x := Function.update r.x n (value.setWidth 64) }

/-- the rest of the 128-bit register is cleared -/
def Regs.setS (r : Regs) (n : BitVec 5) (value : BitVec 32) : Regs :=
  { r with v := Function.update r.v n (value.setWidth 128) }

def negate (b : Bool) (value : BitVec 32) : BitVec 32 := if b then value ^^^ 0x80000000 else value

variable (fma : BitVec 32 → BitVec 32 → BitVec 32 → BitVec 32)

def step (r : Regs) : Insn → Regs
  | .movz hw imm16 rd => r.setW rd (setField 0 (16 * hw.toNat) imm16)
  | .movk hw imm16 rd => r.setW rd (setField (r.getW rd) (16 * hw.toNat) imm16)
  | .nop => r
  | .fpMulAdd o1 o0 rm ra rn rd =>
    r.setS rd (fma (negate o1 ((r.v ra).setWidth 32)) (negate (o0 != o1) ((r.v rn).setWidth 32)) ((r.v rm).setWidth 32))

/-- the words one after another; `none` if one of them is not decoded -/
def run : List (BitVec 32) → Regs → Option Regs
  | [], r => some r
  | ins :: words, r => (decode ins).bind fun i => run words (step fma r i)

/-- the word decodes, and what it decodes to has no effect -/
def Harmless (ins : BitVec 32) : Prop := ∃ i, decode ins = some i ∧ ∀ r, step fma r i = r

/-! ## Wide moves -/

variable {fma}

@[simp] theorem getW_setW (r : Regs) (n : BitVec 5) (value : BitVec 32) :
    (r.setW n value).getW n = if n = 31 then 0 else value := by
  unfold Regs.setW Regs.getW
  by_cases h : n = 31
  · rw [if_pos h, if_pos h]
  · rw [if_neg h, if_neg h, if_neg h]
    dsimp only
    rw [Function.update_self]
    apply BitVec.eq_of_getLsbD_eq
    intro i hi
    simp [hi]

theorem setW_setW (r : Regs) (n : BitVec 5) (a b : BitVec 32) : (r.setW n a).setW n b = r.setW n b := by
  unfold Regs.setW
  by_cases h : n = 31
  · rw [if_pos h, if_pos h, if_pos h]
  · rw [if_neg h, if_neg h, if_neg h]
    dsimp only
    rw [Function.update_idem]

variable (fma) in
/-- a move to the low half, from its fields -/
theorem run_movz {ins : BitVec 32} (h : isMoveWide ins = true) (hopc : getField ins 29 2 = 0b10)
    (hhw : getField ins 21 2 = 0) (r : Regs) :
    run fma [ins] r = some (r.setW (getField ins 0 5) ((getField ins 5 16).setWidth 32)) := by
  have hlow : ∀ imm : BitVec 16, setField (0 : BitVec 32) 0 imm = imm.setWidth 32 := by
    intro imm
    simp [setField]
  have hdecode : decode ins = some (.movz 0 (getField ins 5 16) (getField ins 0 5)) := by
    rw [decode, if_pos (by simp [h, hopc]), hhw]
  rw [run, hdecode]
  simp only [Option.bind_some, run, step]
  rw [show 16 * (0 : BitVec 2).toNat = 0 from rfl, hlow]

/-- **a move to the low half and one that keeps it load the value** -/
theorem run_movz_movk {ins1 ins2 : BitVec 32} {value : BitVec 32} {rd : BitVec 5} (h1 : isMoveWide ins1 = true)
    (hopc1 : getField ins1 29 2 = 0b10) (hhw1 : getField ins1 21 2 = 0) (himm1 : getField ins1 5 16 = value.setWidth 16)
    (hrd1 : getField ins1 0 5 = rd) (h2 : isMoveWide ins2 = true) (hopc2 : getField ins2 29 2 = 0b11)
    (hhw2 : getField ins2 21 2 = 1) (himm2 : getField ins2 5 16 = (value >>> 16).setWidth 16)
    (hrd2 : getField ins2 0 5 = rd) (r : Regs) : run fma [ins1, ins2] r = some (r.setW rd value) := by
  have hdecode : decode ins2 = some (.movk 1 ((value >>> 16).setWidth 16) rd) := by
    rw [decode, if_neg (by simp [hopc2]), if_pos (by simp [h2, hopc2]), hhw2, himm2, hrd2]
  have hfirst := run_movz fma h1 hopc1 hhw1 r
  rw [himm1, hrd1] at hfirst
  have hjoin : setField ((value.setWidth 16).setWidth 32) 16 ((value >>> 16).setWidth 16) = value := by
    apply BitVec.eq_of_getLsbD_eq
    intro i hi
    rw [getLsbD_setField (by decide)]
    by_cases hhigh : 16 ≤ i
    · rw [if_pos ⟨hhigh, hi⟩, BitVec.getLsbD_setWidth, BitVec.getLsbD_ushiftRight, Nat.add_sub_cancel' hhigh]
      simp [show i - 16 < 16 by omega]
    · rw [if_neg (by omega)]
      simp [hi, not_le.1 hhigh]
  have hsplit : run fma [ins1, ins2] r = (run fma [ins1] r).bind fun r' => run fma [ins2] r' := by
    simp only [run]
    cases decode ins1 <;> rfl
  rw [hsplit, hfirst]
  simp only [Option.bind_some, run, hdecode, step, getW_setW]
  rw [show 16 * (1 : BitVec 2).toNat = 16 from rfl]
  by_cases h31 : rd = 31
  · simp [Regs.setW, h31]
  · rw [if_neg h31, hjoin, setW_setW]

/-! ## Effects -/

theorem nop_harmless : Harmless fma 0xD503201F := ⟨.nop, by decide, fun _ => rfl⟩

/-- the register keeps nothing above its lowest word -/
theorem fpMulAdd_not_harmless {ins : BitVec 32} {o1 o0 : Bool} {rm ra rn rd : BitVec 5}
    (h : decode ins = some (.fpMulAdd o1 o0 rm ra rn rd)) : ¬ Harmless fma ins := by
  rintro ⟨i, hi, hnone⟩
  obtain rfl := Option.some.inj (h.symm.trans hi)
  have hsame := congrArg (fun r : Regs => (r.v rd).getLsbD 127) (hnone ⟨fun _ => 0, fun _ => BitVec.allOnes 128⟩)
  simp [step, Regs.setS] at hsame

end RyazhaClk.A64
