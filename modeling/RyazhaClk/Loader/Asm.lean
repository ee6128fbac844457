/-
The AArch64 words the patches read and rewrite: the immediate and the destination register of a wide move, and the
comparisons that recognise an instruction by everything but its operands.

- `asmGetImm16_patch`: the immediate read back from a move is the one written into it, whatever register is set after.
-/
import Mathlib.Tactic

namespace RyazhaClk.Loader

def nopIns : BitVec 32 := 0x1f2003d5

def asmCompareNoRd (ins1 ins2 : BitVec 32) : Bool := (ins1 ^^^ ins2) >>> 5 = 0

def asmGetRd (ins : BitVec 32) : BitVec 8 := (ins &&& 0x1F#32).setWidth 8

def asmSetRd (ins : BitVec 32) (rd : BitVec 8) : BitVec 32 :=
  (ins &&& 0xFFFFFFE0#32) ||| (rd &&& 0x1F#8).setWidth 32

def asmSetImm16 (ins : BitVec 32) (imm : BitVec 16) : BitVec 32 :=
  (ins &&& 0xFFE0001F#32) ||| (imm.setWidth 32 <<< 5)

def asmGetImm16 (ins : BitVec 32) : BitVec 16 := ((ins >>> 5) &&& 0xFFFF#32).setWidth 16

/-- the two words agree outside the cleared bits -/
def asmCompareMasked (mask ins1 ins2 : BitVec 32) : Bool := ((ins1 &&& mask) ^^^ (ins2 &&& mask)) = 0

def asmCompareBrNoRd : BitVec 32 → BitVec 32 → Bool :=
  asmCompareMasked (~~~(0x1F#32 <<< 5))

def asmCompareAddNoImm12 : BitVec 32 → BitVec 32 → Bool :=
  asmCompareMasked (~~~(0xFFF#32 <<< 10))

def asmCompareAdrpNoImm : BitVec 32 → BitVec 32 → Bool :=
  asmCompareMasked (~~~((0x3#32 <<< 29) ||| (0x7FFFF#32 <<< 5)))

def asmCompareCselNoReg : BitVec 32 → BitVec 32 → Bool :=
  asmCompareMasked (~~~(0x3FF#32 ||| (0x1F#32 <<< 16)))

def asmCompareMullNoReg : BitVec 32 → BitVec 32 → Bool :=
  asmCompareMasked (~~~(0x3FF#32 ||| (0x1F#32 <<< 16)))

def asmGetMullRn (ins : BitVec 32) : BitVec 8 := ((ins &&& (0x1F#32 <<< 5)) >>> 5).setWidth 8

def asmGetMullRm (ins : BitVec 32) : BitVec 8 := ((ins &&& (0x1F#32 <<< 16)) >>> 16).setWidth 8

def asmSubsSetRn (ins : BitVec 32) (rn : BitVec 8) : BitVec 32 :=
  (ins &&& ~~~(0x1F#32 <<< 5)) ||| ((rn.setWidth 32 &&& 0x1F#32) <<< 5)

def asmSubsSetImm12 (ins : BitVec 32) (imm12 : BitVec 16) : BitVec 32 :=
  (ins &&& ~~~(0xFFF#32 <<< 10)) ||| ((imm12.setWidth 32 &&& 0xFFF#32) <<< 10)

def asmSubsCompareNoReg (ins1 ins2 : BitVec 32) : Bool := (ins1 ^^^ ins2) >>> 10 = 0

def asmCompareBrConNoImm19 : BitVec 32 → BitVec 32 → Bool :=
  asmCompareMasked (~~~(0x7FFFF#32 <<< 5))

/-- setting the register leaves the immediate alone -/
theorem asmGetImm16_patch (ins : BitVec 32) (imm : BitVec 16) (rd : BitVec 8) :
    asmGetImm16 (asmSetRd (asmSetImm16 ins imm) rd) = imm := by
  apply BitVec.eq_of_getLsbD_eq
  intro i hi
  have hclear : (0xFFE0001F#32).getLsbD (5 + i) = false := by
    interval_cases i <;> decide
  have hkeep : (0xFFFFFFE0#32).getLsbD (5 + i) = true := by
    interval_cases i <;> decide
  have hlow : (0xFFFF#32).getLsbD i = true := by
    interval_cases i <;> decide
  have hrd : (0x1F#8).getLsbD (5 + i) = false := by
    interval_cases i <;> decide
  simp only [asmGetImm16, asmSetRd, asmSetImm16, BitVec.getLsbD_setWidth, BitVec.getLsbD_and, BitVec.getLsbD_or,
    BitVec.getLsbD_ushiftRight, BitVec.getLsbD_shiftLeft, hclear, hkeep, hlow, hrd]
  have h32 : 5 + i < 32 := by omega
  simp only [hi, h32, decide_true, decide_false, Nat.add_sub_cancel_left, Bool.and_false, Bool.and_true, Bool.true_and,
    Bool.or_false, Bool.false_or, show ¬ 5 + i < 5 by omega, show i < 32 by omega, Bool.not_false]

end RyazhaClk.Loader
