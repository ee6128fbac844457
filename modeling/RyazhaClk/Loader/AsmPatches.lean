/-
The instruction patches as instructions. Three functions rewrite moves so that they load other numbers, and two of them
also overwrite a branch with `NopIns`.

- `asmSetRd_setImm16`: a patched move is the original one with another immediate.
- `gpuPair_loads`, `mov_loads`: what a patched pair of moves loads, and a patched move.
- `nopIns_not_harmless`, `nopIns_reversed`: `NopIns` as a word is `FNMADD`, only its bytes in reverse are a no-operation.
- `asmPatch_sound_iff`: every patched move loads its value; a patch is sound exactly when it disables no branch.
-/
import RyazhaClk.Lib.A64
import RyazhaClk.Loader.SocVolt

namespace RyazhaClk.Loader

open BitFields A64 Validated Mariko

/-! ## The encoders as fields -/

theorem asmSetImm16_eq (ins : BitVec 32) (imm : BitVec 16) : asmSetImm16 ins imm = setField ins 5 imm := by
  rw [asmSetImm16, setField, show (0xFFE0001F#32) = ~~~mask 32 5 16 by decide]

theorem asmSetRd_eq (ins : BitVec 32) (rd : BitVec 8) : asmSetRd ins rd = setField ins 0 (rd.setWidth 5) := by
  have hrd : (rd &&& 0x1F#8).setWidth 32 = (rd.setWidth 5).setWidth 32 := by
    revert rd
    decide
  rw [asmSetRd, setField, hrd, show (0xFFFFFFE0#32) = ~~~mask 32 0 5 by decide, BitVec.shiftLeft_zero]

theorem asmSubsSetRn_eq (ins : BitVec 32) (rn : BitVec 8) : asmSubsSetRn ins rn = setField ins 5 (rn.setWidth 5) := by
  have hrn : rn.setWidth 32 &&& 0x1F#32 = (rn.setWidth 5).setWidth 32 := by
    revert rn
    decide
  rw [asmSubsSetRn, setField, hrn, show (0x1F#32 <<< 5) = mask 32 5 5 by decide]

theorem asmSubsSetImm12_eq (ins : BitVec 32) (imm12 : BitVec 16) :
    asmSubsSetImm12 ins imm12 = setField ins 10 (imm12.setWidth 12) := by
  have himm : imm12.setWidth 32 &&& 0xFFF#32 = (imm12.setWidth 12).setWidth 32 := by
    apply BitVec.eq_of_getLsbD_eq
    intro i hi
    have hmask : (0xFFF#32).getLsbD i = decide (i < 12) := by
      interval_cases i <;> decide
    rw [BitVec.getLsbD_and, hmask]
    by_cases h12 : i < 12 <;> simp [h12, hi]
  rw [asmSubsSetImm12, setField, himm, show (0xFFF#32 <<< 10) = mask 32 10 12 by decide]

theorem asmGetRd_eq (ins : BitVec 32) : (asmGetRd ins).setWidth 5 = getField ins 0 5 := by
  apply BitVec.eq_of_getLsbD_eq
  intro i hi
  have hmask : (0x1F#5)[i] = true := by
    rw [show (0x1F#5) = BitVec.allOnes 5 by decide, BitVec.getElem_allOnes]
  rw [asmGetRd, getField]
  simp [hi, hmask]

/-- the comparison sees every bit but those of the destination -/
theorem asmCompareNoRd_iff {ins1 ins2 : BitVec 32} : asmCompareNoRd ins1 ins2 = true ↔ SameOutside 0 5 ins2 ins1 := by
  rw [asmCompareNoRd, decide_eq_true_eq]
  constructor
  · intro h i hi
    have hbit := congrArg (fun x : BitVec 32 => x.getLsbD (i - 5)) h
    simp only [BitVec.getLsbD_ushiftRight, BitVec.getLsbD_xor, show 5 + (i - 5) = i by omega] at hbit
    simpa using hbit
  · intro h
    apply BitVec.eq_of_getLsbD_eq
    intro i hi
    rw [BitVec.getLsbD_ushiftRight, BitVec.getLsbD_xor, h (5 + i) (by omega)]
    simp

/-- the destination and the immediate are written in either order -/
theorem asmSetRd_setImm16_comm (pattern : BitVec 32) (imm : BitVec 16) (rd : BitVec 8) :
    asmSetRd (asmSetImm16 pattern imm) rd = setField (setField pattern 0 (rd.setWidth 5)) 5 imm := by
  rw [asmSetRd_eq, asmSetImm16_eq]
  apply BitVec.eq_of_getLsbD_eq
  intro i hi
  rw [getLsbD_setField (by decide), getLsbD_setField (by decide), getLsbD_setField (by decide),
    getLsbD_setField (by decide)]
  split_ifs <;> first | rfl | omega

/-- **a patched move is the original one with another immediate** -/
theorem asmSetRd_setImm16 {ins pattern : BitVec 32} (h : asmCompareNoRd ins pattern = true) (imm : BitVec 16) :
    asmSetRd (asmSetImm16 pattern imm) (asmGetRd ins) = setField ins 5 imm := by
  rw [asmSetRd_setImm16_comm, asmGetRd_eq, setField_getField (asmCompareNoRd_iff.1 h) (by decide)]

theorem asmCompareNoRd_setRd (pattern : BitVec 32) (rd : BitVec 5) :
    asmCompareNoRd (setField pattern 0 rd) pattern = true :=
  asmCompareNoRd_iff.2 (sameOutside_setField (by decide))

theorem asmCompareNoRd_comm (ins1 ins2 : BitVec 32) : asmCompareNoRd ins1 ins2 = asmCompareNoRd ins2 ins1 := by
  rw [asmCompareNoRd, asmCompareNoRd, BitVec.xor_comm]

/-! ## What the patched moves load -/

variable (fma : BitVec 32 → BitVec 32 → BitVec 32 → BitVec 32)

/-- run one after another, the words set the register to the value and change nothing else -/
def Loads (words : List (BitVec 32)) (rd : BitVec 5) (value : BitVec 32) : Prop :=
  ∀ r, run fma words r = some (r.setW rd value)

/-- the bits of an instruction but those of its immediate -/
def OpcodeKept (old new : BitVec 32) : Prop := SameOutside 5 16 old new

variable {fma}

/-- the fields behind the destination are those of the pattern, whatever the immediate -/
theorem getField_patched {ins pattern : BitVec 32} (h : asmCompareNoRd ins pattern = true) (imm : BitVec 16) {lo len : ℕ}
    (hlo : 21 ≤ lo) : getField (setField ins 5 imm) lo len = getField pattern lo len := by
  rw [getField_setField_of_disjoint (by decide) (Or.inr hlo)]
  exact getField_of_sameOutside (asmCompareNoRd_iff.1 h) (Or.inr (by omega))

theorem isMoveWide_patched {ins pattern : BitVec 32} (h : asmCompareNoRd ins pattern = true) (imm : BitVec 16) :
    isMoveWide (setField ins 5 imm) = isMoveWide pattern := by
  unfold isMoveWide
  rw [getField_patched h imm (by decide), getField_patched h imm (by decide), getField_patched h imm (by decide)]

variable (fma) in
/-- a `MOVZ` of the low half, patched -/
theorem mov_loads {ins pattern : BitVec 32} (h : asmCompareNoRd ins pattern = true) (hwide : isMoveWide pattern = true)
    (hopc : getField pattern 29 2 = 0b10) (hhw : getField pattern 21 2 = 0) (imm : BitVec 16) :
    Loads fma [setField ins 5 imm] (getField ins 0 5) (imm.setWidth 32) := by
  intro r
  have hrun := run_movz fma (show isMoveWide (setField ins 5 imm) = true by rw [isMoveWide_patched h, hwide])
    (by rw [getField_patched h imm (by decide), hopc]) (by rw [getField_patched h imm (by decide), hhw]) r
  rwa [getField_setField (by decide), getField_setField_of_disjoint (by decide) (Or.inl (by decide))] at hrun

/-- **the pair of `GpuFreqMaxAsm` loads any 32-bit value** -/
theorem gpuPair_loads {ins1 ins2 : BitVec 32} (h1 : asmCompareNoRd ins1 Pcv.gpuAsmPattern0 = true)
    (h2 : asmCompareNoRd ins2 Pcv.gpuAsmPattern1 = true) (hrd : asmGetRd ins1 = asmGetRd ins2) (value : BitVec 32) :
    Loads fma [setField ins1 5 (value.setWidth 16), setField ins2 5 ((value >>> 16).setWidth 16)] (getField ins1 0 5)
      value := by
  intro r
  have hsame : getField ins2 0 5 = getField ins1 0 5 := by
    rw [← asmGetRd_eq, ← asmGetRd_eq, hrd]
  apply run_movz_movk
  · rw [isMoveWide_patched h1]
    decide
  · rw [getField_patched h1 _ (by decide)]
    decide
  · rw [getField_patched h1 _ (by decide)]
    decide
  · rw [getField_setField (by decide)]
  · rw [getField_setField_of_disjoint (by decide) (Or.inl (by decide))]
  · rw [isMoveWide_patched h2]
    decide
  · rw [getField_patched h2 _ (by decide)]
    decide
  · rw [getField_patched h2 _ (by decide)]
    decide
  · rw [getField_setField (by decide)]
  · rw [getField_setField_of_disjoint (by decide) (Or.inl (by decide)), hsame]

/-! ## The branches -/

/-- `NopIns` as the processor reads it: `FNMADD S21, S30, S0, S0` -/
theorem decode_nopIns : decode nopIns = some (.fpMulAdd true false 0 0 30 21) := by decide

theorem nopIns_not_harmless : ¬ Harmless fma nopIns := fpMulAdd_not_harmless decode_nopIns

/-- its bytes are those of the no-operation, in reverse -/
theorem nopIns_reversed :
    Harmless fma (getField nopIns 0 8 ++ getField nopIns 8 8 ++ getField nopIns 16 8 ++ getField nopIns 24 8) := by
  rw [show getField nopIns 0 8 ++ getField nopIns 8 8 ++ getField nopIns 16 8 ++ getField nopIns 24 8 = 0xD503201F#32 by
    decide]
  exact nop_harmless

/-! ## The patches -/

inductive AsmPatch where
  | gpuFreqMax (isMariko : Bool)
  | memMtcTable
  | socVolt

variable (C : CustomizeTable) (env : PcvEnv) (newEmcList : List ℕ)

def AsmPatch.run : AsmPatch → ℤ → PatchM Unit
  | .gpuFreqMax isMariko => Pcv.gpuFreqMaxAsm isMariko C
  | .memMtcTable => Mariko.memMtcTableAsm newEmcList
  | .socVolt => socVoltAsm C env

/-- the patch overwrites a branch -/
def AsmPatch.DisablesBranch : AsmPatch → Prop
  | .gpuFreqMax _ => False
  | .memMtcTable => True
  | .socVolt => 1000 < C.marikoSocVmax

variable (fma)

/-- the move has its destination and opcode, and loads the value -/
structure MovPatched (old new value : BitVec 32) : Prop where
  loads : Loads fma [new] (getField old 0 5) value
  opcode : OpcodeKept old new

/-- both words of the GPU clock -/
structure GpuPairPatched (w w' : Words) (ptr : ℤ) (value : BitVec 32) : Prop where
  loads : Loads fma [w' ptr, w' (ptr + 1)] (getField (w ptr) 0 5) value
  opcode0 : OpcodeKept (w ptr) (w' ptr)
  opcode1 : OpcodeKept (w (ptr + 1)) (w' (ptr + 1))

/-- the move of the process id replaces another instruction -/
structure SocVoltMoves (w w' : Words) (sites : SocVoltSites) (ptr : ℤ) : Prop where
  voltage : MovPatched fma (w sites.writeVoltage) (w' sites.writeVoltage) (BitVec.ofNat 32 C.marikoSocVmax)
  processId : ∃ speedo, getSocSpeedo env ptr = .ok speedo ∧
    Loads fma [w' sites.writeProcessId] (getField (w sites.writeProcessId) 0 5) (BitVec.ofNat 32 (getSocProcessId speedo))

/-- every move that a patch writes loads its value -/
def AsmPatch.MovesLoad (ptr : ℤ) (s s' : PcvState) : AsmPatch → Prop
  | .gpuFreqMax isMariko => ∃ maxClock, dvfsMaxFreq (gpuCustomizeTable isMariko C) = .ok maxClock ∧
      GpuPairPatched fma s.words s'.words ptr (BitVec.ofNat 32 maxClock)
  | .memMtcTable => MovPatched fma (s.words (ptr - 10)) (s'.words (ptr - 10)) (BitVec.ofNat 32 newEmcList.length)
  | .socVolt => ∃ sites, (findSocVoltSites ptr).exec s = (.ok sites, s) ∧
      (1000 < C.marikoSocVmax → SocVoltMoves fma C env s.words s'.words sites ptr)

/-- every word that a patch writes over a branch has no effect -/
def AsmPatch.BranchesHarmless (ptr : ℤ) (s s' : PcvState) : AsmPatch → Prop
  | .gpuFreqMax _ => True
  | .memMtcTable => Harmless fma (s'.words (ptr - 12))
  | .socVolt => ∀ sites, (findSocVoltSites ptr).exec s = (.ok sites, s) → 1000 < C.marikoSocVmax →
      Harmless fma (s'.words sites.branchToAbort)

/-- the encoders on their own: any value in any accepted pair, and one field of a comparison -/
structure EncodersExact : Prop where
  pair : ∀ ins1 ins2 value : BitVec 32, asmCompareNoRd ins1 Pcv.gpuAsmPattern0 = true →
    asmCompareNoRd ins2 Pcv.gpuAsmPattern1 = true → asmGetRd ins1 = asmGetRd ins2 →
      Loads fma [asmSetRd (asmSetImm16 Pcv.gpuAsmPattern0 (value.setWidth 16)) (asmGetRd ins1),
        asmSetRd (asmSetImm16 Pcv.gpuAsmPattern1 ((value >>> 16).setWidth 16)) (asmGetRd ins1)] (getField ins1 0 5) value
  subsImm12 : ∀ ins imm12, getField (asmSubsSetImm12 ins imm12) 10 12 = imm12.setWidth 12 ∧
    SameOutside 10 12 ins (asmSubsSetImm12 ins imm12)
  subsRn : ∀ ins rn, getField (asmSubsSetRn ins rn) 5 5 = rn.setWidth 5 ∧ SameOutside 5 5 ins (asmSubsSetRn ins rn)

/-! ## What each call writes -/

variable {fma C env newEmcList}

theorem encodersExact : EncodersExact fma := by
  refine ⟨?_, ?_, ?_⟩
  · intro ins1 ins2 value h1 h2 hrd
    rw [asmSetRd_setImm16 h1, hrd, asmSetRd_setImm16 h2]
    exact gpuPair_loads h1 h2 hrd value
  · intro ins imm12
    rw [asmSubsSetImm12_eq]
    exact ⟨getField_setField (by decide), sameOutside_setField (by decide)⟩
  · intro ins rn
    rw [asmSubsSetRn_eq]
    exact ⟨getField_setField (by decide), sameOutside_setField (by decide)⟩

theorem exec_rUnless_ok {c : Bool} {r : LdrResult} {s s' : PcvState} (h : (rUnless c r).exec s = (.ok (), s')) :
    c = true ∧ s = s' := by
  rcases c with _ | _
  · cases h
  · exact ⟨rfl, (Prod.mk.inj h).2⟩

theorem exec_image_ok {w : Words} {s s' : PcvState} (h : image.exec s = (.ok w, s')) : s.words = w ∧ s = s' :=
  ⟨Except.ok.inj (Prod.mk.inj h).1, (Prod.mk.inj h).2⟩

/-- a 16-bit part of a clock, as it is shifted out -/
theorem setWidth_ofNat (n : ℕ) : BitVec.ofNat 16 n = (BitVec.ofNat 32 n).setWidth 16 ∧
    BitVec.ofNat 16 (n / 2 ^ 16) = (BitVec.ofNat 32 n >>> 16).setWidth 16 := by
  constructor
  · apply BitVec.eq_of_toNat_eq
    simp
  · apply BitVec.eq_of_toNat_eq
    simp only [BitVec.toNat_ofNat, BitVec.toNat_setWidth, BitVec.toNat_ushiftRight, Nat.shiftRight_eq_div_pow]
    omega

theorem gpuPair_patched {w w' : Words} {ptr : ℤ} {value : BitVec 32}
    (h0 : asmCompareNoRd (w ptr) Pcv.gpuAsmPattern0 = true) (h1 : asmCompareNoRd (w (ptr + 1)) Pcv.gpuAsmPattern1 = true)
    (hrd : asmGetRd (w ptr) = asmGetRd (w (ptr + 1))) (hword0 : w' ptr = setField (w ptr) 5 (value.setWidth 16))
    (hword1 : w' (ptr + 1) = setField (w (ptr + 1)) 5 ((value >>> 16).setWidth 16)) :
    GpuPairPatched fma w w' ptr value := by
  refine ⟨?_, ?_, ?_⟩
  · rw [hword0, hword1]
    exact gpuPair_loads h0 h1 hrd value
  · rw [hword0]
    exact sameOutside_setField (by decide)
  · rw [hword1]
    exact sameOutside_setField (by decide)

theorem gpuFreqMaxAsm_patched {isMariko : Bool} {ptr : ℤ} {s s' : PcvState}
    (h : (Pcv.gpuFreqMaxAsm isMariko C ptr).exec s = (.ok (), s')) :
    ∃ maxClock, dvfsMaxFreq (gpuCustomizeTable isMariko C) = .ok maxClock ∧
      GpuPairPatched fma s.words s'.words ptr (BitVec.ofNat 32 maxClock) := by
  unfold Pcv.gpuFreqMaxAsm at h
  obtain ⟨w, s1, himage, h⟩ := exec_bind_ok h
  obtain ⟨rfl, rfl⟩ := exec_image_ok himage
  obtain ⟨_, s2, hpatterns, h⟩ := exec_bind_ok h
  obtain ⟨hpattern, rfl⟩ := exec_rUnless_ok hpatterns
  obtain ⟨_, s3, hregisters, h⟩ := exec_bind_ok h
  obtain ⟨hrd, rfl⟩ := exec_rUnless_ok hregisters
  rw [Bool.and_eq_true] at hpattern
  rw [decide_eq_true_eq] at hrd
  rcases hclock : dvfsMaxFreq (gpuCustomizeTable isMariko C) with a | maxClock
  · rw [hclock] at h
    cases h
  · refine ⟨maxClock, rfl, ?_⟩
    rw [hclock] at h
    obtain rfl := (Prod.mk.inj h).2
    obtain ⟨hlow, hhigh⟩ := setWidth_ofNat maxClock
    apply gpuPair_patched hpattern.1 hpattern.2 hrd
    · dsimp only
      rw [Function.update_of_ne (by omega), Function.update_self, asmSetRd_setImm16 hpattern.1, hlow]
    · dsimp only
      rw [Function.update_self, hrd, asmSetRd_setImm16 hpattern.2, hhigh]

/-- a move that is patched in place -/
theorem mov_patched {old new pattern : BitVec 32} {imm : BitVec 16} (h : asmCompareNoRd old pattern = true)
    (hwide : isMoveWide pattern = true) (hopc : getField pattern 29 2 = 0b10) (hhw : getField pattern 21 2 = 0)
    (hnew : new = setField old 5 imm) : MovPatched fma old new (imm.setWidth 32) := by
  subst hnew
  exact ⟨mov_loads fma h hwide hopc hhw imm, sameOutside_setField (by decide)⟩

theorem setWidth_ofNat_small {n : ℕ} (h : n < 2 ^ 16) : (BitVec.ofNat 16 n).setWidth 32 = BitVec.ofNat 32 n := by
  apply BitVec.eq_of_toNat_eq
  simp only [BitVec.toNat_setWidth, BitVec.toNat_ofNat]
  omega

variable (fma) in
/-- the count of the tables, and the branch in front of it -/
theorem memMtcTableAsm_patched {ptr : ℤ} {s s' : PcvState} (hlength : newEmcList.length < 2 ^ 16)
    (h : (Mariko.memMtcTableAsm newEmcList ptr).exec s = (.ok (), s')) :
    MovPatched fma (s.words (ptr - 10)) (s'.words (ptr - 10)) (BitVec.ofNat 32 newEmcList.length) ∧
      s'.words (ptr - 12) = nopIns := by
  unfold Mariko.memMtcTableAsm at h
  obtain ⟨_, s0, hstart, h⟩ := exec_bind_ok h
  obtain ⟨-, rfl⟩ := exec_rUnless_ok hstart
  obtain ⟨w, s1, himage, h⟩ := exec_bind_ok h
  obtain ⟨rfl, rfl⟩ := exec_image_ok himage
  obtain ⟨_, s2, hadrp, h⟩ := exec_bind_ok h
  obtain ⟨-, rfl⟩ := exec_rUnless_ok hadrp
  obtain ⟨_, s3, hbr, h⟩ := exec_bind_ok h
  obtain ⟨-, rfl⟩ := exec_rUnless_ok hbr
  obtain ⟨_, s4, hcompare, h⟩ := exec_bind_ok h
  obtain ⟨hmov, rfl⟩ := exec_rUnless_ok hcompare
  obtain rfl := (Prod.mk.inj h).2
  dsimp only
  constructor
  · rw [Function.update_self, ← setWidth_ofNat_small hlength]
    exact mov_patched hmov (by decide) (by decide) (by decide) (asmSetRd_setImm16 hmov _)
  · rw [Function.update_of_ne (by omega), Function.update_self]

/-- the word of an instruction that is found -/
theorem exec_findInstruction_word {ptr : ℤ} {scanLimit : ℕ} {pattern : BitVec 32} {comp : BitVec 32 → BitVec 32 → Bool}
    {r : LdrResult} {s s' : PcvState} {p : ℤ}
    (h : (findInstruction ptr scanLimit pattern comp r).exec s = (.ok p, s')) : comp pattern (s.words p) = true ∧ s = s' := by
  unfold findInstruction at h
  obtain ⟨w, s1, himage, h⟩ := exec_bind_ok h
  obtain ⟨rfl, rfl⟩ := exec_image_ok himage
  rcases hscan : scanAssembly s.words ptr scanLimit pattern comp with _ | q
  · rw [hscan] at h
    cases h
  · rw [hscan] at h
    obtain rfl := Except.ok.inj (Prod.mk.inj h).1
    exact ⟨List.find?_some (p := fun p => comp pattern (s.words p)) hscan, (Prod.mk.inj h).2⟩

/-- the two moves that are patched, the branch behind them -/
structure SocVoltFound (w : Words) (sites : SocVoltSites) : Prop where
  processId : asmCompareNoRd (w sites.writeProcessId) socVoltWriteProcessIdAsm = true
  voltage : asmCompareNoRd (w sites.writeVoltage) socVoltWriteVoltageAsm = true
  before : sites.writeProcessId < sites.writeVoltage
  behind : sites.writeVoltage < sites.branchToAbort

theorem findSocVoltSites_found {compareSpeedos : ℤ} {s s' : PcvState} {sites : SocVoltSites}
    (h : (findSocVoltSites compareSpeedos).exec s = (.ok sites, s')) : SocVoltFound s.words sites := by
  have horder := findSocVoltSites_order h
  unfold findSocVoltSites at h
  obtain ⟨w, s1, himage, h⟩ := exec_bind_ok h
  obtain ⟨rfl, rfl⟩ := exec_image_ok himage
  obtain ⟨writeProcessId, s2, hfirst, h⟩ := exec_bind_ok h
  obtain ⟨hprocessId, rfl⟩ := exec_findInstruction_word hfirst
  obtain ⟨writeVoltage, s3, hsecond, h⟩ := exec_bind_ok h
  obtain ⟨hvoltage, rfl⟩ := exec_findInstruction_word hsecond
  obtain ⟨selectVoltage, s4, -, h⟩ := exec_bind_ok h
  obtain ⟨multiplier, s5, -, h⟩ := exec_bind_ok h
  obtain ⟨-, s6, -, h⟩ := exec_bind_ok h
  obtain ⟨limitValidation, s7, -, h⟩ := exec_bind_ok h
  obtain ⟨-, s8, -, h⟩ := exec_bind_ok h
  obtain rfl := Except.ok.inj (Prod.mk.inj h).1
  rw [asmCompareNoRd_comm] at hprocessId hvoltage
  refine ⟨hprocessId, hvoltage, lt_of_le_of_ne (exec_findInstruction hsecond) ?_, horder⟩
  -- one word does not have both patterns
  intro hsame
  dsimp only at hsame
  have h30 := asmCompareNoRd_iff.1 hprocessId 30 (by decide)
  rw [hsame, asmCompareNoRd_iff.1 hvoltage 30 (by decide)] at h30
  exact absurd h30 (by decide)

/-- the move of the process id, into the register of the instruction it replaces -/
theorem socVoltMov_loads (ins : BitVec 32) {imm : ℕ} (himm : imm < 2 ^ 16) :
    Loads fma [socVoltMov imm (asmGetRd ins)] (getField ins 0 5) (BitVec.ofNat 32 imm) := by
  rw [socVoltMov, asmSetRd_setImm16_comm, asmGetRd_eq, ← setWidth_ofNat_small himm]
  have hloads := mov_loads fma (asmCompareNoRd_setRd socVoltWriteVoltageAsm (getField ins 0 5)) (by decide)
    (by decide) (by decide) (BitVec.ofNat 16 imm)
  rwa [getField_setField (by decide)] at hloads

/-- the words of a call that raises the maximum -/
theorem socVoltAsm_words {ptr : ℤ} {s s' : PcvState} (h : (socVoltAsm C env ptr).exec s = (.ok (), s')) :
    ∃ sites, (findSocVoltSites ptr).exec s = (.ok sites, s) ∧ SocVoltFound s.words sites ∧
      (1000 < C.marikoSocVmax → ∃ speedo, getSocSpeedo env ptr = .ok speedo ∧
        s'.words sites.writeProcessId = socVoltMov (getSocProcessId speedo) (asmGetRd (s.words sites.writeProcessId)) ∧
        s'.words sites.writeVoltage = socVoltMov C.marikoSocVmax (asmGetRd (s.words sites.writeVoltage)) ∧
        s'.words sites.branchToAbort = nopIns) := by
  unfold socVoltAsm at h
  obtain ⟨w, s1, himage, h⟩ := exec_bind_ok h
  obtain ⟨rfl, rfl⟩ := exec_image_ok himage
  obtain ⟨sites, s2, hsites, h⟩ := exec_bind_ok h
  have hsame := ReadOnly.state_eq (x := findSocVoltSites ptr) s
  rw [hsites] at hsame
  obtain rfl : s2 = s := hsame
  have hfound := findSocVoltSites_found hsites
  refine ⟨sites, hsites, hfound, ?_⟩
  intro hraised
  rw [if_neg (by omega)] at h
  obtain ⟨-, s3, -, h⟩ := exec_bind_ok h
  obtain ⟨speedo, s4, hspeedo, h⟩ := exec_bind_ok h
  rw [exec_outcome] at hspeedo
  obtain ⟨_, s5, hprocessId, h⟩ := exec_bind_ok h
  obtain rfl := (Prod.mk.inj hprocessId).2
  obtain ⟨_, s6, hvoltage, h⟩ := exec_bind_ok h
  obtain rfl := (Prod.mk.inj hvoltage).2
  obtain rfl := (Prod.mk.inj h).2
  refine ⟨speedo, (Prod.mk.inj hspeedo).1, ?_, ?_, ?_⟩
  · dsimp only
    rw [Function.update_of_ne (hfound.before.trans hfound.behind).ne, Function.update_of_ne hfound.before.ne,
      Function.update_self]
  · dsimp only
    rw [Function.update_of_ne hfound.behind.ne, Function.update_self]
  · dsimp only
    rw [Function.update_self]

/-! ## Soundness -/

theorem length_newEmcList (hsafe : safetyCheck C = .ok ()) (hlist : mtcGenerateFreqTables C = some newEmcList) :
    newEmcList.length < 2 ^ 16 := by
  have hmax : C.marikoEmcMaxClock ≤ 3500000 := by
    have h := safetyCheck_marikoEmcMaxClock hsafe
    omega
  by_cases hm : emcClkOSLimit < C.marikoEmcMaxClock
  · obtain ⟨list, hgen, hspec⟩ := mtcGenerateFreqTables_spec C hm hmax
    obtain rfl := Option.some.inj (hlist.symm.trans hgen)
    exact hspec.length_le.trans_lt (by decide)
  · rw [mtcGenerateFreqTables, if_pos (not_lt.1 hm)] at hlist
    obtain rfl := Option.some.inj hlist
    decide

theorem getSocProcessId_lt (speedo : ℕ) : getSocProcessId speedo < 2 ^ 16 := by
  unfold getSocProcessId
  split_ifs <;> decide

variable (fma) in
theorem movesLoad {patch : AsmPatch} {ptr : ℤ} {s s' : PcvState} (hsafe : safetyCheck C = .ok ())
    (hlist : mtcGenerateFreqTables C = some newEmcList) (hexec : (patch.run C env newEmcList ptr).exec s = (.ok (), s')) :
    patch.MovesLoad fma C env newEmcList ptr s s' := by
  cases patch with
  | gpuFreqMax isMariko => exact gpuFreqMaxAsm_patched hexec
  | memMtcTable => exact (memMtcTableAsm_patched fma (length_newEmcList hsafe hlist) hexec).1
  | socVolt =>
    obtain ⟨sites, hsites, hfound, hwords⟩ := socVoltAsm_words hexec
    refine ⟨sites, hsites, ?_⟩
    intro hraised
    obtain ⟨speedo, hspeedo, hprocessId, hvoltage, -⟩ := hwords hraised
    have hvmax : C.marikoSocVmax < 2 ^ 16 := by
      have h := safetyCheck_socVmax hsafe
      unfold SocVmaxChecked at h
      omega
    refine ⟨?_, speedo, hspeedo, ?_⟩
    · rw [← setWidth_ofNat_small hvmax]
      exact mov_patched hfound.voltage (by decide) (by decide) (by decide)
        (hvoltage.trans (asmSetRd_setImm16 hfound.voltage _))
    · rw [hprocessId]
      exact socVoltMov_loads _ (getSocProcessId_lt speedo)

theorem branchesHarmless_iff {patch : AsmPatch} {ptr : ℤ} {s s' : PcvState} (hsafe : safetyCheck C = .ok ())
    (hlist : mtcGenerateFreqTables C = some newEmcList) (hexec : (patch.run C env newEmcList ptr).exec s = (.ok (), s')) :
    patch.BranchesHarmless fma C ptr s s' ↔ ¬ patch.DisablesBranch C := by
  cases patch with
  | gpuFreqMax isMariko => exact iff_of_true trivial id
  | memMtcTable =>
    have hbranch := (memMtcTableAsm_patched fma (length_newEmcList hsafe hlist) hexec).2
    refine iff_of_false ?_ (not_not.2 trivial)
    intro hharmless
    rw [AsmPatch.BranchesHarmless, hbranch] at hharmless
    exact nopIns_not_harmless hharmless
  | socVolt =>
    obtain ⟨sites, hsites, -, hwords⟩ := socVoltAsm_words hexec
    refine ⟨?_, fun hstock _ _ hraised => absurd hraised hstock⟩
    intro hharmless hraised
    obtain ⟨-, -, -, -, hbranch⟩ := hwords hraised
    have h := hharmless sites hsites hraised
    rw [hbranch] at h
    exact nopIns_not_harmless h

/-- **the moves of every patch load their values, and its branches have no effect exactly when there are none** -/
theorem asmPatch_sound_iff {patch : AsmPatch} {ptr : ℤ} {s s' : PcvState} (hsafe : safetyCheck C = .ok ())
    (hlist : mtcGenerateFreqTables C = some newEmcList) (hexec : (patch.run C env newEmcList ptr).exec s = (.ok (), s')) :
    EncodersExact fma ∧ patch.MovesLoad fma C env newEmcList ptr s s' ∧
      ((EncodersExact fma ∧ patch.MovesLoad fma C env newEmcList ptr s s' ∧ patch.BranchesHarmless fma C ptr s s') ↔
        ¬ patch.DisablesBranch C) := by
  have hmoves := movesLoad fma hsafe hlist hexec
  refine ⟨encodersExact, hmoves, ?_⟩
  rw [and_iff_right encodersExact, and_iff_right hmoves]
  exact branchesHarmless_iff hsafe hlist hexec

/-- a multiply-add that is never run -/
def addend : BitVec 32 → BitVec 32 → BitVec 32 → BitVec 32 := fun a _ _ => a

/-- the image of `SocVoltAsm`, patched for 1100 mV -/
def socPatched : PcvState := ((AsmPatch.socVolt.run evenCustomize fuseEnv evenList 0).exec socState).2

theorem socPatched_moves :
    EncodersExact addend ∧ AsmPatch.socVolt.MovesLoad addend evenCustomize fuseEnv evenList 0 socState socPatched ∧
      ((EncodersExact addend ∧ AsmPatch.socVolt.MovesLoad addend evenCustomize fuseEnv evenList 0 socState socPatched ∧
        AsmPatch.socVolt.BranchesHarmless addend evenCustomize 0 socState socPatched) ↔
          ¬ AsmPatch.socVolt.DisablesBranch evenCustomize) :=
  @asmPatch_sound_iff addend evenCustomize fuseEnv evenList .socVolt 0 socState socPatched rfl (by decide +kernel) rfl

/-- the branch to the abort is overwritten with a multiply-add -/
theorem abort_branch_not_disabled :
    ¬ ∀ (patch : AsmPatch) (C : CustomizeTable) (env : PcvEnv) (newEmcList : List ℕ) (ptr : ℤ) (s s' : PcvState),
      safetyCheck C = .ok () → mtcGenerateFreqTables C = some newEmcList →
      (patch.run C env newEmcList ptr).exec s = (.ok (), s') →
      EncodersExact addend ∧ patch.MovesLoad addend C env newEmcList ptr s s' ∧ patch.BranchesHarmless addend C ptr s s' := by
  intro hclaim
  have h := (hclaim .socVolt evenCustomize fuseEnv evenList 0 socState socPatched rfl (by decide +kernel) rfl).2.2
  exact nopIns_not_harmless (h ⟨1, 2, 6⟩ rfl (by decide))

end RyazhaClk.Loader
