/-
The GPU clock behind PCV's back (`gm20b.cpp`) and its reading (`_clock_update_freqs` in `t210.c`). Both use the dividers of
one register, COEFF: the clock is `osc * DIVN / (DIVM * DIVP) / 2`. The registers hold what is written to them.

- `setClock_eq`: a clock that the dividers reach is set through its own DIVN.
- `gpuPllgSlide_coeff`: of COEFF only DIVN is written.
- `gpuFreq_eq_iff`: the reading is exact up to DIVN 111; from 112 on its 32-bit product wraps.
- `readsBack_iff`: a clock is read back, and a tick finds it as it was set, exactly when the product fits.
- `middle_overwritten_iff`: the same for a middle frequency set through the board, as the next tick sees it.
-/
import Mathlib.Tactic
import RyazhaClk.Lib.BitFields
import RyazhaClk.Sysmodule.ClockManager

namespace RyazhaClk.Gm20b

open BitFields

/-! ## Registers -/

/-- the registers of the PLL that are written -/
structure GpcPll where
  coeff : BitVec 32
  cfg2 : BitVec 32
  cfg3 : BitVec 32
  ndivSlowdown : BitVec 32
deriving DecidableEq

/-- what `_gpu_mask` leaves in a register -/
def gpuMask (tmp mask val : BitVec 32) : BitVec 32 := (tmp &&& ~~~mask) ||| (val &&& mask)

def cfg2SdmDinMask : BitVec 32 := 0x000000FF

def cfg2SdmDinNewMask : BitVec 32 := 0x007FFF00

def cfg2StepaMask : BitVec 32 := 0xFF000000

def cfg3StepbMask : BitVec 32 := 0x00FF0000

def slowdownUsingPll : BitVec 32 := 1 <<< 22

def slowdownEnDynramp : BitVec 32 := 1 <<< 23

def rampTimeoutUs : ℕ := 500

def oscKhz : ℕ := 38400

namespace GpcPll

def divM (pll : GpcPll) : ℕ := (getField pll.coeff 0 8).toNat

def divN (pll : GpcPll) : ℕ := (getField pll.coeff 8 8).toNat

def divP (pll : GpcPll) : ℕ := (getField pll.coeff 16 6).toNat

def clkSetupSlide (pll : GpcPll) : GpcPll :=
  { pll with
    cfg2 := gpuMask pll.cfg2 cfg2StepaMask (0x04 <<< 24)
    cfg3 := gpuMask pll.cfg3 cfg3StepbMask (0x05 <<< 16) }

/-- the new divider is written and the ramp started -/
def startRamp (pll : GpcPll) (newDivN : ℕ) : GpcPll :=
  { pll with
    coeff := setField pll.coeff 8 (BitVec.ofNat 8 newDivN)
    cfg2 := gpuMask pll.cfg2 cfg2SdmDinNewMask 0
    ndivSlowdown := gpuMask (gpuMask pll.ndivSlowdown slowdownUsingPll slowdownUsingPll) slowdownEnDynramp slowdownEnDynramp }

/-- the end of the ramp, whether it was seen or not -/
def endRamp (pll : GpcPll) (success : Bool) : GpcPll :=
  { pll with
    cfg2 := if success then gpuMask pll.cfg2 cfg2SdmDinMask 0 else pll.cfg2
    ndivSlowdown := gpuMask pll.ndivSlowdown (slowdownUsingPll ||| slowdownEnDynramp) 0 }

/-- `poll` is whether a reading of `NDIV_SLOWDOWN_DBG` finds the ramp done, one for each microsecond -/
def gpuPllgSlide (pll : GpcPll) (poll : ℕ → Bool) (newDivN : ℕ) : Bool × GpcPll :=
  if newDivN = pll.divN then (true, pll)
  else
    let success := (List.range rampTimeoutUs).any poll
    (success, ((pll.clkSetupSlide.startRamp newDivN).endRamp success))

def setClock (pll : GpcPll) (poll : ℕ → Bool) (khz : UInt32) : Bool × GpcPll :=
  if pll.divM = 0 ∨ pll.divP = 0 then (false, pll)
  -- the product fits in the 64 bits it is computed in
  else pll.gpuPllgSlide poll (min 255 (max 8 (khz.toNat * pll.divM * pll.divP * 2 / oscKhz)))

/-- `g_gpu_freq` as `_clock_update_freqs` computes it, in 32 bits -/
def gpuFreq (pll : GpcPll) : Option ℕ :=
  if pll.divM * pll.divP = 0 then none
  else some (oscKhz * 1000 * pll.divN % 2 ^ 32 / (pll.divM * pll.divP) / 2)

/-- the dividers reach a clock through the value `q` of DIVN -/
structure Reaches (pll : GpcPll) (khz : UInt32) (q : ℕ) : Prop where
  divM : 1 ≤ pll.divM
  divP : 1 ≤ pll.divP
  quotient : khz.toNat * 2 * pll.divM * pll.divP = oscKhz * q
  minN : 8 ≤ q
  maxN : q ≤ 255

/-- a clock that was set is read back, only DIVN was written, setting it again does nothing, and a tick that reads the PLL and
has stored that clock does not find it overwritten -/
def ReadsBack (pll : GpcPll) (khz : UInt32) : Prop :=
  ∀ poll pll', pll.setClock poll khz = (true, pll') →
    pll'.gpuFreq = some (khz.toNat * 1000) ∧
    SameOutside 8 8 pll.coeff pll'.coeff ∧
    (∀ poll', pll'.setClock poll' khz = (true, pll')) ∧
    ∀ P s f, pll'.gpuFreq = some s.env.realGpuHz → tickFront P s = some f → f.sys.ctx.freqs .gpu = khz.toNat * 1000 →
      f.gpuOverwritten = false

/-! ## Setting -/

variable {pll pll' : GpcPll} {poll : ℕ → Bool} {khz : UInt32} {n q : ℕ}

/-- **Of COEFF only DIVN is written.** -/
theorem gpuPllgSlide_coeff (pll : GpcPll) (poll : ℕ → Bool) (n : ℕ) :
    (pll.gpuPllgSlide poll n).2.coeff = setField pll.coeff 8 (BitVec.ofNat 8 n) := by
  unfold gpuPllgSlide
  split_ifs with hcur
  · have hfield : BitVec.ofNat 8 n = getField pll.coeff 8 8 := by
      rw [hcur, divN, BitVec.ofNat_toNat, BitVec.setWidth_eq]
    rw [hfield, setField_getField (fun _ _ => rfl) (by decide)]
  · rfl

theorem gpuPllgSlide_divM (pll : GpcPll) (poll : ℕ → Bool) (n : ℕ) : (pll.gpuPllgSlide poll n).2.divM = pll.divM := by
  rw [divM, gpuPllgSlide_coeff, getField_setField_of_disjoint (by decide) (Or.inl (by decide)), divM]

theorem gpuPllgSlide_divP (pll : GpcPll) (poll : ℕ → Bool) (n : ℕ) : (pll.gpuPllgSlide poll n).2.divP = pll.divP := by
  rw [divP, gpuPllgSlide_coeff, getField_setField_of_disjoint (by decide) (Or.inr (by decide)), divP]

theorem gpuPllgSlide_divN (hn : n ≤ 255) : (pll.gpuPllgSlide poll n).2.divN = n := by
  rw [divN, gpuPllgSlide_coeff, getField_setField (by decide), BitVec.toNat_ofNat]
  exact Nat.mod_eq_of_lt (by omega)

/-- a ramp that is done at once succeeds -/
theorem gpuPllgSlide_done (pll : GpcPll) (n : ℕ) : (pll.gpuPllgSlide (fun _ => true) n).1 = true := by
  have hdone : (List.range rampTimeoutUs).any (fun _ => true) = true :=
    List.any_eq_true.2 ⟨0, List.mem_range.2 (by decide), rfl⟩
  rw [gpuPllgSlide]
  by_cases hcur : n = pll.divN
  · rw [if_pos hcur]
  · rw [if_neg hcur, hdone]

theorem eq_of_fst_eq {r : Bool × GpcPll} (h : r.1 = true) : r = (true, r.2) := Prod.ext h rfl

theorem gpuPllgSlide_of_eq (h : n = pll.divN) : pll.gpuPllgSlide poll n = (true, pll) := if_pos h

/-- **A clock the dividers reach** is set through its own DIVN: neither bound is met. -/
theorem Reaches.setClock_eq (h : pll.Reaches khz q) : pll.setClock poll khz = pll.gpuPllgSlide poll q := by
  have hproduct : khz.toNat * pll.divM * pll.divP * 2 / oscKhz = q := by
    rw [show khz.toNat * pll.divM * pll.divP * 2 = khz.toNat * 2 * pll.divM * pll.divP by ring, h.quotient]
    exact Nat.mul_div_cancel_left q (by decide)
  have hclamp : min 255 (max 8 q) = q := by
    have hmin := h.minN
    have hmax := h.maxN
    omega
  have hdivM := h.divM
  have hdivP := h.divP
  rw [setClock, if_neg (by omega), hproduct, hclamp]

/-- the dividers reach the same clocks behind a change of DIVN -/
theorem Reaches.slide (h : pll.Reaches khz q) : (pll.gpuPllgSlide poll q).2.Reaches khz q := by
  constructor
  · rw [gpuPllgSlide_divM]
    exact h.divM
  · rw [gpuPllgSlide_divP]
    exact h.divP
  · rw [gpuPllgSlide_divM, gpuPllgSlide_divP]
    exact h.quotient
  · exact h.minN
  · exact h.maxN

/-- **Setting a clock again does nothing.** -/
theorem Reaches.setClock_again (h : pll.Reaches khz q) (hq : pll.divN = q) : pll.setClock poll khz = (true, pll) := by
  rw [h.setClock_eq, gpuPllgSlide_of_eq hq.symm]

/-! ## Reading -/

/-- the bits of the dividers bound their product -/
theorem divM_mul_divP_lt (pll : GpcPll) : pll.divM * pll.divP < 2 ^ 14 := by
  have hdivM : pll.divM < 2 ^ 8 := (getField pll.coeff 0 8).isLt
  have hdivP : pll.divP < 2 ^ 6 := (getField pll.coeff 16 6).isLt
  calc pll.divM * pll.divP < 2 ^ 8 * 2 ^ 6 := Nat.mul_lt_mul'' hdivM hdivP
    _ = 2 ^ 14 := by decide

/-- **The reading is exact** while the product fits in 32 bits; a product that wraps loses far more than the dividers. -/
theorem gpuFreq_eq_iff (h : pll.Reaches khz q) (hq : pll.divN = q) : pll.gpuFreq = some (khz.toNat * 1000) ↔ q ≤ 111 := by
  have hpos : 0 < pll.divM * pll.divP := Nat.mul_pos h.divM h.divP
  have hproduct : oscKhz * 1000 * q = pll.divM * pll.divP * (2 * (khz.toNat * 1000)) := by
    calc oscKhz * 1000 * q = khz.toNat * 2 * pll.divM * pll.divP * 1000 := by rw [h.quotient]; ring
      _ = pll.divM * pll.divP * (2 * (khz.toNat * 1000)) := by ring
  have hbound := divM_mul_divP_lt pll
  have hmax := h.maxN
  rw [gpuFreq, if_neg hpos.ne', hq, Option.some_inj]
  constructor
  · intro hread
    by_contra hwrap
    have hlow : pll.divM * pll.divP * (2 * (khz.toNat * 1000)) ≤ oscKhz * 1000 * q % 2 ^ 32 := by
      have htwice : 2 * (khz.toNat * 1000) ≤ oscKhz * 1000 * q % 2 ^ 32 / (pll.divM * pll.divP) := by omega
      rw [Nat.mul_comm]
      exact (Nat.le_div_iff_mul_le hpos).1 htwice
    unfold oscKhz at hproduct hlow
    omega
  · intro hsmall
    have hfits : oscKhz * 1000 * q % 2 ^ 32 = oscKhz * 1000 * q := Nat.mod_eq_of_lt (by unfold oscKhz; omega)
    rw [hfits, hproduct, Nat.mul_div_cancel_left _ hpos]
    omega

/-- the bound on DIVN, from the clock and the other dividers -/
theorem Reaches.fits_iff (h : pll.Reaches khz q) : 2000 * khz.toNat * pll.divM * pll.divP < 2 ^ 32 ↔ q ≤ 111 := by
  have hproduct : 2000 * khz.toNat * pll.divM * pll.divP = oscKhz * 1000 * q := by
    calc 2000 * khz.toNat * pll.divM * pll.divP = khz.toNat * 2 * pll.divM * pll.divP * 1000 := by ring
      _ = oscKhz * 1000 * q := by rw [h.quotient]; ring
  rw [hproduct]
  unfold oscKhz
  omega

/-! ## Reading back -/

theorem gpuOverwritten_eq_false {P : Platform} {s : Sys} {f : TickFront} (h : tickFront P s = some f)
    (hsame : s.env.realGpuHz = f.sys.ctx.freqs .gpu) : f.gpuOverwritten = false := by
  obtain ⟨b₀, b, -, -, rfl⟩ := tickFront_some h
  have hstored : s.env.realGpuHz = storedFreq { s with board := b } .gpu := hsame
  simp [frontAt, ← hstored]

/-- **Setting and reading back**, for all dividers and every clock they reach. -/
theorem readsBack_iff (h : pll.Reaches khz q) : pll.ReadsBack khz ↔ 2000 * khz.toNat * pll.divM * pll.divP < 2 ^ 32 := by
  have hread : ∀ poll, (pll.gpuPllgSlide poll q).2.gpuFreq = some (khz.toNat * 1000) ↔ q ≤ 111 := fun poll =>
    gpuFreq_eq_iff h.slide (gpuPllgSlide_divN h.maxN)
  rw [h.fits_iff]
  constructor
  · intro hback
    have hset : pll.setClock (fun _ => true) khz = (true, (pll.gpuPllgSlide (fun _ => true) q).2) := by
      rw [h.setClock_eq]
      exact eq_of_fst_eq (gpuPllgSlide_done pll q)
    exact (hread _).1 (hback _ _ hset).1
  · intro hsmall poll pll' hset
    obtain rfl : (pll.gpuPllgSlide poll q).2 = pll' := by rw [← h.setClock_eq, hset]
    have hfreq := (hread poll).2 hsmall
    refine ⟨hfreq, ?_, fun poll' => h.slide.setClock_again (gpuPllgSlide_divN h.maxN), ?_⟩
    · rw [gpuPllgSlide_coeff]
      exact sameOutside_setField (by decide)
    · intro P s f hreal hfront hstored
      have hsame : khz.toNat * 1000 = s.env.realGpuHz := Option.some.inj (hfreq.symm.trans hreal)
      exact gpuOverwritten_eq_false hfront (hsame.symm.trans hstored.symm)

/-! ## Middle frequencies -/

/-- **The tick behind a middle frequency.** A board set to one stores it, whatever the PLL reads; the tick finds it
overwritten, unless something else has changed, exactly when the product wraps. -/
theorem middle_overwritten_iff {P : Platform} {s : Sys} {f : TickFront} {b : Board} {hz : ℕ}
    (hmiddle : Hw.useGm20b .mariko hz = true) (hboard : s.board = b.setHz P .gpu hz) (hcool : shouldThrottle P s = false)
    (htitle : titleMoved s = false) (hfront : tickFront P s = some f) (h : pll.Reaches (UInt32.ofNat (hz / 1000)) q)
    (hset : pll.setClock poll (UInt32.ofNat (hz / 1000)) = (true, pll')) (hreal : pll'.gpuFreq = some s.env.realGpuHz) :
    f.gpuOverwritten = true ↔ f.contextChanged = false ∧ f.reloaded = false ∧ 112 ≤ q := by
  obtain ⟨b₀, b₁, hb₀, hb₁, rfl⟩ := tickFront_some hfront
  obtain rfl : b₀ = s.board := by simpa [boardAfterSafety, hcool] using hb₀.symm
  obtain rfl : b₁ = s.board := by simpa [boardAfterTitle, htitle] using hb₁.symm
  obtain rfl : (pll.gpuPllgSlide poll q).2 = pll' := by rw [← h.setClock_eq, hset]
  obtain ⟨-, hgrid, hodd, hbelow⟩ := of_decide_eq_true hmiddle
  have hkhz : (UInt32.ofNat (hz / 1000)).toNat * 1000 = hz := by
    rw [UInt32.toNat_ofNat_of_lt' (by rw [UInt32.size]; omega)]
    omega
  have hview : s.board.getHz s.env .gpu = hz := by
    rw [hboard]
    exact Board.setHz_gpu_view hz
  have hstored : storedFreq s .gpu = hz := by
    rw [storedFreq, hview, if_pos (by rintro rfl; exact hodd (by decide))]
  have hdivN : (pll.gpuPllgSlide poll q).2.divN = q := gpuPllgSlide_divN h.maxN
  have hread := gpuFreq_eq_iff h.slide hdivN
  rw [hreal, hkhz, Option.some_inj] at hread
  have hdef : (frontAt P s s.board).gpuOverwritten = (!(frontAt P s s.board).contextChanged &&
      !(frontAt P s s.board).reloaded && s.env.realGpuHz != storedFreq s .gpu) := rfl
  have hmisread : s.env.realGpuHz ≠ hz ↔ 112 ≤ q := by
    rw [Ne, hread]
    omega
  rw [hdef, hstored]
  simp only [Bool.and_eq_true, Bool.not_eq_true', bne_iff_ne, hmisread, and_assoc]

/-! ## Witnesses -/

/-- the PLL at 614.4 MHz, with the reference and the output divided by 2 -/
def dividedPll : GpcPll := ⟨0x00028002, 0, 0, 0⟩

theorem dividedPll_reaches : dividedPll.Reaches 460800 96 := by
  constructor <;> decide

/-- a clock that is read back -/
theorem dividedPll_readsBack : dividedPll.ReadsBack 460800 :=
  (readsBack_iff dividedPll_reaches).2 (by decide)

/-- **576 MHz is read as 39 MHz** through the same dividers. -/
theorem middle_misread : dividedPll.Reaches 576000 120 ∧ Hw.useGm20b .mariko 576000000 = true ∧
    (dividedPll.setClock (fun _ => true) 576000).1 = true ∧
    (dividedPll.setClock (fun _ => true) 576000).2.gpuFreq = some 39129088 ∧ ¬ dividedPll.ReadsBack 576000 := by
  have hreach : dividedPll.Reaches 576000 120 := by constructor <;> decide
  have hread : (dividedPll.setClock (fun _ => true) 576000).2.gpuFreq = some 39129088 := by
    rw [hreach.setClock_eq, gpuFreq, gpuPllgSlide_divM, gpuPllgSlide_divP, gpuPllgSlide_divN (by decide)]
    decide
  have hdone : (dividedPll.setClock (fun _ => true) 576000).1 = true := by
    rw [hreach.setClock_eq]
    exact gpuPllgSlide_done dividedPll 120
  refine ⟨hreach, by decide, hdone, hread, fun h => ?_⟩
  have hback := (h _ _ (eq_of_fst_eq hdone)).1
  rw [hread] at hback
  exact absurd hback (by decide)

end GpcPll

end RyazhaClk.Gm20b
