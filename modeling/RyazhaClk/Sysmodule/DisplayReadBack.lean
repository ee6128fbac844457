/-
The two readings of the PLLD registers: `_setPLLDHandheldRefreshRate` multiplies in an `int`, `GetRate` in 64 bits.

- `refreshRateNow_eq_handheldRate`: the readings agree on a product that an `int` holds.
- `setPLLD_eq_none_iff`, `getRate_eq_none`: the calls that divide by zero.
- `readBackAgrees_iff`: the readings agree, without an overflow or a division by zero, exactly when the divisor is not zero and
  the product is not negative only where an `int` holds it.
- `programPlld_recognised_iff`: of the rates that are set, those from 69 Hz on are not recognised.
-/
import Mathlib.Tactic
import RyazhaClk.Sysmodule.DisplayHandheld

namespace RyazhaClk.Display

open DisplayState

/-- a value that an `int` holds -/
def IsInt (v : ℤ) : Prop := -2 ^ 31 ≤ v ∧ v < 2 ^ 31

/-- the `int` values of `(9375 * (4096 * (2 * DIVN + 1) + SDM_DIN)) / (8 * DIVM)`; in `GetRate` the product is not one of
them -/
def intValues (base : PlldBase) (misc : PlldMisc) : List ℤ :=
  [2 * base.plldDivN.toNat, 2 * base.plldDivN.toNat + 1, 4096 * (2 * base.plldDivN.toNat + 1), sdmSum base misc,
    pllProduct base misc, 8 * base.plldDivM.toNat]

/-- no call divides by zero because of the registers, and registers with a divisor and a sum that is not negative are read
alike and without an overflow -/
structure ReadBackAgrees (base : PlldBase) (misc : PlldMisc) : Prop where
  setReturns : ∀ (s : DisplayState) (nv : Nv) (rate : ℕ), s.base = base → s.misc = misc →
    s.setPLLDHandheldRefreshRate nv rate ≠ none
  getReturns : ∀ (s : DisplayState) (nv : Nv) (internal : Bool), s.base = base → s.misc = misc → s.getRate nv internal = none →
    ∃ mode, (nv.disp0.mode = some mode ∨ nv.disp1.mode = some mode) ∧ mode.rate = none
  noOverflow : 1 ≤ base.plldDivM.toNat → 0 ≤ sdmSum base misc → ∀ v ∈ intValues base misc, IsInt v
  agrees : 1 ≤ base.plldDivM.toNat → 0 ≤ sdmSum base misc → refreshRateNow base misc = handheldRate base misc

variable {base : PlldBase} {misc : PlldMisc} {s : DisplayState} {nv : Nv} {internal : Bool} {rate : ℕ}

/-! ## The readings -/

/-- the product alone can be too large for an `int` -/
theorem intValues_isInt_iff (h : 0 ≤ sdmSum base misc) :
    (∀ v ∈ intValues base misc, IsInt v) ↔ pllProduct base misc < 2 ^ 31 := by
  have hdivN := base.plldDivN.isLt
  have hdivM := base.plldDivM.isLt
  have hdin := BitVec.toInt_lt (x := misc.plldSdmDin)
  have hsum : sdmSum base misc = 4096 * (2 * base.plldDivN.toNat + 1) + misc.plldSdmDin.toInt := rfl
  have hproduct : pllProduct base misc = 9375 * sdmSum base misc := rfl
  simp only [intValues, IsInt, List.forall_mem_cons, List.not_mem_nil, false_imp_iff, implies_true, and_true]
  omega

/-- **The readings agree** on a product that an `int` holds: the quotient is too small for either width to cut it. -/
theorem refreshRateNow_eq_handheldRate (hM : 0 < base.plldDivM.toNat) (hlo : 0 ≤ pllProduct base misc)
    (hhi : pllProduct base misc < 2 ^ 31) : refreshRateNow base misc = handheldRate base misc := by
  rw [refreshRateNow_of_divM hM, handheldRate_of_divM hM]
  have hint : (pllProduct base misc).bmod (2 ^ 32) = pllProduct base misc := Int.bmod_eq_of_le_mul_two (by omega) (by omega)
  have hwide : pllProduct base misc % 2 ^ 64 = pllProduct base misc := Int.emod_eq_of_lt hlo (by omega)
  rw [hint, hwide, Int.tdiv_eq_ediv_of_nonneg hlo]
  obtain ⟨hquot, hle⟩ := ediv_mul_le_of_le hlo (by omega : (0 : ℤ) < 8) (by omega : (8 : ℤ) ≤ 8 * base.plldDivM.toNat)
  rw [Option.some_inj]
  omega

/-! ## The divisions -/

theorem value_eq_none_iff : base.value = none ↔ base.plldDivM = 0 := by
  have hzero : base.plldDivM.toNat = 0 ↔ base.plldDivM = 0 := by
    have hpos : base.plldDivM ≠ 0 ↔ 0 < base.plldDivM.toNat := divM_ne_zero_iff
    rw [Nat.pos_iff_ne_zero] at hpos
    exact (not_iff_not.1 hpos).symm
  unfold PlldBase.value quotient
  rw [← hzero]
  simp only [Option.map_eq_none_iff, ite_eq_left_iff, reduceCtorEq, imp_false, not_not]

theorem refreshRateNow_eq_none_iff : refreshRateNow base misc = none ↔ base.plldDivM = 0 := by
  unfold refreshRateNow
  simp only [ite_eq_left_iff, reduceCtorEq, imp_false, not_not]

theorem handheldRate_eq_none_iff : handheldRate base misc = none ↔ base.plldDivM = 0 := by
  unfold handheldRate
  simp only [ite_eq_left_iff, reduceCtorEq, imp_false, not_not]

/-- a call that gets past the checks on the panel divides by the divisor as it is -/
theorem setPLLD_eq_none_iff : s.setPLLDHandheldRefreshRate nv rate = none ↔
    s.base.plldDivM = 0 ∧ s.gConfig.clkVirtAddr ≠ 0 ∧ nv.disp0.opens = true ∧ nv.disp0.panelData = 0x75c := by
  unfold setPLLDHandheldRefreshRate
  by_cases hpanel : s.gConfig.clkVirtAddr = 0 ∨ nv.disp0.opens = false ∨ nv.disp0.panelData ≠ 0x75c
  · rw [if_pos hpanel]
    refine iff_of_false (by simp) ?_
    rintro ⟨-, hmapped, hopens, hdata⟩
    rcases hpanel with h | h | h
    · exact hmapped h
    · exact absurd (h.symm.trans hopens) (by decide)
    · exact h hdata
  · rw [if_neg hpanel]
    push Not at hpanel
    obtain ⟨hmapped, hopens, hdata⟩ := hpanel
    replace hopens := eq_true_of_ne_false hopens
    by_cases hzero : s.base.plldDivM = 0
    · rw [value_eq_none_iff.2 hzero]
      exact iff_of_true rfl ⟨hzero, hmapped, hopens, hdata⟩
    · refine iff_of_false ?_ fun h => hzero h.1
      obtain ⟨value, hvalue⟩ := Option.ne_none_iff_exists'.1 (mt value_eq_none_iff.1 hzero)
      have hnone : refreshRateNow s.base s.misc ≠ none := mt refreshRateNow_eq_none_iff.1 hzero
      obtain ⟨now, hnow⟩ := Option.ne_none_iff_exists'.1 hnone
      rw [hvalue, Option.bind_some, hnow]
      split_ifs <;> simp

theorem dockedModeRate_eq_none (h : s.dockedModeRate nv = none) : ∃ mode, nv.disp1.mode = some mode ∧ mode.rate = none := by
  unfold dockedModeRate at h
  split_ifs at h with hopens
  cases hmode : nv.disp1.mode with
  | none => simp [hmode] at h
  | some mode =>
    rw [hmode] at h
    dsimp only at h
    split_ifs at h with hclock
    · exact ⟨mode, rfl, Option.map_eq_none_iff.1 h⟩
    · exact ⟨mode, rfl, Option.map_eq_none_iff.1 h⟩

theorem getDockedRate_eq_none (h : s.getDockedRate nv internal = none) :
    ∃ mode, nv.disp1.mode = some mode ∧ mode.rate = none := by
  unfold getDockedRate at h
  by_cases hlite : s.gConfig.isLite = true
  · rw [if_pos hlite] at h
    cases h
  rw [if_neg hlite] at h
  dsimp only at h
  by_cases hlink : s.gCanChangeRefreshRateDocked = false ∧ (nv.disp1.opens = false ∨ nv.linkAnswers = false)
  · rw [if_pos hlink] at h
    cases h
  · rw [if_neg hlink] at h
    cases internal with
    | true => cases h
    | false => exact dockedModeRate_eq_none h

theorem getRetroRate_eq_none (hzero : s.base.plldDivM ≠ 0) (h : s.getRetroRate nv = none) :
    ∃ mode, nv.disp0.mode = some mode ∧ mode.rate = none := by
  obtain ⟨value, hvalue⟩ := Option.ne_none_iff_exists'.1 (mt value_eq_none_iff.1 hzero)
  unfold getRetroRate at h
  rw [hvalue, Option.bind_some] at h
  dsimp only at h
  split_ifs at h with hoff hopens
  cases hmode : nv.disp0.mode with
  | none => simp [hmode] at h
  | some mode =>
    rw [hmode] at h
    exact ⟨mode, rfl, Option.map_eq_none_iff.1 h⟩

/-- **`GetRate` with a divisor** fails on the totals of a mode alone. -/
theorem getRate_eq_none (hzero : s.base.plldDivM ≠ 0) (h : s.getRate nv internal = none) :
    ∃ mode, (nv.disp0.mode = some mode ∨ nv.disp1.mode = some mode) ∧ mode.rate = none := by
  unfold getRate at h
  split_ifs at h with hinit hretro hspoofed
  · obtain ⟨mode, hmode, hrate⟩ := getRetroRate_eq_none hzero h
    exact ⟨mode, Or.inl hmode, hrate⟩
  · obtain ⟨value, hvalue⟩ := Option.ne_none_iff_exists'.1 (mt value_eq_none_iff.1 hzero)
    rw [hvalue, Option.bind_some] at h
    dsimp only at h
    split_ifs at h with hdocked hpanel
    · obtain ⟨mode, hmode, hrate⟩ := getDockedRate_eq_none h
      exact ⟨mode, Or.inr hmode, hrate⟩
    · exact absurd (handheldRate_eq_none_iff.1 (Option.map_eq_none_iff.1 h)) hzero

/-! ## Agreement -/

/-- **The two readings of the registers.** -/
theorem readBackAgrees_iff : ReadBackAgrees base misc ↔
    base.plldDivM ≠ 0 ∧ (sdmSum base misc < 0 ∨ 9375 * sdmSum base misc < 2 ^ 31) := by
  constructor
  · intro h
    have hzero : base.plldDivM ≠ 0 := by
      intro hzero
      refine h.setReturns { sampleDisplay with base := base, misc := misc } handheldNv 60 rfl rfl ?_
      exact setPLLD_eq_none_iff.2 ⟨hzero, Nat.succ_ne_zero _, rfl, rfl⟩
    refine ⟨hzero, ?_⟩
    rcases Int.lt_or_le (sdmSum base misc) 0 with hsign | hsign
    · exact Or.inl hsign
    · exact Or.inr ((intValues_isInt_iff hsign).1 (h.noOverflow (divM_ne_zero_iff.1 hzero) hsign))
  · rintro ⟨hzero, hsum⟩
    have hfits : 0 ≤ sdmSum base misc → pllProduct base misc < 2 ^ 31 := fun hsign => hsum.resolve_left (by omega)
    constructor
    · rintro s nv rate rfl - hnone
      exact hzero (setPLLD_eq_none_iff.1 hnone).1
    · rintro s nv internal rfl - hnone
      exact getRate_eq_none hzero hnone
    · intro _ hsign
      exact (intValues_isInt_iff hsign).2 (hfits hsign)
    · intro hM hsign
      have hlo : 0 ≤ pllProduct base misc := Int.mul_nonneg (by decide) hsign
      exact refreshRateNow_eq_handheldRate hM hlo (hfits hsign)

/-- **The rates that are set.** Of those in the range, the ones from 69 Hz on have a product that no `int` holds, and a second
request for them writes the registers again. -/
theorem programPlld_recognised_iff (hlo : 40 ≤ rate) (hhi : rate ≤ 80) :
    refreshRateNow (programPlld rate).1 (programPlld rate).2 = some rate ↔ rate < 69 := by
  have hproduct := programPlld_pllProduct hlo hhi
  have hdivM := programPlld_divM rate
  have hwide : (31200000 * rate : ℤ) % 2 ^ 32 = 31200000 * rate := Int.emod_eq_of_lt (by omega) (by omega)
  rw [refreshRateNow_eq_some_iff (by rw [hdivM]; decide) hlo hhi, hproduct, hwide, hdivM]
  constructor
  · rintro ⟨-, hfits, -⟩
    omega
  · intro h
    exact ⟨rfl, by omega, by omega⟩

/-- the registers for 70 Hz are taken for 1033 Hz -/
theorem seventy_overflows : refreshRateNow (programPlld 70).1 (programPlld 70).2 = some 1033 ∧
    handheldRate (programPlld 70).1 (programPlld 70).2 = some 70 ∧ ¬ ReadBackAgrees (programPlld 70).1 (programPlld 70).2 := by
  have hnow : refreshRateNow (programPlld 70).1 (programPlld 70).2 = some 1033 := by decide
  have hrate : handheldRate (programPlld 70).1 (programPlld 70).2 = some 70 := by decide
  refine ⟨hnow, hrate, fun h => ?_⟩
  have hsame := h.agrees (by decide) (by decide)
  rw [hnow, hrate] at hsame
  exact absurd hsame (by decide)

end RyazhaClk.Display
