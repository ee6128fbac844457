/-
The charge current limit of the Bq24193 (`i2cDrv.cpp`): a request in mA becomes six bits of steps of 64 mA from 512 mA
on and a bit for the 20 percent mode, and is decoded by another formula. The offset that is subtracted before the shift
is one step below the range, so the limit is rounded up to the next step above the request rounded to hundreds.

- `decoded_toNat`: the decoded limit in closed form, where the subtraction does not wrap.
- `charge_limit`: for requests of 100 to 448 mA and from 500 mA on nothing wraps, the limit is monotone and at most one
  step above the request.
- `limit_overshoots`: 1100 mA are programmed as 1152 mA.
- `limit_readBack`: a limit that was set is read back as it decodes.
-/
import Mathlib.Tactic
import RyazhaClk.Sysmodule.I2cBus

namespace RyazhaClk.I2c

/-! ## The codec -/

def MA_RANGE_MIN : UInt32 := 512

def MA_RANGE_MAX : UInt32 := 4544

/-- the request after the capping -/
def cappedMa (ma : UInt32) : UInt32 := if MA_RANGE_MAX < ma then MA_RANGE_MAX else ma

/-- `pct20`: a fifth of the limit is used -/
def pct20 (ma : UInt32) : Bool := cappedMa ma ≤ MA_RANGE_MIN - 64

/-- the request that the offset is subtracted from: five times as large in the 20 percent mode, rounded to 100 -/
def roundedMa (ma : UInt32) : UInt32 :=
  let ma' := if pct20 ma then cappedMa ma * 5 else cappedMa ma
  ma' - ma' % 100

/-- `I2c_Bq24193_Convert_mA_Raw` -/
def convert_mA_Raw (ma : UInt32) : UInt8 :=
  let raw : UInt8 := if pct20 ma then 0x1 else 0
  let ma := roundedMa ma - (MA_RANGE_MIN - 64)
  raw ||| ((ma >>> 6) <<< 2).toUInt8

/-- `I2c_Bq24193_Convert_Raw_mA` -/
def convert_Raw_mA (raw : UInt8) : UInt32 :=
  let ma := ((raw >>> 2).toUInt32 <<< 6) + MA_RANGE_MIN
  if raw &&& 1 ≠ 0 then ma * 20 / 100 else ma

/-- the limit that a request ends up as -/
def decodedMa (ma : UInt32) : UInt32 := convert_Raw_mA (convert_mA_Raw ma)

/-- `BQ24193_CHARGE_CURRENT_CONTROL_REG` -/
def BQ24193_CHARGE_CURRENT_CONTROL_REG : UInt8 := 0x2

/-- `I2c_Bq24193_GetFastChargeCurrentLimit` -/
def getFastChargeCurrentLimit : Action UInt32 := do
  let raw ← i2cRead_OutU8 .Bq24193 BQ24193_CHARGE_CURRENT_CONTROL_REG
  pure (convert_Raw_mA raw)

/-- `I2c_Bq24193_SetFastChargeCurrentLimit` -/
def setFastChargeCurrentLimit (ma : UInt32) : Action Unit :=
  i2cSet_U8 .Bq24193 BQ24193_CHARGE_CURRENT_CONTROL_REG (convert_mA_Raw ma)

/-! ## In numbers -/

variable {ma : UInt32}

theorem cappedMa_toNat (ma : UInt32) : (cappedMa ma).toNat = min ma.toNat 4544 := by
  unfold cappedMa
  split_ifs with h
  all_goals simp only [UInt32.lt_iff_toNat_lt, MA_RANGE_MAX, UInt32.reduceToNat] at h ⊢
  all_goals omega

theorem pct20_iff (ma : UInt32) : pct20 ma = true ↔ ma.toNat ≤ 448 := by
  have hlimit : (MA_RANGE_MIN - 64).toNat = 448 := by decide
  rw [pct20, decide_eq_true_iff, UInt32.le_iff_toNat_le, cappedMa_toNat, hlimit]
  omega

/-- the request as it is rounded, before the offset is subtracted -/
def roundedNat (ma : ℕ) : ℕ :=
  let m := if ma ≤ 448 then ma * 5 else min ma 4544
  m - m % 100

theorem roundedMa_toNat (ma : UInt32) : (roundedMa ma).toNat = roundedNat ma.toNat := by
  have hscaled : (if pct20 ma then cappedMa ma * 5 else cappedMa ma).toNat =
      if ma.toNat ≤ 448 then ma.toNat * 5 else min ma.toNat 4544 := by
    by_cases h : ma.toNat ≤ 448
    · rw [if_pos ((pct20_iff ma).2 h), if_pos h, UInt32.toNat_mul, cappedMa_toNat, min_eq_left (by omega)]
      exact Nat.mod_eq_of_lt (by simp; omega)
    · rw [if_neg (fun h' => h ((pct20_iff ma).1 h')), if_neg h, cappedMa_toNat]
  rw [roundedMa, roundedNat, ← hscaled, UInt32.toNat_sub_of_le]
  · rfl
  · rw [UInt32.le_iff_toNat_le]
    exact Nat.mod_le _ _

theorem roundedNat_le (ma : ℕ) : roundedNat ma ≤ 4500 := by
  unfold roundedNat
  dsimp only
  split_ifs
  all_goals omega

/-- the decoding of a register with `q` steps -/
theorem convert_Raw_mA_steps : ∀ q < 64, ∀ mode : Bool,
    (convert_Raw_mA ((if mode then 0x1 else 0) ||| UInt8.ofNat (4 * q))).toNat =
      if mode then (64 * q + 512) * 20 / 100 else 64 * q + 512 := by
  decide +kernel

/-- **The limit in closed form.** -/
theorem decoded_toNat (h : 448 ≤ roundedNat ma.toNat) : (decodedMa ma).toNat =
    if ma.toNat ≤ 448 then 64 * (roundedNat ma.toNat / 64 + 1) * 20 / 100 else 64 * (roundedNat ma.toNat / 64 + 1) := by
  have hle := roundedNat_le ma.toNat
  have hsub : (roundedMa ma - (MA_RANGE_MIN - 64)).toNat = roundedNat ma.toNat - 448 := by
    rw [UInt32.toNat_sub_of_le, roundedMa_toNat]
    · rfl
    · rw [UInt32.le_iff_toNat_le, roundedMa_toNat]
      exact h
  have hsteps : (((roundedMa ma - (MA_RANGE_MIN - 64)) >>> 6) <<< 2).toUInt8 =
      UInt8.ofNat (4 * (roundedNat ma.toNat / 64 - 7)) := by
    apply UInt8.toNat_inj.1
    simp only [UInt32.toNat_toUInt8, UInt32.toNat_shiftLeft, UInt32.toNat_shiftRight, hsub, UInt8.toNat_ofNat',
      Nat.shiftLeft_eq, Nat.shiftRight_eq_div_pow, UInt32.reduceToNat, show 2 ^ (6 % 32) = 64 from rfl,
      show 2 ^ (2 % 32) = 4 from rfl]
    omega
  have hdecode := convert_Raw_mA_steps (roundedNat ma.toNat / 64 - 7) (by omega) (pct20 ma)
  rw [decodedMa, convert_mA_Raw, hsteps, hdecode, show 64 * (roundedNat ma.toNat / 64 - 7) + 512 =
    64 * (roundedNat ma.toNat / 64 + 1) by omega]
  by_cases hmode : ma.toNat ≤ 448
  · rw [if_pos ((pct20_iff ma).2 hmode), if_pos hmode]
  · rw [if_neg (fun h' => hmode ((pct20_iff ma).1 h')), if_neg hmode]

/-! ## The limit against the request -/

/-- the requests for which the offset is at most the rounded request -/
def Served (ma : UInt32) : Prop := 100 ≤ ma.toNat ∧ ma.toNat ≤ 448 ∨ 500 ≤ ma.toNat

theorem le_roundedNat_iff (ma : ℕ) : 448 ≤ roundedNat ma ↔ 100 ≤ ma ∧ ma ≤ 448 ∨ 500 ≤ ma := by
  unfold roundedNat
  dsimp only
  split_ifs
  all_goals omega

theorem decoded_of_low (h : Served ma) (hlow : ma.toNat ≤ 448) :
    (decodedMa ma).toNat = 64 * (roundedNat ma.toNat / 64 + 1) * 20 / 100 := by
  rw [decoded_toNat ((le_roundedNat_iff _).2 h), if_pos hlow]

theorem decoded_of_high (h : Served ma) (hhigh : 448 < ma.toNat) :
    (decodedMa ma).toNat = 64 * (roundedNat ma.toNat / 64 + 1) := by
  rw [decoded_toNat ((le_roundedNat_iff _).2 h), if_neg (not_le.2 hhigh)]

theorem roundedNat_bounds (ma : ℕ) : roundedNat ma ≤ (if ma ≤ 448 then ma * 5 else min ma 4544) := by
  unfold roundedNat
  dsimp only
  omega

/-- the limit is at most one step of its mode above the request -/
theorem decoded_le (h : Served ma) :
    (decodedMa ma).toNat ≤ max (min ma.toNat 4544) 102 + (if pct20 ma then 12 else 64) := by
  have hle := roundedNat_bounds ma.toNat
  by_cases hlow : ma.toNat ≤ 448
  · rw [decoded_of_low h hlow, if_pos ((pct20_iff ma).2 hlow)]
    rw [if_pos hlow] at hle
    omega
  · rw [decoded_of_high h (not_le.1 hlow), if_neg (fun h' => hlow ((pct20_iff ma).1 h'))]
    rw [if_neg hlow] at hle
    omega

theorem roundedNat_mono_of_mode {ma ma' : ℕ} (hle : ma ≤ ma') (hmode : ma ≤ 448 ↔ ma' ≤ 448) :
    roundedNat ma ≤ roundedNat ma' := by
  unfold roundedNat
  dsimp only
  split_ifs
  all_goals omega

/-- a larger request ends up as no smaller a limit -/
theorem decoded_mono {ma' : UInt32} (h : Served ma) (h' : Served ma') (hle : ma ≤ ma') :
    decodedMa ma ≤ decodedMa ma' := by
  rw [UInt32.le_iff_toNat_le] at hle ⊢
  by_cases hlow : ma.toNat ≤ 448
  · by_cases hlow' : ma'.toNat ≤ 448
    · have hrounded := roundedNat_mono_of_mode hle (iff_of_true hlow hlow')
      rw [decoded_of_low h hlow, decoded_of_low h' hlow']
      omega
    · -- the largest limit of the 20 percent mode is below the range of the other one
      have hbound := roundedNat_bounds ma.toNat
      have hrange := (le_roundedNat_iff _).2 h'
      rw [if_pos hlow] at hbound
      rw [decoded_of_low h hlow, decoded_of_high h' (not_le.1 hlow')]
      omega
  · have hlow' : ¬ ma'.toNat ≤ 448 := by omega
    have hrounded := roundedNat_mono_of_mode hle (iff_of_false hlow hlow')
    rw [decoded_of_high h (not_le.1 hlow), decoded_of_high h' (not_le.1 hlow')]
    omega

/-- no register decodes to less than 102 mA -/
theorem isLeast_programmable : IsLeast (Set.range convert_Raw_mA) 102 := by
  constructor
  · exact ⟨1, by decide⟩
  · rintro _ ⟨raw, rfl⟩
    have hall : ∀ n < 256, 102 ≤ convert_Raw_mA (UInt8.ofNat n) := by decide +kernel
    have hraw := hall raw.toNat raw.toNat_lt
    rwa [UInt8.ofNat_toNat] at hraw

/-- **The limit of a served request.** The subtraction does not wrap, the limit is at most one step of its mode above
the larger of the capped request and the smallest programmable current, and it is monotone in the request. -/
theorem charge_limit : IsLeast (Set.range convert_Raw_mA) 102 ∧
    (∀ ma, Served ma → MA_RANGE_MIN - 64 ≤ roundedMa ma ∧
      (decodedMa ma).toNat ≤ max (min ma.toNat 4544) 102 + (if pct20 ma then 12 else 64)) ∧
    ∀ ma ma', Served ma → Served ma' → ma ≤ ma' → decodedMa ma ≤ decodedMa ma' := by
  refine ⟨isLeast_programmable, fun ma h => ⟨?_, decoded_le h⟩, fun ma ma' => decoded_mono⟩
  rw [UInt32.le_iff_toNat_le, roundedMa_toNat]
  exact (le_roundedNat_iff _).2 h

/-- 1100 mA are programmed as 1152 mA, by rounding up; at 450 mA, rounded to 400, the subtraction wraps -/
theorem limit_overshoots : decodedMa 1100 = 1152 ∧ ¬ (decodedMa 1100).toNat ≤ max (min 1100 4544) 102 ∧
    ¬ MA_RANGE_MIN - 64 ≤ roundedMa 450 := by
  decide

/-! ## On the bus -/

/-- a limit that was set is what a read that succeeds answers -/
theorem limit_readBack {env env' : Env} {s s' s'' : Bus} {ma ma' : UInt32}
    (hset : (setFastChargeCurrentLimit ma).run env s = (.ok (), s'))
    (hget : getFastChargeCurrentLimit.run env' s' = (.ok ma', s'')) : ma' = decodedMa ma := by
  obtain ⟨s1, _, _, hread | ⟨res, _, hread⟩⟩ :=
    i2cRead_spec .Bq24193 BQ24193_CHARGE_CURRENT_CONTROL_REG env' s'
  · rw [getFastChargeCurrentLimit, Action.bind_ok hread, Action.run_pure] at hget
    have hvalue := Except.ok.inj (Prod.mk.inj hget).1
    rw [← hvalue, regs_of_set hset, decodedMa]
    simp [Bus.setReg]
  · rw [getFastChargeCurrentLimit, Action.bind_error hread] at hget
    exact absurd (Prod.mk.inj hget).1 (by simp)

end RyazhaClk.I2c
