/-
The buck converters (`i2cDrv.cpp`, `i2cDrv.h`): voltages as steps in a register, `SetMvOut` as a read, a masked update,
a write and a read back, `GetUvOut` and `GetMvOut` as up to five reads.

- `isGreatest_step`: a step computed without wrap is the largest one up to the request.
- `readsBack`: the getters answer the voltage of the step in the register.
- `programs_mvOutToMultiplier`: what a call of `SetMvOut` leaves in the register wherever it ends.
- `setMvOut_codec_iff`: the codec holds exactly for requests whose product with 1000 does not wrap, or wraps to at least
  the top step.
- `display_request_wraps`: a request of 4294968 mV programs the lowest step.
-/
import Mathlib.Tactic
import RyazhaClk.Sysmodule.I2cBus

namespace RyazhaClk.I2c

/-! ## Domains -/

/-- `I2c_BuckConverter_Domain` with at least one step, a mask of low bits, and a top step that fits it -/
structure BuckConverterDomain where
  device : I2cDevice
  reg : UInt8
  volt_mask : UInt8
  uv_step : UInt32
  uv_min : UInt32
  uv_max : UInt32
  por_val : UInt8 := 0
  step_pos : 0 < uv_step.toNat := by decide
  one_step : uv_min.toNat + uv_step.toNat ≤ uv_max.toNat := by decide
  mask_low : ∃ k ≤ 8, volt_mask.toNat + 1 = 2 ^ k := by decide
  top_fits : (uv_max.toNat - uv_min.toNat) / uv_step.toNat ≤ volt_mask.toNat := by decide

def I2c_SOC : BuckConverterDomain :=
  { device := .Max77620Pmic, reg := 0x16, volt_mask := 0x7F, uv_step := 12500, uv_min := 600000, uv_max := 1400000 }

def I2c_VDD2 : BuckConverterDomain :=
  { device := .Max77620Pmic, reg := 0x17, volt_mask := 0x7F, uv_step := 12500, uv_min := 600000, uv_max := 1350000 }

def I2c_Display : BuckConverterDomain :=
  { device := .Max77620Pmic, reg := 0x23, volt_mask := 0x3F, uv_step := 25000, uv_min := 800000, uv_max := 1325000 }

def I2c_Erista_CPU : BuckConverterDomain :=
  { device := .Max77621Cpu, reg := 0x00, volt_mask := 0x7F, uv_step := 6250, uv_min := 606250, uv_max := 1400000 }

def I2c_Erista_GPU : BuckConverterDomain :=
  { device := .Max77621Gpu, reg := 0x00, volt_mask := 0x7F, uv_step := 6250, uv_min := 606250, uv_max := 1400000 }

def I2c_Mariko_CPU : BuckConverterDomain :=
  { device := .Max77812_2, reg := 0x26, volt_mask := 0xFF, uv_step := 5000, uv_min := 250000, uv_max := 1525000,
    por_val := 0x78 }

def I2c_Mariko_GPU : BuckConverterDomain :=
  { device := .Max77812_2, reg := 0x23, volt_mask := 0xFF, uv_step := 5000, uv_min := 250000, uv_max := 1525000,
    por_val := 0x78 }

def I2c_Mariko_DRAM_VDDQ : BuckConverterDomain :=
  { device := .Max77812_2, reg := 0x25, volt_mask := 0xFF, uv_step := 5000, uv_min := 250000, uv_max := 700000,
    por_val := 0x78 }

/-- the table of `i2cDrv.h` -/
def domainTable : List BuckConverterDomain :=
  [I2c_SOC, I2c_VDD2, I2c_Display, I2c_Erista_CPU, I2c_Erista_GPU, I2c_Mariko_CPU, I2c_Mariko_GPU,
   I2c_Mariko_DRAM_VDDQ]

/-! ## The codec -/

namespace BuckConverterDomain

variable (d : BuckConverterDomain)

/-- `I2c_BuckConverter_MultiplierToMvOut` -/
def multiplierToMvOut (multiplier : UInt8) : UInt32 := (d.uv_min + d.uv_step * multiplier.toUInt32) / 1000

/-- `I2c_BuckConverter_MultiplierToUvOut` -/
def multiplierToUvOut (multiplier : UInt8) : UInt32 := d.uv_min + d.uv_step * multiplier.toUInt32

/-- `I2c_BuckConverter_MvOutToMultiplier`; the product wraps at 32 bits -/
def mvOutToMultiplier (mvolt : UInt32) : UInt8 :=
  let uvolt := mvolt * 1000
  let uvolt := if uvolt < d.uv_min then d.uv_min else uvolt
  let uvolt := if d.uv_max < uvolt then d.uv_max else uvolt
  ((uvolt - d.uv_min) / d.uv_step).toUInt8

/-- `val &= ~domain->volt_mask; val |= multiplier & domain->volt_mask` -/
def withMultiplier (val multiplier : UInt8) : UInt8 := (val &&& ~~~d.volt_mask) ||| (multiplier &&& d.volt_mask)

/-- the reads of `GetMvOut` and `GetUvOut`: at most `n` more while the power-on value is read -/
def readVolt : ℕ → UInt8 → Action UInt8
  | 0, val => pure val
  | n + 1, _ => do
    let val ← i2cRead_OutU8 d.device d.reg
    if d.por_val = 0 ∨ val ≠ d.por_val then pure val else readVolt n val

/-- both getters: the register's step decoded, 0 after a failing read -/
def getOut (decode : UInt8 → UInt32) (env : Env) (s : Bus) : UInt32 × Bus :=
  match (d.readVolt 5 0).run env s with
  | (.ok val, s) => (decode (val &&& d.volt_mask), s)
  | (.error _, s) => (0, s)

/-- `I2c_BuckConverter_GetMvOut` -/
def getMvOut : Env → Bus → UInt32 × Bus := d.getOut d.multiplierToMvOut

/-- `I2c_BuckConverter_GetUvOut` -/
def getUvOut : Env → Bus → UInt32 × Bus := d.getOut d.multiplierToUvOut

/-- `I2c_BuckConverter_SetMvOut`; -1 where the register does not read back -/
def setMvOut (mvolt : UInt32) : Action Unit := do
  let val ← i2cRead_OutU8 d.device d.reg
  let val := d.withMultiplier val (d.mvOutToMultiplier mvolt)
  i2cSet_U8 d.device d.reg val
  let new_val ← i2cRead_OutU8 d.device d.reg
  if new_val ≠ val then Action.fail (-1) else pure ()

end BuckConverterDomain

/-! ## Steps and voltages -/

namespace BuckConverterDomain

variable (d : BuckConverterDomain)

/-- the voltage of a step, in microvolts -/
def voltage (k : ℕ) : ℕ := d.uv_min.toNat + d.uv_step.toNat * k

def clamp (uvolt : ℕ) : ℕ := max d.uv_min.toNat (min d.uv_max.toNat uvolt)

/-- the exact request in microvolts, within the domain's range -/
def request (mvolt : ℕ) : ℕ := d.clamp (1000 * mvolt)

def topStep : ℕ := (d.uv_max.toNat - d.uv_min.toNat) / d.uv_step.toNat

theorem min_le_max : d.uv_min.toNat ≤ d.uv_max.toNat := (Nat.le_add_right _ _).trans d.one_step

theorem clamp_bounds (uvolt : ℕ) : d.uv_min.toNat ≤ d.clamp uvolt ∧ d.clamp uvolt ≤ d.uv_max.toNat :=
  ⟨le_max_left _ _, max_le d.min_le_max (min_le_left _ _)⟩

/-- **rounding down answers the largest step up to a voltage** -/
theorem isGreatest_step {uvolt : ℕ} (h : d.uv_min.toNat ≤ uvolt) :
    IsGreatest {k | d.voltage k ≤ uvolt} ((uvolt - d.uv_min.toNat) / d.uv_step.toNat) := by
  have hiff : ∀ k, d.voltage k ≤ uvolt ↔ k ≤ (uvolt - d.uv_min.toNat) / d.uv_step.toNat := by
    intro k
    rw [Nat.le_div_iff_mul_le d.step_pos, voltage, Nat.mul_comm k]
    omega
  exact ⟨(hiff _).2 le_rfl, fun k hk => (hiff k).1 hk⟩

theorem step_le_topStep (uvolt : ℕ) : (d.clamp uvolt - d.uv_min.toNat) / d.uv_step.toNat ≤ d.topStep :=
  Nat.div_le_div_right (Nat.sub_le_sub_right (d.clamp_bounds uvolt).2 _)

theorem topStep_le_mask : d.topStep ≤ d.volt_mask.toNat := d.top_fits

theorem voltage_le_max {k : ℕ} (hk : k ≤ d.topStep) : d.voltage k ≤ d.uv_max.toNat :=
  ((Nat.add_le_add_left (Nat.mul_le_mul_left _ hk) _).trans (d.isGreatest_step d.min_le_max).1)

/-- a product that wraps is a request above the range, so the step is right where the wrapped one reaches the top -/
theorem step_eq_iff {mvolt : ℕ} (h : 2 ^ 32 ≤ 1000 * mvolt) (uvolt : ℕ) :
    (d.clamp uvolt - d.uv_min.toNat) / d.uv_step.toNat = (d.request mvolt - d.uv_min.toNat) / d.uv_step.toNat ↔
      d.voltage d.topStep ≤ uvolt := by
  have hmax : d.uv_max.toNat < 2 ^ 32 := d.uv_max.toNat_lt
  have hreq : d.request mvolt = d.uv_max.toNat := by
    rw [request, clamp, min_eq_left (by omega), max_eq_right d.min_le_max]
  have hpos : 0 < d.topStep := Nat.div_pos (by have := d.one_step; omega) d.step_pos
  have hstep : 0 < d.uv_step.toNat * d.topStep := Nat.mul_pos d.step_pos hpos
  have htop := d.voltage_le_max le_rfl
  have hgreatest := d.isGreatest_step (d.clamp_bounds uvolt).1
  rw [hreq]
  constructor
  · intro heq
    have hle : d.voltage d.topStep ≤ d.clamp uvolt := by
      rw [topStep, ← heq]
      exact hgreatest.1
    unfold clamp at hle
    unfold voltage at hle ⊢
    omega
  · intro hle
    apply le_antisymm (d.step_le_topStep uvolt)
    apply hgreatest.2
    change d.voltage d.topStep ≤ d.clamp uvolt
    unfold clamp
    omega

/-! ## The codec in words -/

theorem mvOutToMultiplier_toNat (mvolt : UInt32) : (d.mvOutToMultiplier mvolt).toNat =
    (d.clamp (1000 * mvolt.toNat % 2 ^ 32) - d.uv_min.toNat) / d.uv_step.toNat := by
  have hbounds := d.clamp_bounds (1000 * mvolt.toNat % 2 ^ 32)
  have hprod : (mvolt * 1000).toNat = 1000 * mvolt.toNat % 2 ^ 32 := by
    rw [UInt32.toNat_mul, Nat.mul_comm]
    rfl
  have hclamp : ∀ uvolt : UInt32, (if d.uv_max < (if uvolt < d.uv_min then d.uv_min else uvolt) then d.uv_max
      else if uvolt < d.uv_min then d.uv_min else uvolt).toNat = d.clamp uvolt.toNat := by
    intro uvolt
    have hle := d.min_le_max
    unfold clamp
    split_ifs with h h' h'
    all_goals simp only [UInt32.lt_iff_toNat_lt] at *
    all_goals omega
  have hfit := (d.step_le_topStep (1000 * mvolt.toNat % 2 ^ 32)).trans d.topStep_le_mask
  have hmask := d.volt_mask.toNat_lt
  rw [mvOutToMultiplier, UInt32.toNat_toUInt8, UInt32.toNat_div, UInt32.toNat_sub_of_le, hclamp, hprod]
  · exact Nat.mod_eq_of_lt (by omega)
  · rw [UInt32.le_iff_toNat_le, hclamp, hprod]
    exact hbounds.1

theorem and_volt_mask {multiplier : UInt8} (h : multiplier.toNat ≤ d.volt_mask.toNat) :
    multiplier &&& d.volt_mask = multiplier := by
  obtain ⟨k, _, hk⟩ := d.mask_low
  have hmask : d.volt_mask.toNat = 2 ^ k - 1 := by omega
  apply UInt8.toNat_inj.1
  rw [UInt8.toNat_and, hmask, Nat.and_two_pow_sub_one_eq_mod]
  exact Nat.mod_eq_of_lt (by omega)

/-- the step computed is one of the domain's, so the mask keeps it -/
theorem mvOutToMultiplier_le (mvolt : UInt32) : (d.mvOutToMultiplier mvolt).toNat ≤ d.topStep := by
  rw [mvOutToMultiplier_toNat]
  exact d.step_le_topStep _

theorem mvOutToMultiplier_and_mask (mvolt : UInt32) :
    d.mvOutToMultiplier mvolt &&& d.volt_mask = d.mvOutToMultiplier mvolt :=
  d.and_volt_mask ((d.mvOutToMultiplier_le mvolt).trans d.topStep_le_mask)

/-- the masked bits of the new value are the step -/
theorem withMultiplier_and_mask (val multiplier : UInt8) :
    d.withMultiplier val multiplier &&& d.volt_mask = multiplier &&& d.volt_mask := by
  apply UInt8.eq_of_toBitVec_eq
  ext i hi
  cases hbit : d.volt_mask.toBitVec[i] <;> simp [withMultiplier, hbit]

/-- the bits outside the mask are kept -/
theorem withMultiplier_and_not_mask (val multiplier : UInt8) :
    d.withMultiplier val multiplier &&& ~~~d.volt_mask = val &&& ~~~d.volt_mask := by
  apply UInt8.eq_of_toBitVec_eq
  ext i hi
  cases hbit : d.volt_mask.toBitVec[i] <;> simp [withMultiplier, hbit]

theorem multiplierToUvOut_toNat {multiplier : UInt8} (h : multiplier.toNat ≤ d.topStep) :
    (d.multiplierToUvOut multiplier).toNat = d.voltage multiplier.toNat := by
  have hmax : d.uv_max.toNat < 2 ^ 32 := d.uv_max.toNat_lt
  have hle := d.voltage_le_max h
  unfold voltage at hle ⊢
  have hprod : (d.uv_step * multiplier.toUInt32).toNat = d.uv_step.toNat * multiplier.toNat := by
    rw [UInt32.toNat_mul, UInt8.toNat_toUInt32]
    exact Nat.mod_eq_of_lt (by omega)
  rw [multiplierToUvOut, UInt32.toNat_add, hprod]
  exact Nat.mod_eq_of_lt (by omega)

theorem multiplierToMvOut_toNat {multiplier : UInt8} (h : multiplier.toNat ≤ d.topStep) :
    (d.multiplierToMvOut multiplier).toNat = d.voltage multiplier.toNat / 1000 := by
  rw [← d.multiplierToUvOut_toNat h]
  exact UInt32.toNat_div _ _

/-! ## Reading a voltage -/

/-- the retries answer the register, or a read among them fails -/
theorem readVolt_spec (n : ℕ) (val : UInt8) (env : Env) (s : Bus) (hn : n = 0 → val = s.regs d.device d.reg) :
    ∃ s', s'.regs = s.regs ∧ ((d.readVolt n val).run env s = (.ok (s.regs d.device d.reg), s') ∨
      ∃ res, FailsFrom env s res ∧ (d.readVolt n val).run env s = (.error res, s')) := by
  induction n generalizing val s with
  | zero => exact ⟨s, rfl, Or.inl (by simp [readVolt, hn rfl])⟩
  | succ n ih =>
    rw [readVolt]
    obtain ⟨s', hregs, hcalls, hread | ⟨res, hfails, hread⟩⟩ := i2cRead_spec d.device d.reg env s
    · rw [Action.bind_ok hread]
      split_ifs with hpor
      · exact ⟨s', hregs, Or.inl rfl⟩
      · obtain ⟨s'', hregs', hnext⟩ := ih (s.regs d.device d.reg) s' (fun _ => by rw [hregs])
        rw [hregs] at hregs' hnext
        refine ⟨s'', hregs', hnext.imp_right ?_⟩
        rintro ⟨res, hfails, hrun⟩
        exact ⟨res, hfails.earlier hcalls, hrun⟩
    · exact ⟨s', hregs, Or.inr ⟨res, hfails, Action.bind_error hread⟩⟩

theorem getOut_spec (decode : UInt8 → UInt32) (env : Env) (s : Bus) :
    (d.getOut decode env s).1 = decode (s.regs d.device d.reg &&& d.volt_mask) ∨
      (d.getOut decode env s).1 = 0 ∧ ∃ res, FailsFrom env s res := by
  obtain ⟨s', _, hread | ⟨res, hfails, hread⟩⟩ := d.readVolt_spec 5 0 env s (fun h => absurd h (by decide))
  · left
    simp [getOut, hread]
  · right
    exact ⟨by simp [getOut, hread], res, hfails⟩

/-- both getters read a step back as its voltage, or answer 0 after a failing call -/
structure ReadsBack (step : UInt8) (s : Bus) : Prop where
  getUvOut : ∀ env, (d.getUvOut env s).1.toNat = d.voltage step.toNat ∨
    (d.getUvOut env s).1 = 0 ∧ ∃ res, FailsFrom env s res
  getMvOut : ∀ env, (d.getMvOut env s).1.toNat = d.voltage step.toNat / 1000 ∨
    (d.getMvOut env s).1 = 0 ∧ ∃ res, FailsFrom env s res

theorem readsBack {step : UInt8} {s : Bus} (hstep : step.toNat ≤ d.topStep)
    (hreg : s.regs d.device d.reg &&& d.volt_mask = step) : d.ReadsBack step s where
  getUvOut env := by
    refine (d.getOut_spec d.multiplierToUvOut env s).imp_left fun h => ?_
    rw [getUvOut, h, hreg, d.multiplierToUvOut_toNat hstep]
  getMvOut env := by
    refine (d.getOut_spec d.multiplierToMvOut env s).imp_left fun h => ?_
    rw [getMvOut, h, hreg, d.multiplierToMvOut_toNat hstep]

/-! ## Programming a voltage -/

/-- the value that `SetMvOut` writes over a register -/
def programmed (mvolt : UInt32) (val : UInt8) : UInt8 := d.withMultiplier val (d.mvOutToMultiplier mvolt)

theorem setMvOut_eq (mvolt : UInt32) : d.setMvOut mvolt =
    i2cRead_OutU8 d.device d.reg >>= fun val => i2cSet_U8 d.device d.reg (d.programmed mvolt val) >>= fun _ =>
      i2cRead_OutU8 d.device d.reg >>= fun new_val =>
        if new_val ≠ d.programmed mvolt val then Action.fail (-1) else pure () := rfl

/-! ## The codec -/

/-- what a call that programs `step` does: a failing call of the service leaves the registers as they were before it; a
write that succeeds stores the step, keeps the bits outside the mask and the other registers, and is read back -/
structure Programs (mvolt : UInt32) (step : UInt8) (env : Env) (s : Bus) : Prop where
  read_fails : ∀ res s1, (i2cRead_OutU8 d.device d.reg).run env s = (.error res, s1) →
    (d.setMvOut mvolt).run env s = (.error res, s1) ∧ s1.regs = s.regs
  write_fails : ∀ val s1 res s2, (i2cRead_OutU8 d.device d.reg).run env s = (.ok val, s1) →
    (i2cSet_U8 d.device d.reg (d.withMultiplier val step)).run env s1 = (.error res, s2) →
    (d.setMvOut mvolt).run env s = (.error res, s2) ∧ s2.regs = s1.regs
  writes : ∀ val s1 s2, (i2cRead_OutU8 d.device d.reg).run env s = (.ok val, s1) →
    (i2cSet_U8 d.device d.reg (d.withMultiplier val step)).run env s1 = (.ok (), s2) →
    s2.regs d.device d.reg &&& d.volt_mask = step ∧
    s2.regs d.device d.reg &&& ~~~d.volt_mask = s.regs d.device d.reg &&& ~~~d.volt_mask ∧
    (∀ dev reg, (dev, reg) ≠ (d.device, d.reg) → s2.regs dev reg = s.regs dev reg) ∧
    (∀ s', s'.regs = s2.regs → d.ReadsBack step s') ∧
    (∀ res s3, (i2cRead_OutU8 d.device d.reg).run env s2 = (.error res, s3) →
      (d.setMvOut mvolt).run env s = (.error res, s3) ∧ s3.regs = s2.regs) ∧
    (∀ new_val s3, (i2cRead_OutU8 d.device d.reg).run env s2 = (.ok new_val, s3) →
      (d.setMvOut mvolt).run env s = (.ok (), s3) ∧ s3.regs = s2.regs)

/-- a request programs the largest step up to the exact clamped request, which fits the mask, on every bus -/
def CodecHolds (mvolt : UInt32) : Prop :=
  ∃ step : UInt8, IsGreatest {k | d.voltage k ≤ d.request mvolt.toNat} step.toNat ∧ step &&& d.volt_mask = step ∧
    ∀ env s, d.Programs mvolt step env s

/-- a call programs the step that the code computes -/
theorem programs_mvOutToMultiplier (mvolt : UInt32) (env : Env) (s : Bus) :
    d.Programs mvolt (d.mvOutToMultiplier mvolt) env s := by
  constructor
  all_goals rw [setMvOut_eq]
  · intro res s1 hread
    exact ⟨Action.bind_error hread, regs_of_read hread⟩
  · intro val s1 res s2 hread hset
    rw [Action.bind_ok hread]
    exact ⟨Action.bind_error hset, regs_of_set_error hset⟩
  · intro val s1 s2 hread hset
    change (i2cSet_U8 d.device d.reg (d.programmed mvolt val)).run env s1 = (.ok (), s2) at hset
    have hval := value_of_read hread
    have hregs1 : s1.regs = s.regs := regs_of_read hread
    have hregs2 := regs_of_set hset
    have hnew : s2.regs d.device d.reg = d.programmed mvolt val := by simp [hregs2, Bus.setReg]
    have hstep : s2.regs d.device d.reg &&& d.volt_mask = d.mvOutToMultiplier mvolt := by
      rw [hnew, programmed, withMultiplier_and_mask, mvOutToMultiplier_and_mask]
    refine ⟨hstep, ?_, ?_, fun s' hs' => d.readsBack (d.mvOutToMultiplier_le mvolt) (by rw [hs', hstep]), ?_, ?_⟩
    · rw [hnew, programmed, withMultiplier_and_not_mask, hval]
    · intro dev reg hne
      rw [hregs2, setReg_regs_of_ne hne, hregs1]
    · intro res s3 hback
      rw [Action.bind_ok hread, Action.bind_ok hset]
      exact ⟨Action.bind_error hback, regs_of_read hback⟩
    · intro new_val s3 hback
      have hsame : new_val = d.programmed mvolt val := (value_of_read hback).trans hnew
      rw [Action.bind_ok hread, Action.bind_ok hset, Action.bind_ok hback, hsame, if_neg (by simp)]
      exact ⟨rfl, regs_of_read hback⟩

/-- the condition on a request: its product with 1000 does not wrap, or wraps to at least the top step's voltage -/
def Reaches (mvolt : ℕ) : Prop := 1000 * mvolt < 2 ^ 32 ∨ d.voltage d.topStep ≤ 1000 * mvolt % 2 ^ 32

instance (mvolt : ℕ) : Decidable (d.Reaches mvolt) := by unfold Reaches; infer_instance

/-- the step computed is the largest one up to the exact request exactly under the condition -/
theorem isGreatest_mvOutToMultiplier_iff (mvolt : UInt32) :
    IsGreatest {k | d.voltage k ≤ d.request mvolt.toNat} (d.mvOutToMultiplier mvolt).toNat ↔ d.Reaches mvolt.toNat := by
  have hgreatest := d.isGreatest_step (d.clamp_bounds (1000 * mvolt.toNat)).1
  have hiff : IsGreatest {k | d.voltage k ≤ d.request mvolt.toNat} (d.mvOutToMultiplier mvolt).toNat ↔
      (d.mvOutToMultiplier mvolt).toNat = (d.request mvolt.toNat - d.uv_min.toNat) / d.uv_step.toNat :=
    ⟨fun h => h.unique hgreatest, fun h => h ▸ hgreatest⟩
  rw [hiff, mvOutToMultiplier_toNat, Reaches]
  by_cases hwrap : 1000 * mvolt.toNat < 2 ^ 32
  · rw [Nat.mod_eq_of_lt hwrap, request]
    exact iff_of_true rfl (Or.inl hwrap)
  · rw [d.step_eq_iff (not_lt.1 hwrap), or_iff_right hwrap]

/-- without faults a call succeeds and leaves the step that it programs in the register -/
theorem Programs.run_of_no_faults {d : BuckConverterDomain} {mvolt : UInt32} {step : UInt8} {s : Bus}
    (h : d.Programs mvolt step (fun _ => 0) s) :
    ∃ s3, (d.setMvOut mvolt).run (fun _ => 0) s = (.ok (), s3) ∧ s3.regs d.device d.reg &&& d.volt_mask = step := by
  have hnone : ∀ s res, ¬ FailsFrom (fun _ => 0) s res := by
    rintro s res ⟨hne, _, _, hres⟩
    exact hne hres.symm
  obtain ⟨s1, _, _, hread | ⟨_, hfails, _⟩⟩ := i2cRead_spec d.device d.reg (fun _ => 0) s
  · obtain ⟨s2, _, ⟨_, hset⟩ | ⟨_, _, hfails, _⟩⟩ :=
      i2cSet_spec d.device d.reg (d.withMultiplier (s.regs d.device d.reg) step) (fun _ => 0) s1
    · obtain ⟨s3, hregs3, _, hback | ⟨_, hfails, _⟩⟩ := i2cRead_spec d.device d.reg (fun _ => 0) s2
      · obtain ⟨hstep, _, _, _, _, hrun⟩ := h.writes _ s1 s2 hread hset
        exact ⟨s3, (hrun _ s3 hback).1, by rw [hregs3, hstep]⟩
      · exact absurd hfails (hnone _ _)
    · exact absurd hfails (hnone _ _)
  · exact absurd hfails (hnone _ _)

theorem Programs.unique {d : BuckConverterDomain} {mvolt : UInt32} {step step' : UInt8} {s : Bus}
    (h : d.Programs mvolt step (fun _ => 0) s) (h' : d.Programs mvolt step' (fun _ => 0) s) : step = step' := by
  obtain ⟨s3, hrun, hstep⟩ := h.run_of_no_faults
  obtain ⟨s3', hrun', hstep'⟩ := h'.run_of_no_faults
  rw [← hstep, ← hstep', (Prod.mk.inj (hrun.symm.trans hrun')).2]

/-- the step that a call programs is the one that the code computes -/
theorem codecHolds_iff_isGreatest (mvolt : UInt32) : d.CodecHolds mvolt ↔
    IsGreatest {k | d.voltage k ≤ d.request mvolt.toNat} (d.mvOutToMultiplier mvolt).toNat := by
  constructor
  · rintro ⟨step, hgreatest, _, hprograms⟩
    let idle : Bus := ⟨fun _ _ => 0, fun _ => 0, 0⟩
    have heq := (hprograms (fun _ => 0) idle).unique (d.programs_mvOutToMultiplier mvolt _ idle)
    rwa [← heq]
  · intro hgreatest
    exact ⟨_, hgreatest, d.mvOutToMultiplier_and_mask mvolt, d.programs_mvOutToMultiplier mvolt⟩

/-- **The codec holds exactly** for the requests that meet the condition. -/
theorem setMvOut_codec_iff (d : BuckConverterDomain) (mvolt : UInt32) : d.CodecHolds mvolt ↔ d.Reaches mvolt.toNat := by
  rw [codecHolds_iff_isGreatest, isGreatest_mvOutToMultiplier_iff]

/-- 4294968 mV wrap to 704 uV: the display rail gets its lowest step, and step 21 is the largest in range -/
theorem display_request_wraps : I2c_Display ∈ domainTable ∧ I2c_Display.mvOutToMultiplier 4294968 = 0 ∧
    I2c_Display.voltage 21 ≤ I2c_Display.request 4294968 ∧ ¬ I2c_Display.CodecHolds 4294968 := by
  refine ⟨by simp [domainTable], by decide, by decide, ?_⟩
  rw [codecHolds_iff_isGreatest, isGreatest_mvOutToMultiplier_iff]
  decide

end BuckConverterDomain

end RyazhaClk.I2c
