/-
The I2C bus under the drivers of `i2cDrv.cpp`: devices with byte registers, the I2C service whose every call may fail,
and the driver's two transactions. A call that fails has no effect; a device that answers a read answers its register.

- `i2cRead_spec`: a read answers the register or fails, and leaves every register.
- `i2cSet_spec`: a write stores its byte or fails, and then leaves every register.
-/
import Mathlib.Tactic

namespace RyazhaClk.I2c

/-! ## The bus -/

inductive I2cDevice where
  | Max77620Pmic
  | Max77621Cpu
  | Max77621Gpu
  | Max77812_2
  | Bq24193
deriving DecidableEq, Repr

/-- the devices' registers, the register each has selected, and the number of calls made so far -/
structure Bus where
  regs : I2cDevice → UInt8 → UInt8
  selected : I2cDevice → UInt8
  calls : ℕ

/-- the result of each call of the I2C service; 0 is success -/
abbrev Env := ℕ → UInt32

/-- what the driver does on the bus, ending with a value or with the result it fails with -/
structure Action (α : Type) where
  run : Env → Bus → Except UInt32 α × Bus

namespace Action

variable {α β : Type}

def fail (res : UInt32) : Action α := ⟨fun _ s => (.error res, s)⟩

/-- `if (res) return res;` between two calls -/
def andThen (x : Action α) (f : α → Action β) : Action β where
  run env s :=
    match x.run env s with
    | (.ok a, s) => (f a).run env s
    | (.error res, s) => (.error res, s)

instance : Monad Action where
  pure a := ⟨fun _ s => (.ok a, s)⟩
  bind := andThen

@[simp] theorem run_pure (a : α) (env : Env) (s : Bus) : (pure a : Action α).run env s = (.ok a, s) := rfl

@[simp] theorem run_fail (res : UInt32) (env : Env) (s : Bus) : (fail res : Action α).run env s = (.error res, s) := rfl

theorem bind_ok {x : Action α} {f : α → Action β} {env : Env} {s s' : Bus} {a : α} (h : x.run env s = (.ok a, s')) :
    (x >>= f).run env s = (f a).run env s' := by
  change (andThen x f).run env s = _
  simp [andThen, h]

theorem bind_error {x : Action α} {f : α → Action β} {env : Env} {s s' : Bus} {res : UInt32}
    (h : x.run env s = (.error res, s')) : (x >>= f).run env s = (.error res, s') := by
  change (andThen x f).run env s = _
  simp [andThen, h]

end Action

/-- one call of the I2C service: a failing one has no effect -/
def call {α : Type} (effect : Bus → α × Bus) : Action α where
  run env s :=
    let s' := { s with calls := s.calls + 1 }
    if env s.calls = 0 then (.ok (effect s').1, (effect s').2) else (.error (env s.calls), s')

def Bus.setReg (s : Bus) (dev : I2cDevice) (reg val : UInt8) : Bus :=
  { s with regs := Function.update s.regs dev (Function.update (s.regs dev) reg val) }

/-- a device takes the first byte as a register and stores the second one there -/
def Bus.take (s : Bus) (dev : I2cDevice) : List UInt8 → Bus
  | [reg] => { s with selected := Function.update s.selected dev reg }
  | [reg, val] => { s.setReg dev reg val with selected := Function.update s.selected dev reg }
  | _ => s

def i2cOpenSession : Action Unit := call fun s => ((), s)

def i2csessionSendAuto (dev : I2cDevice) (bytes : List UInt8) : Action Unit := call fun s => ((), s.take dev bytes)

def i2csessionReceiveAuto (dev : I2cDevice) : Action UInt8 := call fun s => (s.regs dev (s.selected dev), s)

/-- `I2cSet_U8` -/
def i2cSet_U8 (dev : I2cDevice) (reg val : UInt8) : Action Unit := do
  i2cOpenSession
  i2csessionSendAuto dev [reg, val]

/-- `I2cRead_OutU8` -/
def i2cRead_OutU8 (dev : I2cDevice) (reg : UInt8) : Action UInt8 := do
  i2cOpenSession
  i2csessionSendAuto dev [reg]
  i2csessionReceiveAuto dev

/-! ## Transactions -/

variable {env : Env} {s : Bus}

theorem call_ok {α : Type} {effect : Bus → α × Bus} (h : env s.calls = 0) :
    (call effect).run env s =
      (.ok (effect { s with calls := s.calls + 1 }).1, (effect { s with calls := s.calls + 1 }).2) := if_pos h

theorem call_error {α : Type} {effect : Bus → α × Bus} (h : env s.calls ≠ 0) :
    (call effect).run env s = (.error (env s.calls), { s with calls := s.calls + 1 }) := if_neg h

/-- one of the calls made from `s` on fails with `res` -/
def FailsFrom (env : Env) (s : Bus) (res : UInt32) : Prop := res ≠ 0 ∧ ∃ n ≥ s.calls, env n = res

theorem FailsFrom.earlier {s' : Bus} {res : UInt32} (h : FailsFrom env s' res) (hle : s.calls ≤ s'.calls) :
    FailsFrom env s res := by
  obtain ⟨hne, n, hn, hres⟩ := h
  exact ⟨hne, n, hle.trans hn, hres⟩

theorem i2cOpenSession_ok (h : env s.calls = 0) :
    i2cOpenSession.run env s = (.ok (), { s with calls := s.calls + 1 }) := call_ok h

theorem i2csessionSendAuto_ok {dev : I2cDevice} {bytes : List UInt8} (h : env s.calls = 0) :
    (i2csessionSendAuto dev bytes).run env s = (.ok (), { s with calls := s.calls + 1 }.take dev bytes) := call_ok h

theorem i2cOpenSession_error (h : env s.calls ≠ 0) :
    i2cOpenSession.run env s = (.error (env s.calls), { s with calls := s.calls + 1 }) := call_error h

theorem i2csessionSendAuto_error {dev : I2cDevice} {bytes : List UInt8} (h : env s.calls ≠ 0) :
    (i2csessionSendAuto dev bytes).run env s = (.error (env s.calls), { s with calls := s.calls + 1 }) := call_error h

/-- **A read** answers the register or fails, and leaves every register. -/
theorem i2cRead_spec (dev : I2cDevice) (reg : UInt8) (env : Env) (s : Bus) :
    ∃ s', s'.regs = s.regs ∧ s.calls ≤ s'.calls ∧
      ((i2cRead_OutU8 dev reg).run env s = (.ok (s.regs dev reg), s') ∨
        ∃ res, FailsFrom env s res ∧ (i2cRead_OutU8 dev reg).run env s = (.error res, s')) := by
  unfold i2cRead_OutU8
  by_cases h0 : env s.calls = 0
  · rw [Action.bind_ok (i2cOpenSession_ok h0)]
    by_cases h1 : env (s.calls + 1) = 0
    · rw [Action.bind_ok (i2csessionSendAuto_ok h1)]
      refine ⟨{ s.take dev [reg] with calls := s.calls + 3 }, rfl, Nat.le_add_right _ _, ?_⟩
      by_cases h2 : env (s.calls + 2) = 0
      · left
        simp [i2csessionReceiveAuto, call, Bus.take, h2]
      · right
        refine ⟨_, ⟨h2, _, Nat.le_add_right _ _, rfl⟩, ?_⟩
        simp [i2csessionReceiveAuto, call, Bus.take, h2]
    · refine ⟨{ s with calls := s.calls + 2 }, rfl, Nat.le_add_right _ _, Or.inr ⟨env (s.calls + 1), ?_, ?_⟩⟩
      · exact ⟨h1, _, Nat.le_succ _, rfl⟩
      · exact Action.bind_error (i2csessionSendAuto_error h1)
  · refine ⟨{ s with calls := s.calls + 1 }, rfl, Nat.le_succ _, Or.inr ⟨_, ⟨h0, _, le_rfl, rfl⟩, ?_⟩⟩
    exact Action.bind_error (i2cOpenSession_error h0)

/-- **A write** stores the value or fails, and then leaves every register. -/
theorem i2cSet_spec (dev : I2cDevice) (reg val : UInt8) (env : Env) (s : Bus) :
    ∃ s', s.calls ≤ s'.calls ∧
      ((s'.regs = (s.setReg dev reg val).regs ∧ (i2cSet_U8 dev reg val).run env s = (.ok (), s')) ∨
        s'.regs = s.regs ∧ ∃ res, FailsFrom env s res ∧ (i2cSet_U8 dev reg val).run env s = (.error res, s')) := by
  unfold i2cSet_U8
  by_cases h0 : env s.calls = 0
  · rw [Action.bind_ok (i2cOpenSession_ok h0)]
    by_cases h1 : env (s.calls + 1) = 0
    · refine ⟨{ s with calls := s.calls + 2 }.take dev [reg, val], Nat.le_add_right _ _, Or.inl ⟨rfl, ?_⟩⟩
      exact i2csessionSendAuto_ok h1
    · refine ⟨{ s with calls := s.calls + 2 }, Nat.le_add_right _ _, Or.inr ⟨rfl, _, ?_, i2csessionSendAuto_error h1⟩⟩
      exact ⟨h1, _, Nat.le_succ _, rfl⟩
  · refine ⟨{ s with calls := s.calls + 1 }, Nat.le_succ _, Or.inr ⟨rfl, _, ⟨h0, _, le_rfl, rfl⟩, ?_⟩⟩
    exact Action.bind_error (i2cOpenSession_error h0)

section Outcome

variable {dev : I2cDevice} {reg val : UInt8} {res : UInt32} {s' : Bus}

theorem regs_of_read {r : Except UInt32 UInt8} (h : (i2cRead_OutU8 dev reg).run env s = (r, s')) :
    s'.regs = s.regs := by
  obtain ⟨s1, hregs, _, hread | ⟨_, _, hread⟩⟩ := i2cRead_spec dev reg env s
  all_goals rw [← (Prod.mk.inj (hread.symm.trans h)).2, hregs]

theorem value_of_read (h : (i2cRead_OutU8 dev reg).run env s = (.ok val, s')) : val = s.regs dev reg := by
  obtain ⟨s1, _, _, hread | ⟨_, _, hread⟩⟩ := i2cRead_spec dev reg env s
  · exact (Except.ok.inj (Prod.mk.inj (hread.symm.trans h)).1).symm
  · exact absurd (Prod.mk.inj (hread.symm.trans h)).1 (by simp)

theorem regs_of_set_error (h : (i2cSet_U8 dev reg val).run env s = (.error res, s')) : s'.regs = s.regs := by
  obtain ⟨s1, _, ⟨_, hset⟩ | ⟨hregs, _, _, hset⟩⟩ := i2cSet_spec dev reg val env s
  · exact absurd (Prod.mk.inj (hset.symm.trans h)).1 (by simp)
  · rw [← (Prod.mk.inj (hset.symm.trans h)).2, hregs]

theorem regs_of_set (h : (i2cSet_U8 dev reg val).run env s = (.ok (), s')) : s'.regs = (s.setReg dev reg val).regs := by
  obtain ⟨s1, _, ⟨hregs, hset⟩ | ⟨_, _, _, hset⟩⟩ := i2cSet_spec dev reg val env s
  · rw [← (Prod.mk.inj (hset.symm.trans h)).2, hregs]
  · exact absurd (Prod.mk.inj (hset.symm.trans h)).1 (by simp)

end Outcome

theorem setReg_regs_of_ne {dev dev' : I2cDevice} {reg reg' val : UInt8} (h : (dev', reg') ≠ (dev, reg)) :
    (s.setReg dev reg val).regs dev' reg' = s.regs dev' reg' := by
  by_cases hdev : dev' = dev
  · subst hdev
    have hreg : reg' ≠ reg := fun hreg => h (by rw [hreg])
    simp [Bus.setReg, hreg]
  · simp [Bus.setReg, hdev]

end RyazhaClk.I2c
