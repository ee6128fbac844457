/-
The panel's rate in handheld mode, over runs of `SetRate` and `GetRate` on a console without a RETRO SUPER panel.

The registers carry the docked state as well: divisors that stand for 0 or 80 are read as docked. A request from 80 on is
brought to 80, the upper end of the handheld range, and so leaves registers that no later request gets past.

- `handheld_run_iff`: in every run, each request is met and leaves registers that read as handheld exactly when it is below 80
  and the 32-bit product of the registers before it does not wrap to the rate requested.
- `rate_eighty_docks`: 80 Hz is set, and then read as docked.
-/
import Mathlib.Tactic
import RyazhaClk.Lib.Transition
import RyazhaClk.Sysmodule.Display

namespace RyazhaClk.Display

open Transition

inductive DisplayCall where
  | setRate (nv : Nv) (rate : ℕ)
  | getRate (nv : Nv) (internal : Bool)

/-- a request is for some rate, and the panel reads answer as on a console that is not docked -/
def DisplayCall.Undocked : DisplayCall → Prop
  | .setRate nv rate => 0 < rate ∧ nv.disp0.panelData = 0x75c ∧ nv.disp1.panelData = 0x75c
  | .getRate _ _ => True

/-- the 32-bit product of a clock from 2 ^ 32 on wraps to the product of `rate` -/
structure Aliases (base : PlldBase) (misc : PlldMisc) (rate : ℕ) : Prop where
  divM : base.plldDivM.toNat = 1
  overflow : 2 ^ 32 ≤ pllProduct base misc
  wrapped : pllProduct base misc % 2 ^ 32 < 2 ^ 31
  rate_eq : pllProduct base misc % 2 ^ 32 / 31200000 = rate

/-- divisors that `GetRate` reads as handheld -/
def PlldBase.ReadsHandheld (base : PlldBase) : Prop := ∃ value, base.value = some value ∧ value ≠ 0 ∧ value ≠ 80

namespace DisplayState

def step (s : DisplayState) : DisplayCall → Option DisplayState
  | .setRate nv rate => (s.setRate nv rate).map Prod.snd
  | .getRate nv internal => (s.getRate nv internal).map Prod.snd

/-- the module is initialised on a console without a RETRO SUPER panel, and `GetRate` reads the registers as handheld -/
structure Handheld (s : DisplayState) : Prop where
  initialized : s.gInitialized = true
  mapped : s.gConfig.clkVirtAddr ≠ 0
  standard : s.gConfig.isRetroSUPER = false
  registers : s.base.ReadsHandheld

/-- what a call is to do: a request that gets at the panel succeeds, behind a request that succeeds `GetRate` answers the
normalised rate, and the registers still read as handheld; `GetRate` answers and does not set `isDocked` -/
def Meets (s : DisplayState) : DisplayCall → Prop
  | .setRate nv rate => ∃ ok t, s.setPLLDHandheldRefreshRate nv rate = some (ok, t) ∧ s.step (.setRate nv rate) = some t ∧
      (nv.disp0.opens = true → ok = true) ∧
      (ok = true → ∀ nv' internal, ∃ u, t.getRate nv' internal = some (some (normalisedRate 4 rate), u)) ∧
      t.base.ReadsHandheld
  | .getRate nv internal => ∃ hz t, s.getRate nv internal = some (some hz, t) ∧ t.gConfig.isDocked = false

/-- a request that gets at the panel is below 80, and the registers do not alias it -/
def Settable (s : DisplayState) : DisplayCall → Prop
  | .setRate nv rate => nv.disp0.opens = true → rate < 80 ∧ ¬ Aliases s.base s.misc (normalisedRate 4 rate)
  | .getRate _ _ => True

end DisplayState

/-! ## The two readings of the registers -/

variable {base : PlldBase} {misc : PlldMisc} {rate : ℕ}

theorem PlldBase.ReadsHandheld.divM_pos (h : base.ReadsHandheld) : 0 < base.plldDivM.toNat := by
  obtain ⟨value, hvalue, -, -⟩ := h
  unfold PlldBase.value quotient at hvalue
  split_ifs at hvalue with hzero
  · cases hvalue
  · omega

theorem divM_ne_zero_iff : base.plldDivM ≠ 0 ↔ 0 < base.plldDivM.toNat := by
  rw [Nat.pos_iff_ne_zero, not_iff_not, ← BitVec.toNat_inj]
  exact Iff.rfl

theorem refreshRateNow_of_divM (h : 0 < base.plldDivM.toNat) : refreshRateNow base misc = some
    ((((pllProduct base misc).bmod (2 ^ 32)).tdiv (8 * base.plldDivM.toNat) % 2 ^ 32).toNat / 3900000 % 2 ^ 16) :=
  if_neg (divM_ne_zero_iff.2 h)

theorem handheldRate_of_divM (h : 0 < base.plldDivM.toNat) : handheldRate base misc = some
    ((pllProduct base misc % 2 ^ 64 / (8 * base.plldDivM.toNat) % 2 ^ 32).toNat / 3900000) :=
  if_neg (divM_ne_zero_iff.2 h)

/-- a quotient by at least `k` of what is not negative -/
theorem ediv_mul_le_of_le {n d k : ℤ} (hn : 0 ≤ n) (hk : 0 < k) (hd : k ≤ d) : 0 ≤ n / d ∧ n / d * k ≤ n := by
  have hpos : 0 < d := lt_of_lt_of_le hk hd
  have hquot : 0 ≤ n / d := Int.ediv_nonneg hn hpos.le
  refine ⟨hquot, ?_⟩
  calc n / d * k ≤ n / d * d := Int.mul_le_mul_of_nonneg_left hd hquot
    _ ≤ n := Int.ediv_mul_le n hpos.ne'

/-- a 16-bit rate in the range comes from a product that is not negative and not divided -/
theorem rate_of_product {product : ℤ} {m : ℕ} (hm : 0 < m) (hlo : 40 ≤ rate) (hhi : rate ≤ 80)
    (hmin : -2 ^ 31 ≤ product) (hmax : product < 2 ^ 31)
    (h : (product.tdiv (8 * m) % 2 ^ 32).toNat / 3900000 % 2 ^ 16 = rate) :
    m = 1 ∧ 0 ≤ product ∧ product / 31200000 = rate := by
  rcases Int.le_total 0 product with hsign | hsign
  · rw [Int.tdiv_eq_ediv_of_nonneg hsign] at h
    rcases Nat.eq_or_lt_of_le hm with hone | hmore
    · obtain rfl : m = 1 := hone.symm
      push_cast at h
      omega
    · -- half the clock stays below the range
      obtain ⟨hquot, hle⟩ := ediv_mul_le_of_le hsign (by omega : (0 : ℤ) < 16) (by omega : (16 : ℤ) ≤ 8 * m)
      omega
  · -- a negative quotient becomes a clock of more than 1000 Hz
    obtain ⟨hquot, hle⟩ := ediv_mul_le_of_le (by omega : 0 ≤ -product) (by omega : (0 : ℤ) < 8) (by omega : (8 : ℤ) ≤ 8 * m)
    have hneg : product.tdiv (8 * m) = -(-product / (8 * m)) := by
      rw [← Int.tdiv_eq_ediv_of_nonneg (by omega : 0 ≤ -product), Int.neg_tdiv, neg_neg]
    rw [hneg] at h
    omega

theorem bmod_bounds (n : ℤ) : -2 ^ 31 ≤ n.bmod (2 ^ 32) ∧ n.bmod (2 ^ 32) < 2 ^ 31 := by
  have hlo := Int.le_bmod (x := n) (m := 2 ^ 32) (by decide)
  have hhi := Int.bmod_lt (x := n) (m := 2 ^ 32) (by decide)
  omega

theorem bmod_nonneg_iff (n : ℤ) : 0 ≤ n.bmod (2 ^ 32) ↔ n % 2 ^ 32 < 2 ^ 31 := by
  have hdef := Int.bmod_def n (2 ^ 32)
  omega

theorem bmod_of_lt {n : ℤ} (h : n % 2 ^ 32 < 2 ^ 31) : n.bmod (2 ^ 32) = n % 2 ^ 32 := by
  have hdef := Int.bmod_def n (2 ^ 32)
  omega

/-- the registers are taken to run at a rate in the range exactly when their product, modulo 2 ^ 32, is that rate's -/
theorem refreshRateNow_eq_some_iff (hM : 0 < base.plldDivM.toNat) (hlo : 40 ≤ rate) (hhi : rate ≤ 80) :
    refreshRateNow base misc = some rate ↔ base.plldDivM.toNat = 1 ∧ pllProduct base misc % 2 ^ 32 < 2 ^ 31 ∧
      pllProduct base misc % 2 ^ 32 / 31200000 = rate := by
  rw [refreshRateNow_of_divM hM, Option.some_inj]
  constructor
  · intro h
    obtain ⟨hmin, hmax⟩ := bmod_bounds (pllProduct base misc)
    obtain ⟨hone, hsign, hrate⟩ := rate_of_product hM hlo hhi hmin hmax h
    have hwrapped := (bmod_nonneg_iff _).1 hsign
    rw [bmod_of_lt hwrapped] at hrate
    exact ⟨hone, hwrapped, hrate⟩
  · intro h
    obtain ⟨hone, hwrapped, hrate⟩ := h
    rw [hone, bmod_of_lt hwrapped, Int.tdiv_eq_ediv_of_nonneg (Int.emod_nonneg _ (by decide))]
    push_cast
    omega

/-- an undivided clock is read back in full: it stays below 2 ^ 32 once it is not negative -/
theorem handheldRate_of_nonneg (hM : base.plldDivM.toNat = 1) (h : 0 ≤ pllProduct base misc) :
    handheldRate base misc = some (pllProduct base misc / 31200000).toNat := by
  obtain ⟨-, hmax⟩ := pllProduct_bounds base misc
  rw [handheldRate_of_divM (by omega), hM, Option.some_inj]
  push_cast
  omega

/-- where the registers are taken to run at a rate in the range, `GetRate` reads it exactly when they do not alias it -/
theorem handheldRate_eq_some_iff (hM : 0 < base.plldDivM.toNat) (hlo : 40 ≤ rate) (hhi : rate ≤ 80)
    (hnow : refreshRateNow base misc = some rate) : handheldRate base misc = some rate ↔ ¬ Aliases base misc rate := by
  obtain ⟨hone, hwrapped, hrate⟩ := (refreshRateNow_eq_some_iff hM hlo hhi).1 hnow
  obtain ⟨hmin, -⟩ := pllProduct_bounds base misc
  have hsign : 0 ≤ pllProduct base misc := by omega
  rw [handheldRate_of_nonneg hone hsign, Option.some_inj]
  constructor
  · intro h halias
    have hoverflow := halias.overflow
    omega
  · intro h
    have hsmall : pllProduct base misc < 2 ^ 32 := by
      by_contra hlarge
      exact h ⟨hone, by omega, hwrapped, hrate⟩
    omega

-- a clock of 197 Hz that is taken for one of 60 Hz
example : refreshRateNow ⟨1, 79⟩ ⟨6546⟩ = some 60 ∧ handheldRate ⟨1, 79⟩ ⟨6546⟩ = some 197 := by decide

/-! ## The registers behind a request -/

theorem programPlld_handheldRate (hlo : 40 ≤ rate) (hhi : rate ≤ 80) :
    handheldRate (programPlld rate).1 (programPlld rate).2 = some rate := by
  have hproduct := programPlld_pllProduct hlo hhi
  rw [handheldRate_of_nonneg (by rw [programPlld_divM]; rfl) (by omega), hproduct, Option.some_inj]
  omega

theorem programPlld_value (hhi : rate ≤ 80) : (programPlld rate).1.value = some (5 * (rate / 5)) := by
  unfold PlldBase.value quotient
  rw [programPlld_divN hhi, programPlld_divM, if_neg (by decide), Option.map_some, Option.some_inj]
  change 2 * (rate / 5) / 1 * 10 / 4 = 5 * (rate / 5)
  omega

/-- of the rates in the range 80 alone is read as docked -/
theorem programPlld_readsHandheld_iff (hlo : 40 ≤ rate) (hhi : rate ≤ 80) :
    (programPlld rate).1.ReadsHandheld ↔ rate ≠ 80 := by
  unfold PlldBase.ReadsHandheld
  rw [programPlld_value hhi]
  constructor
  · intro h
    obtain ⟨value, hvalue, -, hdocked⟩ := h
    have heq := Option.some.inj hvalue
    omega
  · intro h
    exact ⟨_, rfl, by omega, by omega⟩

namespace DisplayState

variable {s t : DisplayState} {nv : Nv}

/-! ## The calls on a handheld console -/

theorem Handheld.getRate_eq (h : s.Handheld) (nv : Nv) (internal : Bool) :
    s.getRate nv internal = (handheldRate s.base s.misc).map fun hz => (some hz, s.readHandheld hz) := by
  obtain ⟨value, hvalue, hzero, hdocked⟩ := h.registers
  unfold getRate
  rw [if_neg (by simp [h.initialized, h.mapped]), if_neg (by simp [h.standard]), if_pos (Or.inr h.standard), hvalue,
    Option.bind_some]
  change (if value = 0 ∨ value = 80 then _ else if s.gConfig.isRetroSUPER = false then _ else _) = _
  rw [if_neg (by simp [hzero, hdocked]), if_pos h.standard]
  rfl

theorem Handheld.readHandheld (h : s.Handheld) (hz : ℕ) : (s.readHandheld hz).Handheld :=
  ⟨h.initialized, h.mapped, h.standard, h.registers⟩

theorem Handheld.getRate_iff (h : s.Handheld) (nv : Nv) (internal : Bool) (hz : ℕ) :
    (∃ u, s.getRate nv internal = some (some hz, u)) ↔ handheldRate s.base s.misc = some hz := by
  rw [h.getRate_eq]
  constructor
  · intro hget
    obtain ⟨u, hu⟩ := hget
    obtain ⟨hz', hrate, heq⟩ := Option.map_eq_some_iff.1 hu
    obtain ⟨hout, -⟩ := Prod.mk.inj heq
    rw [hrate, hout]
  · intro hrate
    rw [hrate]
    exact ⟨_, rfl⟩

theorem setPLLDHandheldRefreshRate_closed (h : nv.disp0.opens = false) (rate : ℕ) :
    s.setPLLDHandheldRefreshRate nv rate = some (false, s) := by
  unfold setPLLDHandheldRefreshRate
  rw [if_pos (Or.inr (Or.inl h))]

theorem setPLLDHandheldRefreshRate_state {ok : Bool} (h : s.setPLLDHandheldRefreshRate nv rate = some (ok, t)) :
    t = s ∨ t = s.programmed (normalisedRate 4 rate) := by
  unfold setPLLDHandheldRefreshRate at h
  split_ifs at h
  · exact Or.inl (Prod.mk.inj (Option.some.inj h)).2.symm
  · obtain ⟨value, -, h⟩ := Option.bind_eq_some_iff.1 h
    split_ifs at h
    · exact Or.inl (Prod.mk.inj (Option.some.inj h)).2.symm
    · obtain ⟨now, -, heq⟩ := Option.map_eq_some_iff.1 h
      rw [← (Prod.mk.inj heq).2]
      split_ifs
      · exact Or.inl rfl
      · exact Or.inr rfl

theorem Handheld.of_set {ok : Bool} (h : s.Handheld) (hset : s.setPLLDHandheldRefreshRate nv rate = some (ok, t))
    (hregisters : t.base.ReadsHandheld) : t.Handheld := by
  rcases setPLLDHandheldRefreshRate_state hset with rfl | rfl
  · exact h
  · exact ⟨h.initialized, h.mapped, h.standard, hregisters⟩

/-- a request that gets at the panel keeps the registers or writes them -/
theorem Handheld.setPLLD_eq (h : s.Handheld) (hopens : nv.disp0.opens = true) (hpanel : nv.disp0.panelData = 0x75c) (rate : ℕ) :
    s.setPLLDHandheldRefreshRate nv rate = some (true,
      if refreshRateNow s.base s.misc = some (normalisedRate 4 rate) then s else s.programmed (normalisedRate 4 rate)) := by
  obtain ⟨value, hvalue, hzero, hdocked⟩ := h.registers
  have hnow : refreshRateNow s.base s.misc = some _ := refreshRateNow_of_divM h.registers.divM_pos
  unfold setPLLDHandheldRefreshRate
  rw [if_neg (by simp [h.mapped, hopens, hpanel]), hvalue, Option.bind_some, if_neg (by simp [hzero, hdocked]), hnow,
    Option.map_some]
  simp only [Option.some_inj]

theorem Handheld.step_setRate (h : s.Handheld) (hrate : 0 < rate) (hpanel : nv.disp1.panelData = 0x75c) :
    s.step (.setRate nv rate) = (s.setPLLDHandheldRefreshRate nv rate).map Prod.snd := by
  have hset : s.setRate nv rate = s.setPLLDHandheldRefreshRate nv rate ∨
      s.setRate nv rate = (s.setPLLDHandheldRefreshRate nv rate).map fun r => (false, r.2) := by
    unfold setRate
    rw [if_neg (by simp [h.initialized, hrate.ne']), if_neg (by simp [h.standard])]
    by_cases hbranch : (s.gConfig.isRetroSUPER = false ∧ s.gConfig.isLite = true) ∨ nv.disp1.opens = false
    · rw [if_pos hbranch]
      exact Or.inr rfl
    · rw [if_neg hbranch, if_pos (by simp [hpanel]), if_pos h.standard]
      exact Or.inl rfl
  rcases hset with hset | hset
  · exact congrArg (Option.map Prod.snd) hset
  · calc s.step (.setRate nv rate) = ((s.setPLLDHandheldRefreshRate nv rate).map fun r => (false, r.2)).map Prod.snd :=
        congrArg (Option.map Prod.snd) hset
      _ = (s.setPLLDHandheldRefreshRate nv rate).map Prod.snd := Option.map_map _ _ _

/-! ## One call -/

theorem Handheld.meets_getRate (h : s.Handheld) (nv : Nv) (internal : Bool) : s.Meets (.getRate nv internal) := by
  obtain ⟨hz, hhz⟩ : ∃ hz, handheldRate s.base s.misc = some hz := ⟨_, handheldRate_of_divM h.registers.divM_pos⟩
  refine ⟨hz, s.readHandheld hz, ?_, rfl⟩
  rw [h.getRate_eq, hhz, Option.map_some]

/-- what a request comes down to, from the state it leaves -/
theorem Handheld.meets_iff_of_set (h : s.Handheld) (hc : (DisplayCall.setRate nv rate).Undocked)
    (hset : s.setPLLDHandheldRefreshRate nv rate = some (true, t)) :
    s.Meets (.setRate nv rate) ↔
      t.base.ReadsHandheld ∧ handheldRate t.base t.misc = some (normalisedRate 4 rate) := by
  obtain ⟨hrate, -, hpanel⟩ := hc
  constructor
  · intro hm
    obtain ⟨ok, u, hu, -, -, hget, hregisters⟩ := hm
    rw [hset] at hu
    obtain ⟨rfl, rfl⟩ := Prod.mk.inj (Option.some.inj hu)
    exact ⟨hregisters, ((h.of_set hset hregisters).getRate_iff nv false _).1 (hget rfl nv false)⟩
  · intro hread
    obtain ⟨hregisters, hhz⟩ := hread
    refine ⟨true, t, hset, ?_, fun _ => rfl, ?_, hregisters⟩
    · rw [h.step_setRate hrate hpanel, hset, Option.map_some]
    · intro _ nv' internal
      exact ((h.of_set hset hregisters).getRate_iff nv' internal _).2 hhz

theorem Handheld.meets_setRate_iff (h : s.Handheld) (hc : (DisplayCall.setRate nv rate).Undocked) :
    s.Meets (.setRate nv rate) ↔ s.Settable (.setRate nv rate) := by
  obtain ⟨hlo, hhi⟩ := normalisedRate_bounds 4 rate
  have hM := h.registers.divM_pos
  have hmax : rate < 80 ↔ normalisedRate 4 rate ≠ 80 := by
    rw [← Nat.not_le, ← normalisedRate_eq_max_iff]
  by_cases hopens : nv.disp0.opens = true
  · have hset := h.setPLLD_eq hopens hc.2.1 rate
    have hsettable : s.Settable (.setRate nv rate) ↔
        normalisedRate 4 rate ≠ 80 ∧ ¬ Aliases s.base s.misc (normalisedRate 4 rate) := by
      rw [← hmax]
      exact ⟨fun hs => hs hopens, fun hs _ => hs⟩
    rw [hsettable]
    by_cases hnow : refreshRateNow s.base s.misc = some (normalisedRate 4 rate)
    · -- nothing is written: 80 is out of the reach of a 32-bit product, and what counts is what `GetRate` reads
      rw [if_pos hnow] at hset
      obtain ⟨-, hwrapped, hproduct⟩ := (refreshRateNow_eq_some_iff hM hlo hhi).1 hnow
      rw [h.meets_iff_of_set hc hset, handheldRate_eq_some_iff hM hlo hhi hnow]
      exact and_congr (iff_of_true h.registers (by omega)) Iff.rfl
    · rw [if_neg hnow] at hset
      rw [h.meets_iff_of_set hc hset]
      have hclear : ¬ Aliases s.base s.misc (normalisedRate 4 rate) := by
        intro halias
        exact hnow ((refreshRateNow_eq_some_iff hM hlo hhi).2 ⟨halias.divM, halias.wrapped, halias.rate_eq⟩)
      exact and_congr (programPlld_readsHandheld_iff hlo hhi) (iff_of_true (programPlld_handheldRate hlo hhi) hclear)
  · -- the panel is not reached: the request fails and changes nothing
    have hclosed := Bool.eq_false_of_not_eq_true hopens
    have hset := setPLLDHandheldRefreshRate_closed (s := s) hclosed rate
    apply iff_of_true
    · refine ⟨false, s, hset, ?_, fun ho => absurd ho hopens, fun hok => absurd hok (by decide), h.registers⟩
      rw [h.step_setRate hc.1 hc.2.2, hset, Option.map_some]
    · exact fun ho => absurd ho hopens

theorem Handheld.meets_iff (h : s.Handheld) {c : DisplayCall} (hc : c.Undocked) : s.Meets c ↔ s.Settable c := by
  cases c with
  | setRate nv rate => exact h.meets_setRate_iff hc
  | getRate nv internal => exact iff_of_true (h.meets_getRate nv internal) trivial

theorem Handheld.step (h : s.Handheld) {c : DisplayCall} (hc : c.Undocked) (hm : s.Meets c) (ht : s.step c = some t) :
    t.Handheld := by
  cases c with
  | setRate nv rate =>
    obtain ⟨ok, u, hset, hu, -, -, hregisters⟩ := hm
    obtain rfl : u = t := Option.some.inj (hu.symm.trans ht)
    exact h.of_set hset hregisters
  | getRate nv internal =>
    rw [DisplayState.step, h.getRate_eq, Option.map_map] at ht
    obtain ⟨hz, -, rfl⟩ := Option.map_eq_some_iff.1 ht
    exact h.readHandheld hz

/-! ## Runs -/

/-- **Handheld runs.** In every run of requests and readings on a handheld console, each call does what it is to do exactly
when each request that gets at the panel is below 80 and is not aliased by the registers it finds. -/
theorem handheld_run_iff (h : s.Handheld) (calls : List DisplayCall) (hcalls : ∀ c ∈ calls, c.Undocked) :
    AllSteps DisplayState.step Meets s calls ↔ AllSteps DisplayState.step Settable s calls := by
  apply AllSteps.congr_inv Handheld (allSteps_of_forall hcalls) h
  · intro u c hu hc
    exact hu.meets_iff hc
  · intro u c v hu hc hm hv
    exact hu.step hc hm hv

/-- a request that gets at the panel is below 80 -/
def BelowEighty : DisplayCall → Prop
  | .setRate nv rate => nv.disp0.opens = true → rate < 80
  | .getRate _ _ => True

/-- no call brings the product of the registers to 2 ^ 32 -/
theorem Handheld.step_pllProduct (h : s.Handheld) {c : DisplayCall} (hc : c.Undocked) (ht : s.step c = some t)
    (hsmall : pllProduct s.base s.misc < 2 ^ 32) : pllProduct t.base t.misc < 2 ^ 32 := by
  cases c with
  | setRate nv rate =>
    obtain ⟨hlo, hhi⟩ := normalisedRate_bounds 4 rate
    rw [h.step_setRate hc.1 hc.2.2] at ht
    obtain ⟨⟨ok, u⟩, hset, rfl⟩ := Option.map_eq_some_iff.1 ht
    rcases setPLLDHandheldRefreshRate_state hset with hu | hu
    · rwa [hu]
    · have hproduct := programPlld_pllProduct hlo hhi
      rw [hu]
      change pllProduct (programPlld _).1 (programPlld _).2 < _
      omega
  | getRate nv internal =>
    rw [DisplayState.step, h.getRate_eq, Option.map_map] at ht
    obtain ⟨hz, -, rfl⟩ := Option.map_eq_some_iff.1 ht
    exact hsmall

/-- from registers whose product is below 2 ^ 32 no request is aliased: the bound of 80 is the whole condition -/
theorem Handheld.settable_of_belowEighty (h : s.Handheld) (hsmall : pllProduct s.base s.misc < 2 ^ 32)
    (calls : List DisplayCall) (hcalls : ∀ c ∈ calls, c.Undocked ∧ BelowEighty c) :
    AllSteps DisplayState.step Settable s calls := by
  have hsettable : ∀ (u : DisplayState) (c : DisplayCall), u.Handheld ∧ pllProduct u.base u.misc < 2 ^ 32 →
      c.Undocked ∧ BelowEighty c → u.Settable c := by
    intro u c hu hc
    cases c with
    | setRate nv rate =>
      intro hopens
      exact ⟨hc.2 hopens, fun halias => absurd halias.overflow (not_le.2 hu.2)⟩
    | getRate nv internal => trivial
  have hguard : AllSteps DisplayState.step (fun _ c => c.Undocked ∧ BelowEighty c) s calls := allSteps_of_forall hcalls
  refine hguard.of_inv (fun u => u.Handheld ∧ pllProduct u.base u.misc < 2 ^ 32) ?_ hsettable ⟨h, hsmall⟩
  intro u c v hu hc hv
  have hm := (hu.1.meets_iff hc.1).2 (hsettable u c hu hc)
  exact ⟨hu.1.step hc.1 hm hv, hu.1.step_pllProduct hc.1 hv hu.2⟩

/-! ## Witnesses -/

/-- a console in handheld mode at 60 Hz -/
def sampleDisplay : DisplayState where
  gConfig := ⟨0x60006000, false, false, false, false, false⟩
  gInitialized := true
  gDockedHighestRefreshRate := 60
  gWasRetroSuperTurnedOff := false
  gLastVActive := 1080
  gCanChangeRefreshRateDocked := false
  value := 60
  base := ⟨1, 24⟩
  misc := ⟨BitVec.ofInt 16 (-1024)⟩
  submitted0 := []
  submitted1 := []

/-- a head that opens and answers the panel read as in handheld mode -/
def handheldHead : NvHead := ⟨true, 0x75c, none, fun _ => false⟩

def handheldNv : Nv := ⟨handheldHead, handheldHead, false, 60⟩

theorem sampleDisplay_handheld : sampleDisplay.Handheld :=
  ⟨rfl, by decide, rfl, 60, by decide, by decide, by decide⟩

example : handheldRate sampleDisplay.base sampleDisplay.misc = some 60 := by decide

/-- 75, 20 and 45 Hz, with readings in between -/
def sampleCalls : List DisplayCall :=
  [.setRate handheldNv 75, .getRate handheldNv false, .setRate handheldNv 20, .setRate handheldNv 45, .getRate handheldNv true]

theorem sampleCalls_undocked : ∀ c ∈ sampleCalls, c.Undocked ∧ BelowEighty c := by
  unfold sampleCalls
  simp [DisplayCall.Undocked, BelowEighty, handheldNv, handheldHead]

theorem sampleCalls_met : AllSteps DisplayState.step Meets sampleDisplay sampleCalls := by
  have hcalls := sampleCalls_undocked
  apply (handheld_run_iff sampleDisplay_handheld sampleCalls fun c hc => (hcalls c hc).1).2
  exact sampleDisplay_handheld.settable_of_belowEighty (by decide) sampleCalls hcalls

/-- **80 Hz.** The request succeeds; then `GetRate` takes the console for docked, and no later request succeeds. -/
theorem rate_eighty_docks : (DisplayCall.setRate handheldNv 80).Undocked ∧ sampleDisplay.Handheld ∧
    sampleDisplay.setRate handheldNv 80 = some (true, sampleDisplay.programmed 80) ∧
    (∃ u, (sampleDisplay.programmed 80).getRate handheldNv false = some (none, u) ∧ u.gConfig.isDocked = true ∧
      u.setPLLDHandheldRefreshRate handheldNv 60 = some (false, u)) ∧
    ¬ AllSteps DisplayState.step Meets sampleDisplay [.setRate handheldNv 80] := by
  refine ⟨⟨by decide, rfl, rfl⟩, sampleDisplay_handheld, rfl, ⟨_, rfl, rfl, rfl⟩, ?_⟩
  intro h
  have hset := (sampleDisplay_handheld.meets_setRate_iff ⟨by decide, rfl, rfl⟩).1 h.1
  exact absurd (hset rfl).1 (by decide)

end DisplayState

end RyazhaClk.Display
