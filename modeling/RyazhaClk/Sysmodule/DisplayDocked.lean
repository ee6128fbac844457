/-
The rate of a docked display (`_setNvDispDockedRefreshRate`): a row of the table is selected, and the mode is given that row's
timings or, at 720p, a pixel clock for the timings it has. The rows are those of 1080p; 480p is given them too.

- `dockedIndex_spec`: the row selected is the greatest one that is wanted and allowed.
- `timings1080p_rate`, `timings480p_rate`: the rows run at their rates at 1080p, and none does at 480p.
- `pclk720p_rate_iff`: when the pixel clock for 720p is read back as the rate it was made for.
- `dockedCorrect_iff`: the mode submitted runs at the selected rate, and a second call finds it so, exactly when the display
  runs at it already, at 1080p, or at 720p with totals for which the clock is read back.
- `mode480p_overclocked`: 480p asked for 60 Hz is submitted with a clock for 282.
-/
import Mathlib.Tactic
import RyazhaClk.Lib.Ascending
import RyazhaClk.Sysmodule.Display

namespace RyazhaClk.Display

open Ascending DisplayState

/-! ## The row selected -/

/-- the rate wanted for a request: 60 for its divisors, the least rate that is a multiple of it, or else the least one above
it, if that is configured, or 60 -/
def wantedRate (matchLowestDocked : Bool) (rate : ℕ) : ℕ :=
  if rate ∣ 60 then 60
  else ((gDockedRefreshRates.find? (rate ∣ ·)).or
    (if matchLowestDocked then gDockedRefreshRates.find? (rate < ·) else some 60)).getD 60

/-- the greatest rate of the table that is allowed and at most the one wanted -/
def Selects (matchLowestDocked : Bool) (highest rate selected : ℕ) : Prop :=
  IsGreatest {e | e ∈ gDockedRefreshRates ∧ e ≤ wantedRate matchLowestDocked rate ∧ e ≤ highest} selected

/-- the index of the row before it is clamped -/
def wantedIndex (matchLowestDocked : Bool) (rate : ℕ) : Option ℕ :=
  let divisor := if rate ≤ 60 ∧ 60 % rate = 0 then getDockedRefreshRateIterator 60 else none
  let multiple := divisor.or (gDockedRefreshRates.findIdx? fun val => val % rate = 0)
  let lowest := multiple.or
    (if matchLowestDocked then gDockedRefreshRates.findIdx? (rate < ·) else getDockedRefreshRateIterator 60)
  lowest.or (getDockedRefreshRateIterator 60)

variable {matchLowestDocked : Bool} {highest rate selected itr w : ℕ}

theorem dockedIndex_eq (matchLowestDocked : Bool) (highest rate : ℕ) :
    dockedIndex matchLowestDocked highest rate = (wantedIndex matchLowestDocked rate).map (clampToHighest highest) := rfl

theorem gDockedRefreshRates_pairwise : gDockedRefreshRates.Pairwise (· < ·) := by decide

/-- the index a search answers is that of the rate it finds -/
theorem findIdx?_cases (p : ℕ → Bool) : (∃ i v, gDockedRefreshRates.findIdx? p = some i ∧ gDockedRefreshRates[i]? = some v ∧
    gDockedRefreshRates.find? p = some v) ∨
    gDockedRefreshRates.findIdx? p = none ∧ gDockedRefreshRates.find? p = none := by
  have hfind : gDockedRefreshRates.find? p = _ := List.find?_eq_bind_findIdx?_getElem?
  cases hidx : gDockedRefreshRates.findIdx? p with
  | none => exact Or.inr ⟨rfl, by rw [hfind, hidx]; rfl⟩
  | some i =>
    obtain ⟨hi, -⟩ := List.findIdx?_eq_some_iff_getElem.1 hidx
    refine Or.inl ⟨i, gDockedRefreshRates[i], rfl, List.getElem?_eq_getElem hi, ?_⟩
    rw [hfind, hidx]
    exact List.getElem?_eq_getElem hi

/-- the four stages find the wanted rate -/
theorem wantedIndex_spec (matchLowestDocked : Bool) (rate : ℕ) : ∃ i, wantedIndex matchLowestDocked rate = some i ∧
    gDockedRefreshRates[i]? = some (wantedRate matchLowestDocked rate) := by
  have hsixty : getDockedRefreshRateIterator 60 = some 4 := by decide
  have hrow : gDockedRefreshRates[4]? = some 60 := rfl
  unfold wantedIndex wantedRate
  by_cases hdivides : rate ∣ 60
  · rw [if_pos ⟨Nat.le_of_dvd (by decide) hdivides, Nat.mod_eq_zero_of_dvd hdivides⟩, if_pos hdivides, hsixty]
    exact ⟨4, rfl, hrow⟩
  · have hcond : ¬ (rate ≤ 60 ∧ 60 % rate = 0) := fun h => hdivides (Nat.dvd_of_mod_eq_zero h.2)
    have hmultiple : (fun val => decide (val % rate = 0)) = fun val => decide (rate ∣ val) := by
      funext val
      simp only [Nat.dvd_iff_mod_eq_zero]
    rw [if_neg hcond, if_neg hdivides, hmultiple, hsixty]
    dsimp only
    rw [Option.none_or]
    rcases findIdx?_cases (rate ∣ ·) with ⟨i, v, hi, hv, hfind⟩ | ⟨hi, hfind⟩
    · rw [hi, hfind]
      exact ⟨i, rfl, hv⟩
    · rw [hi, hfind]
      cases matchLowestDocked with
      | false => exact ⟨4, rfl, hrow⟩
      | true =>
        rw [if_pos rfl, if_pos rfl]
        rcases findIdx?_cases (rate < ·) with ⟨i, v, hi, hv, hfind⟩ | ⟨hi, hfind⟩
        · rw [hi, hfind]
          exact ⟨i, rfl, hv⟩
        · rw [hi, hfind]
          exact ⟨4, rfl, hrow⟩

/-- the row at an index is allowed -/
def rowAllowed (highest i : ℕ) : Bool := gDockedRefreshRates[i]?.any (· ≤ highest)

/-- the loop down the table answers the last index that is allowed -/
theorem clampToHighest_spec (hallowed : 60 ≤ highest) (itr : ℕ) :
    IsGreatest {i | i ∈ List.range (itr + 1) ∧ rowAllowed highest i = true} (clampToHighest highest itr) := by
  have hfirst : rowAllowed highest 0 = true := decide_eq_true (by omega)
  have hsome : ((List.range (itr + 1)).reverse.find? (rowAllowed highest)).isSome :=
    List.find?_isSome.2 ⟨0, by simp, hfirst⟩
  obtain ⟨i, hi⟩ := Option.isSome_iff_exists.1 hsome
  have hclamp : clampToHighest highest itr = i := by
    have hdef : clampToHighest highest itr = ((List.range (itr + 1)).reverse.find? (rowAllowed highest)).getD itr := rfl
    rw [hdef, hi, Option.getD_some]
  rw [hclamp]
  exact isGreatest_find?_reverse (List.pairwise_lt_range.imp le_of_lt) hi

/-- **The row selected.** -/
theorem dockedIndex_spec (hallowed : 60 ≤ highest) (matchLowestDocked : Bool) (rate : ℕ) :
    ∃ itr selected, dockedIndex matchLowestDocked highest rate = some itr ∧ gDockedRefreshRates[itr]? = some selected ∧
      Selects matchLowestDocked highest rate selected := by
  obtain ⟨itr, hitr, hwanted⟩ := wantedIndex_spec matchLowestDocked rate
  obtain ⟨⟨hle, hrow⟩, hgreatest⟩ := clampToHighest_spec hallowed itr
  rw [List.mem_range, Nat.lt_succ_iff] at hle
  obtain ⟨selected, hselected, hallow⟩ := Option.any_eq_true _ _ |>.1 hrow
  refine ⟨clampToHighest highest itr, selected, by rw [dockedIndex_eq, hitr, Option.map_some], hselected, ?_⟩
  obtain ⟨hi, hget⟩ := List.getElem?_eq_some_iff.1 hselected
  obtain ⟨hw, hgetw⟩ := List.getElem?_eq_some_iff.1 hwanted
  have hsorted := List.pairwise_iff_getElem.1 gDockedRefreshRates_pairwise
  have hmono : ∀ i j (hi : i < gDockedRefreshRates.length) (hj : j < gDockedRefreshRates.length),
      i ≤ j → gDockedRefreshRates[i] ≤ gDockedRefreshRates[j] := by
    intro i j hi hj hij
    rcases hij.lt_or_eq with hlt | rfl
    · exact (hsorted i j hi hj hlt).le
    · exact le_rfl
  refine ⟨⟨List.mem_of_getElem? hselected, ?_, of_decide_eq_true hallow⟩, ?_⟩
  · rw [← hget, ← hgetw]
    exact hmono _ _ hi hw hle
  · rintro e ⟨he, hewanted, hehighest⟩
    obtain ⟨j, hj, rfl⟩ := List.mem_iff_getElem.1 he
    -- an index above the wanted one has a rate above it
    have hjle : j ≤ itr := by
      by_contra hlt
      have hgt := hsorted itr j hw hj (not_le.1 hlt)
      omega
    have hjrow : rowAllowed highest j = true := by
      rw [rowAllowed, List.getElem?_eq_getElem hj]
      exact decide_eq_true hehighest
    rw [← hget]
    exact hmono _ _ hj hi (hgreatest ⟨List.mem_range.2 (Nat.lt_succ_of_le hjle), hjrow⟩)

/-! ## The mode submitted -/

/-- the rate of a row's timings at a resolution -/
def rowRate (hActive vActive : UInt32) (t : DockedTimings) : Option ℕ :=
  quotient (t.pixelClock_kHz * 1000 + 999).toNat
    ((hActive + t.hFrontPorch + t.hSyncWidth + t.hBackPorch) * (vActive + t.vFrontPorch + t.vSyncWidth + t.vBackPorch)).toNat

theorem timings1080p_rate : ∀ i < gDockedTimings1080p.length,
    (gDockedTimings1080p[i]?.bind (rowRate 1920 1080)) = gDockedRefreshRates[i]? := by
  decide +kernel

/-- at 480p every row runs faster than its rate -/
theorem timings480p_rate : ∀ i < gDockedTimings1080p.length,
    (gDockedTimings1080p[i]?.bind (rowRate 720 480)) ≠ gDockedRefreshRates[i]? := by
  decide +kernel

/-- the row's timings, for a mode that is not 720p -/
theorem withDocked_rows {mode : NvdcMode2} (hv : mode.vActive ≠ 720) (hitr : itr < gDockedTimings1080p.length)
    (selected : ℕ) : ∃ next, mode.withDocked itr selected = some next ∧ next.hActive = mode.hActive ∧
      next.vActive = mode.vActive ∧ next.pclkKHz ≠ 0 ∧
      next.refreshRateNow = gDockedTimings1080p[itr]?.bind (rowRate mode.hActive mode.vActive) := by
  have hclock : ∀ t ∈ gDockedTimings1080p, t.pixelClock_kHz ≠ 0 := by decide
  rw [NvdcMode2.withDocked, if_neg hv, List.getElem?_eq_getElem hitr, Option.map_some]
  exact ⟨_, rfl, rfl, rfl, hclock _ (List.getElem_mem hitr), rfl⟩

/-- the mode of 720p with its pixel clock for a rate -/
theorem withDocked_720p {mode : NvdcMode2} (hv : mode.vActive = 720) (itr selected : ℕ) : mode.withDocked itr selected =
    some { mode with pclkKHz := (mode.hTotal * mode.vTotal) * UInt32.ofNat selected / 1000 } := if_pos hv

/-- a clock for a rate, cut to whole kHz, is read back as that rate -/
theorem pclk720p_rate_iff {total : ℕ} (htotal : total ≠ 0) (selected : ℕ) :
    ((total * selected % 2 ^ 32 / 1000 * 1000 + 999) % 2 ^ 32 / total = selected ∧ total * selected % 2 ^ 32 / 1000 ≠ 0) ↔
      1000 ≤ total * selected ∧ total * selected < 4294967000 ∧ 999 < total + total * selected % 1000 := by
  have hdiv : ∀ n, n / total = selected ↔ total * selected ≤ n ∧ n < total * selected + total := by
    intro n
    rw [Nat.div_eq_iff (Nat.pos_of_ne_zero htotal), Nat.mul_comm selected total]
    omega
  rw [hdiv]
  generalize total * selected = product
  omega

/-- the number of pixels of a frame, in 32 bits -/
def NvdcMode2.total (m : NvdcMode2) : ℕ := (m.hTotal * m.vTotal).toNat

theorem refreshRateNow_eq (m : NvdcMode2) : m.refreshRateNow =
    if m.total = 0 then none else some ((m.pclkKHz.toNat * 1000 + 999) % 2 ^ 32 / m.total) := by
  unfold NvdcMode2.refreshRateNow NvdcMode2.total quotient
  rw [UInt32.toNat_add, UInt32.toNat_mul]
  simp

theorem withDocked_720p_rate_iff {mode next : NvdcMode2} (hv : mode.vActive = 720) (htotal : mode.total ≠ 0)
    (hselected : selected < 2 ^ 32) (hnext : mode.withDocked itr selected = some next) :
    next.hActive = mode.hActive ∧ next.vActive = mode.vActive ∧ (next.refreshRateNow = some selected ∧ next.pclkKHz ≠ 0 ↔
      1000 ≤ mode.total * selected ∧ mode.total * selected < 4294967000 ∧ 999 < mode.total + mode.total * selected % 1000) := by
  rw [withDocked_720p hv] at hnext
  obtain rfl := Option.some.inj hnext
  refine ⟨rfl, rfl, ?_⟩
  rw [← pclk720p_rate_iff htotal, refreshRateNow_eq]
  have hsame : NvdcMode2.total { mode with pclkKHz := (mode.hTotal * mode.vTotal) * UInt32.ofNat selected / 1000 } =
      mode.total := rfl
  have hclock : ((mode.hTotal * mode.vTotal) * UInt32.ofNat selected / 1000).toNat = mode.total * selected % 2 ^ 32 / 1000 := by
    rw [UInt32.toNat_div, UInt32.toNat_mul, UInt32.toNat_ofNat_of_lt' hselected]
    rfl
  have hzero : ((mode.hTotal * mode.vTotal) * UInt32.ofNat selected / 1000) ≠ 0 ↔
      mode.total * selected % 2 ^ 32 / 1000 ≠ 0 := by
    rw [← hclock, ne_eq, ← UInt32.toNat_inj]
    rfl
  rw [hsame, if_neg htotal, hzero, hclock, Option.some_inj]

/-! ## The call -/

/-- a request gets past the checks at the start of the call, with the display at a mode -/
structure DockedReady (s : DisplayState) (mode : NvdcMode2) (rate : ℕ) : Prop where
  positive : 0 < rate
  notLite : s.gConfig.isLite = false
  changeable : s.gCanChangeRefreshRateDocked = true
  clock : mode.pclkKHz ≠ 0
  accepted : mode.accepted = true

/-- the driver answers the mode -/
def Nv.AtMode (nv : Nv) (mode : NvdcMode2) : Prop := nv.disp1.opens = true ∧ nv.disp1.mode = some mode

/-- a mode the driver accepts is set -/
def DisplayState.submitDocked (s : DisplayState) (nv : Nv) (next : NvdcMode2) : DisplayState :=
  if nv.disp1.validates next then { s with submitted1 := s.submitted1 ++ [next] } else s

/-- the index selected is one of the table, with a rate that is allowed; and the display runs at that rate already, or is given
a mode that does, with which the same call finds it so -/
def DockedCorrect (s : DisplayState) (mode : NvdcMode2) (rate : ℕ) : Prop :=
  ∃ itr selected, dockedIndex s.gConfig.matchLowestDocked s.gDockedHighestRefreshRate rate = some itr ∧
    gDockedRefreshRates[itr]? = some selected ∧ selected ≤ s.gDockedHighestRefreshRate ∧
    ((mode.refreshRateNow = some selected ∧ ∀ nv : Nv, nv.AtMode mode → s.setNvDispDockedRefreshRate nv rate = some (true, s)) ∨
      ∃ next : NvdcMode2, next.refreshRateNow = some selected ∧ ∀ nv : Nv, nv.AtMode mode →
        s.setNvDispDockedRefreshRate nv rate = some (true, s.submitDocked nv next) ∧
        ∀ nv' : Nv, nv'.AtMode next →
          (s.submitDocked nv next).setNvDispDockedRefreshRate nv' rate = some (true, s.submitDocked nv next))

/-- 720p, with totals for which the clock of a rate is read back -/
def ReadBack720p (mode : NvdcMode2) (selected : ℕ) : Prop :=
  mode.vActive = 720 ∧ 1000 ≤ mode.total * selected ∧ mode.total * selected < 4294967000 ∧
    999 < mode.total + mode.total * selected % 1000

/-- the display runs at the selected rate, or is at 1080p, or at 720p with a clock that is read back -/
def DockedOk (s : DisplayState) (mode : NvdcMode2) (rate : ℕ) : Prop :=
  mode.total ≠ 0 ∧ ∃ selected, Selects s.gConfig.matchLowestDocked s.gDockedHighestRefreshRate rate selected ∧
    (mode.refreshRateNow = some selected ∨ mode.vActive = 1080 ∨ ReadBack720p mode selected)

variable {s : DisplayState} {mode next : NvdcMode2} {nv : Nv}

/-- a call that gets past the checks -/
theorem DockedReady.set_eq (h : DockedReady s mode rate) (hnv : nv.AtMode mode)
    (hitr : dockedIndex s.gConfig.matchLowestDocked s.gDockedHighestRefreshRate rate = some itr)
    (hselected : gDockedRefreshRates[itr]? = some selected) :
    s.setNvDispDockedRefreshRate nv rate = mode.refreshRateNow.bind fun now =>
      if now = selected then some (true, s)
      else (mode.withDocked itr selected).map fun next => (true, s.submitDocked nv next) := by
  unfold setNvDispDockedRefreshRate
  rw [if_neg (by simp [h.notLite, h.changeable, hnv.1]), hnv.2]
  dsimp only
  rw [if_neg (by simp [h.clock, h.accepted]), hitr]
  simp only [Option.bind_some, hselected]
  rfl

theorem submitDocked_ready (h : DockedReady s mode rate) (hclock : next.pclkKHz ≠ 0) (hactive : next.hActive = mode.hActive)
    (hvactive : next.vActive = mode.vActive) (nv : Nv) : DockedReady (s.submitDocked nv next) next rate := by
  have hsame : next.accepted = mode.accepted := by rw [NvdcMode2.accepted, NvdcMode2.accepted, hactive, hvactive]
  unfold DisplayState.submitDocked
  split_ifs
  · exact ⟨h.positive, h.notLite, h.changeable, hclock, hsame.trans h.accepted⟩
  · exact ⟨h.positive, h.notLite, h.changeable, hclock, hsame.trans h.accepted⟩

theorem dockedIndex_submitDocked (s : DisplayState) (nv : Nv) (next : NvdcMode2) (rate : ℕ) :
    dockedIndex (s.submitDocked nv next).gConfig.matchLowestDocked (s.submitDocked nv next).gDockedHighestRefreshRate rate =
      dockedIndex s.gConfig.matchLowestDocked s.gDockedHighestRefreshRate rate := by
  unfold DisplayState.submitDocked
  split_ifs <;> rfl

/-- a mode that runs at the selected rate is recognised by the same call -/
theorem recognised (h : DockedReady s next rate)
    (hitr : dockedIndex s.gConfig.matchLowestDocked s.gDockedHighestRefreshRate rate = some itr)
    (hselected : gDockedRefreshRates[itr]? = some selected) (hnow : next.refreshRateNow = some selected)
    (hnv : nv.AtMode next) : s.setNvDispDockedRefreshRate nv rate = some (true, s) := by
  rw [h.set_eq hnv hitr hselected, hnow, Option.bind_some, if_pos rfl]

/-- a mode without a pixel clock is turned away -/
theorem set_noClock (hclock : next.pclkKHz = 0) (hnv : nv.AtMode next) :
    s.setNvDispDockedRefreshRate nv rate = some (false, s) := by
  unfold setNvDispDockedRefreshRate
  split_ifs
  · rfl
  · rw [hnv.2]
    exact if_pos (Or.inl hclock)

/-- a driver that accepts every mode -/
def acceptingNv (mode : NvdcMode2) : Nv :=
  let head : NvHead := ⟨true, 0, some mode, fun _ => true⟩
  ⟨head, head, true, 60⟩

theorem acceptingNv_atMode (mode : NvdcMode2) : (acceptingNv mode).AtMode mode := ⟨rfl, rfl⟩

theorem submitDocked_acceptingNv (s : DisplayState) (mode next : NvdcMode2) :
    s.submitDocked (acceptingNv mode) next = { s with submitted1 := s.submitted1 ++ [next] } := if_pos rfl

theorem submitDocked_inj {next' : NvdcMode2}
    (h : s.submitDocked (acceptingNv mode) next = s.submitDocked (acceptingNv mode) next') : next = next' := by
  rw [submitDocked_acceptingNv, submitDocked_acceptingNv] at h
  have hlist := congrArg DisplayState.submitted1 h
  exact List.singleton_inj.1 (List.append_cancel_left hlist)

/-- the mode made for a row keeps the resolution, and runs at the row's rate at 1080p, or at 720p if its clock is read back -/
theorem withDocked_spec (haccepted : mode.accepted = true) (htotal : mode.total ≠ 0)
    (hselected : gDockedRefreshRates[itr]? = some selected) : ∃ next, mode.withDocked itr selected = some next ∧
      next.hActive = mode.hActive ∧ next.vActive = mode.vActive ∧
      (next.refreshRateNow = some selected ∧ next.pclkKHz ≠ 0 ↔ mode.vActive = 1080 ∨ ReadBack720p mode selected) := by
  have hitr : itr < gDockedTimings1080p.length := (List.getElem?_eq_some_iff.1 hselected).1
  rw [NvdcMode2.accepted, decide_eq_true_eq] at haccepted
  rcases haccepted with ⟨hv, hh⟩ | ⟨hv, -⟩ | ⟨hv, hh⟩
  · obtain ⟨next, hnext, hactive, hvactive, -, hrate⟩ := withDocked_rows (by rw [hv]; decide) hitr selected
    refine ⟨next, hnext, hactive, hvactive, iff_of_false ?_ ?_⟩
    · rintro ⟨hnow, -⟩
      rw [hh, hv] at hrate
      exact timings480p_rate itr hitr (hrate.symm.trans (hnow.trans hselected.symm))
    · rintro (h | ⟨h, -⟩)
      · exact absurd (hv.symm.trans h) (by decide)
      · exact absurd (hv.symm.trans h) (by decide)
  · have hsmall : selected < 2 ^ 32 := by
      have hle : ∀ r ∈ gDockedRefreshRates, r < 2 ^ 32 := by decide
      exact hle selected (List.mem_of_getElem? hselected)
    obtain ⟨hactive, hvactive, hiff⟩ := withDocked_720p_rate_iff hv htotal hsmall (withDocked_720p hv itr selected)
    refine ⟨_, withDocked_720p hv itr selected, hactive, hvactive, hiff.trans ⟨fun h => Or.inr ⟨hv, h⟩, ?_⟩⟩
    rintro (h | h)
    · exact absurd (hv.symm.trans h) (by decide)
    · exact h.2
  · obtain ⟨next, hnext, hactive, hvactive, hclock, hrate⟩ := withDocked_rows (by rw [hv]; decide) hitr selected
    rw [hh, hv, timings1080p_rate itr hitr, hselected] at hrate
    exact ⟨next, hnext, hactive, hvactive, iff_of_true ⟨hrate, hclock⟩ (Or.inl hv)⟩

/-- a mode without pixels makes the call divide by zero -/
theorem DockedReady.not_correct (h : DockedReady s mode rate) (hallowed : 60 ≤ s.gDockedHighestRefreshRate)
    (htotal : mode.total = 0) : ¬ DockedCorrect s mode rate := by
  obtain ⟨itr, selected, hitr, hselected, -⟩ := dockedIndex_spec hallowed s.gConfig.matchLowestDocked rate
  have hnone : s.setNvDispDockedRefreshRate (acceptingNv mode) rate = none := by
    rw [h.set_eq (acceptingNv_atMode mode) hitr hselected, refreshRateNow_eq, if_pos htotal, Option.bind_none]
  rintro ⟨_, _, -, -, -, ⟨-, hset⟩ | ⟨next, -, hset⟩⟩
  · exact absurd (hnone.symm.trans (hset _ (acceptingNv_atMode mode))) (by simp)
  · exact absurd (hnone.symm.trans (hset _ (acceptingNv_atMode mode)).1) (by simp)

/-- a display at another rate is given the mode made for the row -/
theorem DockedReady.set_other (h : DockedReady s mode rate)
    (hitr : dockedIndex s.gConfig.matchLowestDocked s.gDockedHighestRefreshRate rate = some itr)
    (hselected : gDockedRefreshRates[itr]? = some selected) (htotal : mode.total ≠ 0)
    (hother : mode.refreshRateNow ≠ some selected) (hnext : mode.withDocked itr selected = some next) (hnv : nv.AtMode mode) :
    s.setNvDispDockedRefreshRate nv rate = some (true, s.submitDocked nv next) := by
  rw [refreshRateNow_eq, if_neg htotal, ne_eq, Option.some_inj] at hother
  rw [h.set_eq hnv hitr hselected, refreshRateNow_eq, if_neg htotal, Option.bind_some, if_neg hother, hnext, Option.map_some]

/-- the mode submitted is the only one that can be meant; the same call finds it at the rate if it has a pixel clock -/
theorem DockedReady.exists_submitted_iff (h : DockedReady s mode rate)
    (hitr : dockedIndex s.gConfig.matchLowestDocked s.gDockedHighestRefreshRate rate = some itr)
    (hselected : gDockedRefreshRates[itr]? = some selected) (hactive : next.hActive = mode.hActive)
    (hvactive : next.vActive = mode.vActive)
    (hset : ∀ nv : Nv, nv.AtMode mode → s.setNvDispDockedRefreshRate nv rate = some (true, s.submitDocked nv next)) :
    (∃ next : NvdcMode2, next.refreshRateNow = some selected ∧ ∀ nv : Nv, nv.AtMode mode →
        s.setNvDispDockedRefreshRate nv rate = some (true, s.submitDocked nv next) ∧
        ∀ nv' : Nv, nv'.AtMode next →
          (s.submitDocked nv next).setNvDispDockedRefreshRate nv' rate = some (true, s.submitDocked nv next)) ↔
      next.refreshRateNow = some selected ∧ next.pclkKHz ≠ 0 := by
  constructor
  · rintro ⟨next', hnow, hset'⟩
    obtain ⟨hfirst, hsecond⟩ := hset' _ (acceptingNv_atMode mode)
    have hstates := (hset _ (acceptingNv_atMode mode)).symm.trans hfirst
    obtain rfl : next = next' := submitDocked_inj (Prod.mk.inj (Option.some.inj hstates)).2
    refine ⟨hnow, fun hclock => ?_⟩
    have hfail := (set_noClock hclock (acceptingNv_atMode next)).symm.trans (hsecond _ (acceptingNv_atMode next))
    exact absurd (Prod.mk.inj (Option.some.inj hfail)).1 (by decide)
  · rintro ⟨hnow, hclock⟩
    refine ⟨next, hnow, fun nv hnv => ⟨hset nv hnv, fun nv' hnv' => ?_⟩⟩
    have hready := submitDocked_ready h hclock hactive hvactive nv
    exact recognised hready ((dockedIndex_submitDocked s nv next rate).trans hitr) hselected hnow hnv'

/-- the property, at the row selected -/
theorem dockedCorrect_iff_of_index
    (hitr : dockedIndex s.gConfig.matchLowestDocked s.gDockedHighestRefreshRate rate = some itr)
    (hselected : gDockedRefreshRates[itr]? = some selected) (hallow : selected ≤ s.gDockedHighestRefreshRate) :
    DockedCorrect s mode rate ↔
      (mode.refreshRateNow = some selected ∧ ∀ nv : Nv, nv.AtMode mode →
        s.setNvDispDockedRefreshRate nv rate = some (true, s)) ∨
      ∃ next : NvdcMode2, next.refreshRateNow = some selected ∧ ∀ nv : Nv, nv.AtMode mode →
        s.setNvDispDockedRefreshRate nv rate = some (true, s.submitDocked nv next) ∧
        ∀ nv' : Nv, nv'.AtMode next →
          (s.submitDocked nv next).setNvDispDockedRefreshRate nv' rate = some (true, s.submitDocked nv next) := by
  constructor
  · rintro ⟨itr', selected', hitr', hselected', -, hcase⟩
    obtain rfl := Option.some.inj (hitr.symm.trans hitr')
    obtain rfl := Option.some.inj (hselected.symm.trans hselected')
    exact hcase
  · exact fun hcase => ⟨itr, selected, hitr, hselected, hallow, hcase⟩

/-- the condition, at the rate selected -/
theorem dockedOk_iff_of_selects (hselects : Selects s.gConfig.matchLowestDocked s.gDockedHighestRefreshRate rate selected)
    (htotal : mode.total ≠ 0) :
    DockedOk s mode rate ↔ mode.refreshRateNow = some selected ∨ mode.vActive = 1080 ∨ ReadBack720p mode selected := by
  constructor
  · rintro ⟨-, selected', hselects', hcond⟩
    obtain rfl := hselects.unique hselects'
    exact hcond
  · exact fun hcond => ⟨htotal, selected, hselects, hcond⟩

/-- **The docked rate**, for every request, allowed rate and mode. -/
theorem dockedCorrect_iff (h : DockedReady s mode rate) (hallowed : 60 ≤ s.gDockedHighestRefreshRate) :
    DockedCorrect s mode rate ↔ DockedOk s mode rate := by
  by_cases htotal : mode.total = 0
  · exact iff_of_false (h.not_correct hallowed htotal) fun hok => hok.1 htotal
  · obtain ⟨itr, selected, hitr, hselected, hselects⟩ := dockedIndex_spec hallowed s.gConfig.matchLowestDocked rate
    rw [dockedCorrect_iff_of_index hitr hselected hselects.1.2.2, dockedOk_iff_of_selects hselects htotal]
    by_cases hnow : mode.refreshRateNow = some selected
    · exact iff_of_true (Or.inl ⟨hnow, fun nv hnv => recognised h hitr hselected hnow hnv⟩) (Or.inl hnow)
    · obtain ⟨next, hnext, hactive, hvactive, hrate⟩ := withDocked_spec h.accepted htotal hselected
      rw [or_iff_right fun hsame => hnow hsame.1, or_iff_right hnow, ← hrate]
      exact h.exists_submitted_iff hitr hselected hactive hvactive fun nv hnv =>
        h.set_other hitr hselected htotal hnow hnext hnv

/-! A docked console with rates up to 120 Hz. -/

def dockedState : DisplayState where
  gConfig := ⟨1, true, false, false, false, false⟩
  gInitialized := true
  gDockedHighestRefreshRate := 120
  gWasRetroSuperTurnedOff := false
  gLastVActive := 1080
  gCanChangeRefreshRateDocked := true
  value := 60
  base := ⟨0, 0⟩
  misc := ⟨0⟩
  submitted0 := []
  submitted1 := []

def mode720p : NvdcMode2 := ⟨1280, 720, 40, 5, 110, 5, 220, 20, 74250, 24, 0x200000, 3, 0⟩

def mode480p : NvdcMode2 := ⟨720, 480, 62, 6, 16, 9, 60, 30, 27000, 24, 0x200000, 0, 0⟩

theorem dockedCorrect_720p : DockedCorrect dockedState mode720p 120 := by
  refine (dockedCorrect_iff ⟨by decide, rfl, rfl, by decide, by decide⟩ (by decide)).2 ⟨by decide, 120, ?_, Or.inr (Or.inr ?_)⟩
  · exact ⟨⟨by decide, by decide, by decide⟩, fun e he => he.2.2⟩
  · exact ⟨rfl, by decide, by decide, by decide⟩

/-- 480p asked for 60 Hz is given the clock of 1080p -/
theorem mode480p_overclocked :
    ((dockedState.setNvDispDockedRefreshRate (acceptingNv mode480p) 60).map fun r =>
      r.2.submitted1.map NvdcMode2.refreshRateNow) = some [some 282] ∧ ¬ DockedCorrect dockedState mode480p 60 := by
  have hsubmitted : ((dockedState.setNvDispDockedRefreshRate (acceptingNv mode480p) 60).map fun r =>
      r.2.submitted1.map NvdcMode2.refreshRateNow) = some [some 282] := by decide
  refine ⟨hsubmitted, ?_⟩
  rintro ⟨itr, selected, hitr, hselected, -, hcase⟩
  obtain rfl : 4 = itr := Option.some.inj ((by decide : dockedIndex false 120 60 = some 4).symm.trans hitr)
  obtain rfl : 60 = selected := Option.some.inj hselected
  rcases hcase with ⟨hnow, -⟩ | ⟨next, hnow, hset⟩
  · exact absurd hnow (by decide)
  · rw [(hset _ (acceptingNv_atMode mode480p)).1, submitDocked_acceptingNv, Option.map_some] at hsubmitted
    dsimp only at hsubmitted
    rw [show dockedState.submitted1 = [] from rfl, List.nil_append, List.map_singleton, hnow] at hsubmitted
    exact absurd hsubmitted (by decide)

end RyazhaClk.Display
