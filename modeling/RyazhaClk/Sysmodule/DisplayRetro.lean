/-
The rate of a RETRO SUPER panel (`_setNvDispHandheldRefreshRate`): the mode is given the timings of one of 21 rows, one for
each rate from 40 Hz to 60 Hz. The row is taken as if there was one for every fifth rate.

- `timingsRetro_rate`: the rows run at 40 Hz, 41 Hz and so on.
- `retroCorrect_iff`: the panel runs at the normalised rate, or is given a mode that does, exactly when it runs at it already
  or the request is brought to 40.
- `retro_sixty_lost`: a request for 60 Hz is given the timings of 44 Hz.
-/
import RyazhaClk.Sysmodule.DisplayDocked

namespace RyazhaClk.Display

open DisplayState

/-- the number of rows bounds the multiples that are tried -/
def retroRate (rate : ℕ) : ℕ := normalisedRate gHandheldTimingsRETRO.length rate

/-- the row for a normalised rate -/
def retroIndex (rate : ℕ) : ℕ := (rate - 40) / 5

/-- a call gets past the checks at its start, with the panel at a mode -/
structure RetroReady (s : DisplayState) (mode : NvdcMode2) : Prop where
  retro : s.gConfig.isRetroSUPER = true
  clock : mode.pclkKHz ≠ 0
  panel : mode.vActive = 1280 ∧ mode.hActive = 720

def Nv.AtPanelMode (nv : Nv) (mode : NvdcMode2) : Prop := nv.disp0.opens = true ∧ nv.disp0.mode = some mode

namespace DisplayState

/-- both branches at the start of the call -/
def turnedOn (s : DisplayState) : DisplayState := { s with gWasRetroSuperTurnedOff := false }

/-- a mode the driver accepts is set five times -/
def submitRetro (s : DisplayState) (nv : Nv) (next : NvdcMode2) : DisplayState :=
  if nv.disp0.validates next then { s with submitted0 := s.submitted0 ++ List.replicate 5 next } else s

end DisplayState

/-- the row is one of the table, and the panel runs at the normalised rate already or is given a mode that does -/
def RetroCorrect (s : DisplayState) (mode : NvdcMode2) (rate : ℕ) : Prop :=
  retroIndex (retroRate rate) < gHandheldTimingsRETRO.length ∧
    ((mode.refreshRateNow = some (retroRate rate) ∧ ∀ nv : Nv, nv.AtPanelMode mode →
        s.setNvDispHandheldRefreshRate nv rate = some (true, s.turnedOn)) ∨
      ∃ next : NvdcMode2, next.refreshRateNow = some (retroRate rate) ∧ ∀ nv : Nv, nv.AtPanelMode mode →
        s.setNvDispHandheldRefreshRate nv rate = some (true, s.turnedOn.submitRetro nv next))

/-- the panel runs at the normalised rate, or the request is 40 Hz or brought to it -/
def RetroOk (mode : NvdcMode2) (rate : ℕ) : Prop :=
  mode.total ≠ 0 ∧ (mode.refreshRateNow = some (retroRate rate) ∨ rate ∈ [2, 4, 5, 8, 10, 40])

/-! ## The rows -/

variable {s : DisplayState} {mode next : NvdcMode2} {nv : Nv} {rate : ℕ}

theorem retroRate_bounds (rate : ℕ) : 40 ≤ retroRate rate ∧ retroRate rate ≤ 80 := normalisedRate_bounds _ rate

theorem retroIndex_lt (rate : ℕ) : retroIndex (retroRate rate) < gHandheldTimingsRETRO.length := by
  have hbounds := retroRate_bounds rate
  have hlength : gHandheldTimingsRETRO.length = 21 := rfl
  unfold retroIndex
  omega

/-- the rate of a row's timings on the panel -/
def retroRowRate (t : HandheldTimings) : Option ℕ :=
  quotient (t.pixelClock_kHz * 1000 + 999).toNat
    ((720 + t.hFrontPorch + t.hSyncWidth + t.hBackPorch) * (1280 + t.vFrontPorch + t.vSyncWidth + t.vBackPorch)).toNat

/-- **Each row runs one Hz faster than the one before.** -/
theorem timingsRetro_rate : ∀ i < gHandheldTimingsRETRO.length,
    (gHandheldTimingsRETRO[i]?.bind retroRowRate) = some (40 + i) := by
  decide +kernel

theorem retroRate_eq_min_iff : retroRate rate = 40 ↔ rate ∈ [2, 4, 5, 8, 10, 40] := by
  unfold retroRate
  rcases Nat.lt_or_ge rate 40 with hlo | hlo
  · have hsmall : ∀ r < 40, normalisedRate gHandheldTimingsRETRO.length r = 40 ↔ r ∈ [2, 4, 5, 8, 10, 40] := by decide +kernel
    exact hsmall rate hlo
  · rcases Nat.lt_or_ge 80 rate with hhi | hhi
    · rw [normalisedRate_of_gt _ hhi]
      refine iff_of_false (by omega) fun hmem => ?_
      simp only [List.mem_cons, List.not_mem_nil, or_false] at hmem
      omega
    · rw [normalisedRate_of_mem _ hlo hhi]
      refine ⟨fun h => by simp [h], fun hmem => ?_⟩
      simp only [List.mem_cons, List.not_mem_nil, or_false] at hmem
      omega

/-- of the rates in the range only 40 gets the row it asks for -/
theorem row_eq_rate_iff (rate : ℕ) : 40 + retroIndex (retroRate rate) = retroRate rate ↔ rate ∈ [2, 4, 5, 8, 10, 40] := by
  rw [← retroRate_eq_min_iff]
  have hbounds := retroRate_bounds rate
  unfold retroIndex
  omega

/-! ## The call -/

/-- the mode submitted for a rate runs at the rate of its row -/
theorem withHandheld_rate (hpanel : mode.vActive = 1280 ∧ mode.hActive = 720) (rate : ℕ) :
    ∃ t, gHandheldTimingsRETRO[retroIndex (retroRate rate)]? = some t ∧
      (mode.withHandheld t).refreshRateNow = some (40 + retroIndex (retroRate rate)) := by
  have hlt := retroIndex_lt rate
  have hrow := timingsRetro_rate _ hlt
  refine ⟨_, List.getElem?_eq_getElem hlt, ?_⟩
  rw [List.getElem?_eq_getElem hlt, Option.bind_some] at hrow
  rw [← hrow, NvdcMode2.refreshRateNow, retroRowRate, ← hpanel.1, ← hpanel.2]
  rfl

/-- a call that gets past the checks -/
theorem RetroReady.set_eq (h : RetroReady s mode) (hnv : nv.AtPanelMode mode) :
    s.setNvDispHandheldRefreshRate nv rate = mode.refreshRateNow.bind fun now =>
      if retroRate rate = now then some (true, s.turnedOn)
      else gHandheldTimingsRETRO[retroIndex (retroRate rate)]?.map fun t =>
        (true, s.turnedOn.submitRetro nv (mode.withHandheld t)) := by
  unfold setNvDispHandheldRefreshRate
  rw [if_neg (by simp [h.retro])]
  dsimp only
  rw [if_neg (by simp [hnv.1]), hnv.2]
  dsimp only
  rw [if_neg (by simp [h.clock, h.panel])]
  rfl

theorem acceptingNv_atPanelMode (mode : NvdcMode2) : (acceptingNv mode).AtPanelMode mode := ⟨rfl, rfl⟩

theorem submitRetro_acceptingNv (s : DisplayState) (mode next : NvdcMode2) :
    s.submitRetro (acceptingNv mode) next = { s with submitted0 := s.submitted0 ++ List.replicate 5 next } := if_pos rfl

theorem submitRetro_inj {next' : NvdcMode2}
    (h : s.submitRetro (acceptingNv mode) next = s.submitRetro (acceptingNv mode) next') : next = next' := by
  rw [submitRetro_acceptingNv, submitRetro_acceptingNv] at h
  have hlist := congrArg DisplayState.submitted0 h
  exact (List.replicate_right_inj (by decide)).1 (List.append_cancel_left hlist)

/-- a mode without pixels makes the call divide by zero -/
theorem RetroReady.not_correct (h : RetroReady s mode) (htotal : mode.total = 0) : ¬ RetroCorrect s mode rate := by
  have hnone : s.setNvDispHandheldRefreshRate (acceptingNv mode) rate = none := by
    rw [h.set_eq (acceptingNv_atPanelMode mode), refreshRateNow_eq, if_pos htotal, Option.bind_none]
  rintro ⟨-, ⟨-, hset⟩ | ⟨next, -, hset⟩⟩
  · exact absurd (hnone.symm.trans (hset _ (acceptingNv_atPanelMode mode))) (by simp)
  · exact absurd (hnone.symm.trans (hset _ (acceptingNv_atPanelMode mode))) (by simp)

/-- a panel at the normalised rate is left at it -/
theorem RetroReady.set_same (h : RetroReady s mode) (hnow : mode.refreshRateNow = some (retroRate rate))
    (hnv : nv.AtPanelMode mode) : s.setNvDispHandheldRefreshRate nv rate = some (true, s.turnedOn) := by
  rw [h.set_eq hnv, hnow, Option.bind_some, if_pos rfl]

/-- a panel at another rate is given the mode with the row's timings -/
theorem RetroReady.set_other {t : HandheldTimings} (h : RetroReady s mode) (htotal : mode.total ≠ 0)
    (hother : mode.refreshRateNow ≠ some (retroRate rate)) (ht : gHandheldTimingsRETRO[retroIndex (retroRate rate)]? = some t)
    (hnv : nv.AtPanelMode mode) :
    s.setNvDispHandheldRefreshRate nv rate = some (true, s.turnedOn.submitRetro nv (mode.withHandheld t)) := by
  rw [refreshRateNow_eq, if_neg htotal, ne_eq, Option.some_inj, eq_comm] at hother
  rw [h.set_eq hnv, refreshRateNow_eq, if_neg htotal, Option.bind_some, if_neg hother, ht, Option.map_some]

/-- the mode submitted is the only one that can be meant -/
theorem exists_submitted_iff {hz : ℕ} (hset : ∀ nv : Nv, nv.AtPanelMode mode →
    s.setNvDispHandheldRefreshRate nv rate = some (true, s.turnedOn.submitRetro nv next)) :
    (∃ next : NvdcMode2, next.refreshRateNow = some hz ∧ ∀ nv : Nv, nv.AtPanelMode mode →
      s.setNvDispHandheldRefreshRate nv rate = some (true, s.turnedOn.submitRetro nv next)) ↔
    next.refreshRateNow = some hz := by
  constructor
  · rintro ⟨next', hnow, hset'⟩
    have hstates := (hset _ (acceptingNv_atPanelMode mode)).symm.trans (hset' _ (acceptingNv_atPanelMode mode))
    obtain rfl : next = next' := submitRetro_inj (Prod.mk.inj (Option.some.inj hstates)).2
    exact hnow
  · exact fun hnow => ⟨next, hnow, hset⟩

/-- **The rate of the panel**, for every request and mode. -/
theorem retroCorrect_iff (h : RetroReady s mode) : RetroCorrect s mode rate ↔ RetroOk mode rate := by
  by_cases htotal : mode.total = 0
  · exact iff_of_false (h.not_correct htotal) fun hok => hok.1 htotal
  · unfold RetroCorrect RetroOk
    rw [and_iff_right (retroIndex_lt rate), and_iff_right htotal]
    by_cases hnow : mode.refreshRateNow = some (retroRate rate)
    · exact iff_of_true (Or.inl ⟨hnow, fun nv hnv => h.set_same hnow hnv⟩) (Or.inl hnow)
    · obtain ⟨t, ht, hrate⟩ := withHandheld_rate h.panel rate
      rw [or_iff_right fun hsame => hnow hsame.1, or_iff_right hnow,
        exists_submitted_iff fun nv hnv => h.set_other htotal hnow ht hnv, hrate, Option.some_inj, row_eq_rate_iff]

/-! A handheld console with a RETRO SUPER panel that runs at 50 Hz. -/

def retroState : DisplayState where
  gConfig := ⟨1, false, false, true, false, false⟩
  gInitialized := true
  gDockedHighestRefreshRate := 60
  gWasRetroSuperTurnedOff := false
  gLastVActive := 0
  gCanChangeRefreshRateDocked := false
  value := 60
  base := ⟨1, 20⟩
  misc := ⟨0⟩
  submitted0 := []
  submitted1 := []

def mode50Hz : NvdcMode2 := ⟨720, 1280, 72, 1, 136, 270, 72, 9, 78000, 24, 0, 0, 0⟩

theorem retroCorrect_eight : RetroCorrect retroState mode50Hz 8 :=
  (retroCorrect_iff ⟨rfl, by decide, by decide⟩).2 ⟨by decide, Or.inr (by decide)⟩

/-- a request for 60 Hz is given the row for 44 Hz -/
theorem retro_sixty_lost :
    ((retroState.setNvDispHandheldRefreshRate (acceptingNv mode50Hz) 60).map fun r =>
      r.2.submitted0.map NvdcMode2.refreshRateNow) = some (List.replicate 5 (some 44)) ∧
    ¬ RetroCorrect retroState mode50Hz 60 := by
  have hsubmitted : ((retroState.setNvDispHandheldRefreshRate (acceptingNv mode50Hz) 60).map fun r =>
      r.2.submitted0.map NvdcMode2.refreshRateNow) = some (List.replicate 5 (some 44)) := by decide
  refine ⟨hsubmitted, ?_⟩
  rintro ⟨-, ⟨hnow, -⟩ | ⟨next, hnow, hset⟩⟩
  · exact absurd hnow (by decide)
  · rw [hset _ (acceptingNv_atPanelMode mode50Hz), submitRetro_acceptingNv, Option.map_some] at hsubmitted
    dsimp only at hsubmitted
    rw [show retroState.turnedOn.submitted0 = [] from rfl, List.nil_append, List.map_replicate, hnow] at hsubmitted
    exact absurd hsubmitted (by decide)

end RyazhaClk.Display
