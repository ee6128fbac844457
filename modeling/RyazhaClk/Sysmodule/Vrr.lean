/-
The display governor: the rates the governor thread gives the display for the frame rate of the running game, against
the target of `SetClocks` for the display.

`SetClocks` reads the clocks behind the memory's as they are stored, the display's in Hz. The display governor reads the
same clock as if it were stored in MHz and keeps the low byte, so from a profile it gets 0, 64, 128 or 192.

- `display_requests`: the rates of one update.
- `vrrFollowsTarget_iff`: every update keeps to the target of `SetClocks` exactly when the target is an override of at
  most 255, or there is none.
- `profile_target_lost`: a profile's 60 Hz has the display sent to rate 0.
-/
import Mathlib.Tactic
import RyazhaClk.Lib.Ascending
import RyazhaClk.Sysmodule.System

namespace RyazhaClk

open RyazhaClk.Ascending

variable {P : Platform} {cfg : Config} {ctx : Context} {fps lo hi x : ℕ} {s : Sys}

/-! ## The property -/

def minDisplay (P : Platform) : ℕ := if P.console = .aula then 45 else 40

/-- the target of `SetClocks` for the display, 60 where there is none -/
def displayTarget (cfg : Config) (ctx : Context) : ℕ :=
  if targetHz cfg ctx .display ≠ 0 then targetHz cfg ctx .display else 60

/-- the multiples of a frame rate up to the ninth that lie in a range -/
def multiplesIn (fps lo hi : ℕ) : Set ℕ := {y | (∃ i, 1 ≤ i ∧ i < 10 ∧ y = fps * i) ∧ lo ≤ y ∧ y ≤ hi}

/-- a rate to program for a frame rate -/
structure RateOk (lo hi fps x : ℕ) : Prop where
  lower : lo ≤ x
  upper : x ≤ hi
  choice : x = fps ∨ IsLeast (multiplesIn fps lo hi) x ∨ x = hi

/-- every update of the display governor, for any frame rate and at any tick, keeps to the target of `SetClocks` -/
def VrrFollowsTarget (P : Platform) (cfg : Config) (ctx : Context) : Prop :=
  ∀ (s : Sys) (fps : ℕ), s.cfg = cfg → s.ctx = ctx → s.thread.pc = .vrrUpdate fps → fps < 256 → fps ≠ 254 →
    ∀ x ∈ (governorStep P s.cleared).board.requests .display, RateOk (minDisplay P) (displayTarget cfg ctx) fps x

/-- the target is an override that fits in a byte and reaches the least rate, or one the update leaves alone, or there is
no target -/
def TargetFits (P : Platform) (cfg : Config) (ctx : Context) : Prop :=
  let hz := ctx.overrideFreqs .display
  (hz ≠ 0 ∧ (hz % 256 = minDisplay P ∨ minDisplay P ≤ hz ∧ hz < 256)) ∨
    (hz = 0 ∧ cfg.getAutoClockHz ctx.applicationId .display ctx.profile true = 0 ∧
      cfg.getAutoClockHz HOCCLK_GLOBAL_PROFILE_TID .display ctx.profile true = 0)

/-! ## One update -/

/-- the byte the update takes for its target -/
def maxDisplay (cfg : Config) (ctx : Context) : ℕ :=
  if resolveHz cfg ctx .display false ≠ 0 then resolveHz cfg ctx .display false % 256 else 60

theorem minDisplay_cases (P : Platform) : minDisplay P = 45 ∨ minDisplay P = 40 := by
  unfold minDisplay
  split_ifs <;> simp

theorem vrrRate_ok (h : vrrRate fps lo hi = some x) : RateOk lo hi fps x := by
  unfold vrrRate at h
  split_ifs at h with hfps
  · obtain rfl := Option.some.inj h
    exact ⟨hfps.1, hfps.2, Or.inl rfl⟩
  · have hsorted : ((List.range' 1 9).map (fps * ·)).Pairwise (· ≤ ·) := by
      rw [List.pairwise_map]
      exact (List.pairwise_lt_range' 1).imp fun h => Nat.mul_le_mul_left fps h.le
    have hset : {y | y ∈ (List.range' 1 9).map (fps * ·) ∧ decide (lo ≤ y ∧ y ≤ hi) = true} = multiplesIn fps lo hi := by
      ext y
      simp only [multiplesIn, List.mem_map, List.mem_range'_1, decide_eq_true_eq, Set.mem_ofPred_eq]
      refine and_congr_left fun _ => exists_congr fun i => ?_
      constructor
      · rintro ⟨hi, rfl⟩
        exact ⟨hi.1, by omega, rfl⟩
      · rintro ⟨h1, h10, rfl⟩
        exact ⟨⟨h1, by omega⟩, rfl⟩
    have hleast := isLeast_find? hsorted h
    rw [hset] at hleast
    exact ⟨hleast.1.2.1, hleast.1.2.2, Or.inr (Or.inl hleast)⟩

/-- the rates of an update, and at every 51st the target -/
theorem display_requests (P : Platform) (hpc : s.thread.pc = .vrrUpdate fps) :
    (governorStep P s.cleared).board.requests .display =
      if maxDisplay s.cfg s.ctx = minDisplay P then []
      else (vrrRate fps (minDisplay P) (maxDisplay s.cfg s.ctx)).toList ++
        if 50 < s.thread.vrrTick + 1 then [maxDisplay s.cfg s.ctx] else [] := by
  have hstep : governorStep P s.cleared = (vrrUpdate P fps s.cleared).goto .top := by
    rw [governorStep, cleared_thread, hpc]
  have hshow : ∀ r, (showRate P s.cleared r).board.requests .display = r.toList := by
    intro r
    cases r with
    | none => rfl
    | some hz => exact Board.requests_setHz_same (by decide) hz
  have hthread : ∀ r, (showRate P s.cleared r).thread = s.thread := by
    intro r
    cases r <;> rfl
  have hkick : ∀ (hz : ℕ) (t : Sys), t.thread = s.thread → (vrrKick P hz t).board.requests .display =
      t.board.requests .display ++ if 50 < s.thread.vrrTick + 1 then [hz] else [] := by
    intro hz t ht
    unfold vrrKick
    rw [ht]
    split_ifs
    · exact Board.requests_setHz_same (by decide) hz
    · simp
  have hupdate : vrrUpdate P fps s.cleared = if maxDisplay s.cfg s.ctx = minDisplay P then s.cleared
      else vrrKick P (maxDisplay s.cfg s.ctx)
        (showRate P s.cleared (vrrRate fps (minDisplay P) (maxDisplay s.cfg s.ctx))) := rfl
  rw [hstep]
  show (vrrUpdate P fps s.cleared).board.requests .display = _
  rw [hupdate]
  split_ifs with hmin hkickDue
  · rfl
  · rw [hkick _ _ (hthread _), hshow, if_pos hkickDue]
  · rw [hkick _ _ (hthread _), hshow, if_neg hkickDue]

/-! ## The two readings of the target -/

/-- read as MHz a clock is its stored value times a million, in 32 bits -/
theorem getAutoClockHz_scaled (c : Config) (tid : ℕ) (m : HocClkModule) (p : HocClkProfile) :
    c.getAutoClockHz tid m p false = c.getAutoClockHz tid m p true * 1000000 % 2 ^ 32 := by
  simp [Config.getAutoClockHz, Config.findClockHzFromProfiles, Nat.mod_mul_mod]

theorem scaled_byte (v : ℕ) : v * 1000000 % 2 ^ 32 % 256 = v % 4 * 64 := by
  rw [Nat.mod_mod_of_dvd _ (by decide)]
  omega

/-- a million is a multiple of 64: the byte of a clock read as MHz is no clock of its own -/
theorem scaled_byte_ne {v : ℕ} (hv : v ≠ 0) : v * 1000000 % 2 ^ 32 % 256 ≠ v := by
  rw [scaled_byte]
  omega

theorem scaled_byte_lt (v : ℕ) : v * 1000000 % 2 ^ 32 % 256 < 256 := Nat.mod_lt _ (by decide)

/-- a clock whose reading vanishes is no byte -/
theorem le_of_scaled_eq_zero {v : ℕ} (hv : v ≠ 0) (h : v * 1000000 % 2 ^ 32 = 0) : 256 ≤ v := by
  by_contra hlt
  have hsmall : v * 1000000 < 2 ^ 32 := calc
    v * 1000000 < 256 * 1000000 := Nat.mul_lt_mul_of_pos_right (not_le.1 hlt) (by decide)
    _ < 2 ^ 32 := by decide
  rw [Nat.mod_eq_of_lt hsmall, Nat.mul_eq_zero] at h
  exact hv (h.resolve_right (by decide))

section Sources

variable (hz : ctx.overrideFreqs .display = 0)

include hz

theorem resolveHz_profile (raw : Bool) : resolveHz cfg ctx .display raw =
    if cfg.getAutoClockHz ctx.applicationId .display ctx.profile raw ≠ 0 then
      cfg.getAutoClockHz ctx.applicationId .display ctx.profile raw
    else cfg.getAutoClockHz HOCCLK_GLOBAL_PROFILE_TID .display ctx.profile raw := by
  rw [resolveHz, hz]
  rfl

/-- a clock of a profile is read as another rate, and as none that the update leaves alone -/
theorem maxDisplay_profile (hset : targetHz cfg ctx .display ≠ 0) :
    maxDisplay cfg ctx ≠ displayTarget cfg ctx ∧ (maxDisplay cfg ctx % 64 = 0 ∨ maxDisplay cfg ctx = 60) := by
  have hraw : targetHz cfg ctx .display = resolveHz cfg ctx .display true := rfl
  rw [maxDisplay, displayTarget, if_pos hset, hraw, resolveHz_profile hz, resolveHz_profile hz]
  rw [hraw, resolveHz_profile hz] at hset
  simp only [getAutoClockHz_scaled]
  generalize cfg.getAutoClockHz ctx.applicationId .display ctx.profile true = app at hset ⊢
  generalize cfg.getAutoClockHz HOCCLK_GLOBAL_PROFILE_TID .display ctx.profile true = global at hset ⊢
  by_cases happ : app = 0
  · -- the global profile
    subst happ
    have hglobal : global ≠ 0 := by simpa using hset
    simp only [zero_mul, Nat.zero_mod, ne_eq, not_true, if_false]
    by_cases hscaled : global * 1000000 % 2 ^ 32 = 0
    · rw [if_neg (not_not.2 hscaled)]
      exact ⟨(lt_of_lt_of_le (by decide) (le_of_scaled_eq_zero hglobal hscaled)).ne, Or.inr rfl⟩
    · rw [if_pos hscaled]
      refine ⟨scaled_byte_ne hglobal, Or.inl ?_⟩
      rw [scaled_byte, Nat.mul_mod_left]
  · rw [if_pos happ]
    by_cases hscaled : app * 1000000 % 2 ^ 32 = 0
    · have hlarge := le_of_scaled_eq_zero happ hscaled
      rw [if_neg (not_not.2 hscaled)]
      split_ifs
      · refine ⟨(lt_of_lt_of_le (scaled_byte_lt global) hlarge).ne, Or.inl ?_⟩
        rw [scaled_byte, Nat.mul_mod_left]
      · exact ⟨(lt_of_lt_of_le (by decide) hlarge).ne, Or.inr rfl⟩
    · rw [if_pos hscaled, if_pos hscaled]
      refine ⟨scaled_byte_ne happ, Or.inl ?_⟩
      rw [scaled_byte, Nat.mul_mod_left]

theorem targetHz_eq_zero_iff : targetHz cfg ctx .display = 0 ↔
    cfg.getAutoClockHz ctx.applicationId .display ctx.profile true = 0 ∧
      cfg.getAutoClockHz HOCCLK_GLOBAL_PROFILE_TID .display ctx.profile true = 0 := by
  have hraw : targetHz cfg ctx .display = resolveHz cfg ctx .display true := rfl
  rw [hraw, resolveHz_profile hz]
  split_ifs with h <;> simp_all

theorem maxDisplay_unset (hunset : targetHz cfg ctx .display = 0) :
    maxDisplay cfg ctx = 60 ∧ displayTarget cfg ctx = 60 := by
  obtain ⟨happ, hglobal⟩ := (targetHz_eq_zero_iff hz).1 hunset
  have hscaled : resolveHz cfg ctx .display false = 0 := by
    rw [resolveHz_profile hz, getAutoClockHz_scaled, getAutoClockHz_scaled, happ, hglobal]
    rfl
  rw [maxDisplay, displayTarget, hscaled, hunset]
  exact ⟨rfl, rfl⟩

end Sources

/-- the byte is the target of `SetClocks`, or the one rate the update leaves alone, exactly when the target fits -/
theorem targetFits_iff (P : Platform) (cfg : Config) (ctx : Context) : TargetFits P cfg ctx ↔
    maxDisplay cfg ctx = minDisplay P ∨
      (maxDisplay cfg ctx = displayTarget cfg ctx ∧ minDisplay P ≤ displayTarget cfg ctx) := by
  have hmin := minDisplay_cases P
  unfold TargetFits
  by_cases hz : ctx.overrideFreqs .display = 0
  · simp only [hz, ne_eq, not_true, false_and, false_or, true_and, ← targetHz_eq_zero_iff hz]
    by_cases hset : targetHz cfg ctx .display = 0
    · obtain ⟨hmax, htarget⟩ := maxDisplay_unset hz hset
      rw [hmax, htarget]
      omega
    · have := maxDisplay_profile hz hset
      omega
  · have hmax : maxDisplay cfg ctx = ctx.overrideFreqs .display % 256 := by simp [maxDisplay, resolveHz, hz]
    have htarget : displayTarget cfg ctx = ctx.overrideFreqs .display := by
      simp [displayTarget, targetHz, resolveHz, hz]
    rw [hmax, htarget]
    omega

/-! ## When the governor keeps to the target -/

theorem rateOk_of_fits (h : TargetFits P s.cfg s.ctx) (hpc : s.thread.pc = .vrrUpdate fps)
    (hx : x ∈ (governorStep P s.cleared).board.requests .display) :
    RateOk (minDisplay P) (displayTarget s.cfg s.ctx) fps x := by
  rw [display_requests P hpc] at hx
  rcases (targetFits_iff P s.cfg s.ctx).1 h with hmin | ⟨hmax, hle⟩
  · rw [if_pos hmin] at hx
    exact absurd hx List.not_mem_nil
  · rw [hmax] at hx
    split_ifs at hx with hmin
    · exact absurd hx List.not_mem_nil
    · rcases List.mem_append.1 hx with hx | hx
      · exact vrrRate_ok (Option.mem_toList.1 hx)
      · obtain rfl := List.mem_singleton.1 hx
        exact ⟨hle, le_rfl, Or.inr (Or.inr rfl)⟩
    · rw [List.append_nil] at hx
      exact vrrRate_ok (Option.mem_toList.1 hx)

/-- an update at which the display is sent to its target -/
def dueUpdate (s : Sys) (fps : ℕ) (cfg : Config) (ctx : Context) : Sys :=
  { s with cfg := cfg, ctx := ctx, thread := { s.thread with pc := .vrrUpdate fps, vrrTick := 50 } }

theorem fits_of_follows (s : Sys) (h : VrrFollowsTarget P cfg ctx) : TargetFits P cfg ctx := by
  rw [targetFits_iff]
  by_cases hmin : maxDisplay cfg ctx = minDisplay P
  · exact Or.inl hmin
  · have hmem : maxDisplay cfg ctx ∈ (governorStep P (dueUpdate s 0 cfg ctx).cleared).board.requests .display := by
      have hdue : (governorStep P (dueUpdate s 0 cfg ctx).cleared).board.requests .display =
          if maxDisplay cfg ctx = minDisplay P then []
          else (vrrRate 0 (minDisplay P) (maxDisplay cfg ctx)).toList ++ [maxDisplay cfg ctx] := display_requests P rfl
      rw [hdue, if_neg hmin]
      exact List.mem_append_right _ (List.mem_singleton_self _)
    obtain ⟨hlower, -, hchoice⟩ := h (dueUpdate s 0 cfg ctx) 0 rfl rfl rfl (by decide) (by decide) _ hmem
    have hpos : maxDisplay cfg ctx ≠ 0 := by
      have := minDisplay_cases P
      omega
    refine Or.inr ?_
    rcases hchoice with hzero | hleast | htarget
    · exact absurd hzero hpos
    · obtain ⟨⟨i, -, -, hi⟩, -, -⟩ := hleast.1
      exact absurd (hi.trans (Nat.zero_mul i)) hpos
    · exact ⟨htarget, htarget ▸ hlower⟩

/-- **When the display governor keeps to the target of `SetClocks`.** -/
theorem vrrFollowsTarget_iff (P : Platform) (cfg : Config) (ctx : Context) :
    VrrFollowsTarget P cfg ctx ↔ TargetFits P cfg ctx := by
  refine ⟨fits_of_follows sampleStart, ?_⟩
  rintro h s fps rfl rfl hpc _ _ x hx
  exact rateOk_of_fits h hpc hx

/-! ## Witnesses -/

/-- the running title asks for a display at 60 Hz -/
def displayProfile : Config :=
  { sampleConfig with gProfileMHzMap := fun tid p m => if tid = 1 ∧ p = .handheld ∧ m = .display then 60 else 0 }

def titleContext : Context := { sampleStart.ctx with applicationId := 1, profile := .handheld, isSaltyNXInstalled := true }

/-- **A profile's target is lost.** `SetClocks` takes 60 Hz, the display governor the low byte of 60000000, and a game at
60 fps has its display sent to rate 0. -/
theorem profile_target_lost : displayTarget displayProfile titleContext = 60 ∧
    (governorStep sampleConsole (dueUpdate sampleStart 60 displayProfile titleContext).cleared).board.requests .display =
      [0] ∧
    ¬ VrrFollowsTarget sampleConsole displayProfile titleContext := by
  have hrequests : (governorStep sampleConsole
      (dueUpdate sampleStart 60 displayProfile titleContext).cleared).board.requests .display = [0] := by decide
  refine ⟨by decide, hrequests, fun h => ?_⟩
  have hok := h (dueUpdate sampleStart 60 displayProfile titleContext) 60 rfl rfl rfl (by decide) (by decide) 0
    (by rw [hrequests]; exact List.mem_singleton_self 0)
  exact absurd hok.lower (by decide)

end RyazhaClk
