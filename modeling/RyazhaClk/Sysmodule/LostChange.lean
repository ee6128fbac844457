/-
Changes observed while throttled. A tick stores what it observes before it decides whether to set clocks, so a change
observed by a throttled tick is gone from the comparison of the next tick. What the first unthrottled tick does then
depends only on what has moved since the last throttled one: in the world, in the overrides, in the file, and in the
clocks, where the governor thread takes note of the rates it sets itself.

- `tickFront_update_iff`: an unthrottled tick sets clocks exactly when something it watches is out of date.
- `throttled_tick_stores`: what a throttled tick leaves stored, in terms of what it saw.
- `run_stores`: between two ticks only the clocks stored change, to the rates the governor thread notes.
- `change_survives_throttling_iff`: the change observed while throttled is applied by the first unthrottled tick exactly
  when something has moved between the last throttled tick and that one.
- `override_lost_while_throttled`: an override set while hot is not applied when the console has cooled down.
-/
import Mathlib.Tactic
import RyazhaClk.Sysmodule.Caps
import RyazhaClk.Sysmodule.Vrr

namespace RyazhaClk

open RyazhaClk.Transition

variable {P : Platform} {s s' t : Sys} {tail : List Event}

/-! ## What a tick compares -/

theorem any_moduleMoved (s : Sys) : HocClkModule.all.any (moduleMoved s) = true ↔ ∃ m, moduleMoved s m = true := by
  simp [List.any_eq_true]

theorem storedFreq_of_not_moved {s : Sys} {m : HocClkModule} (h : moduleMoved s m = false) :
    storedFreq s m = s.ctx.freqs m := by
  simp only [moduleMoved, Bool.or_eq_false_iff, decide_eq_false_iff_not, not_and, not_not] at h
  unfold storedFreq
  split_ifs with h0
  · exact h.1 h0
  · rfl

/-- an unthrottled tick sets clocks exactly when the title, a module, the file or the real GPU clock is out of date -/
theorem tickFront_update_iff {f : TickFront} (hf : tickFront P s = some f) (hcool : f.shouldSkipClockSet = false) :
    f.update = true ↔ titleMoved s = true ∨ (∃ m, moduleMoved s m = true) ∨
      (s.cfg.gLoaded = false ∨ s.cfg.gMtime ≠ s.env.file.mtime) ∨ s.env.realGpuHz ≠ s.ctx.freqs .gpu := by
  rw [tickFront_skip hf] at hcool
  obtain ⟨b₀, b, hb₀, hb, rfl⟩ := tickFront_some hf
  have hupd : (frontAt P s b).update = ((frontAt P s b).contextChanged || (frontAt P s b).reloaded ||
      (frontAt P s b).gpuOverwritten) := by
    simp [TickFront.update, frontAt, hcool]
  rw [hupd]
  by_cases ht : titleMoved s = true
  · simp [frontAt, ht]
  · -- without a title change no reset has touched the board, so the comparison is made with the state before the tick
    have ht' : titleMoved s = false := Bool.eq_false_iff.2 ht
    obtain rfl : b₀ = s.board := by simpa [boardAfterSafety, hcool] using hb₀.symm
    obtain rfl : s.board = b := by simpa [boardAfterTitle, ht'] using hb
    by_cases hm : HocClkModule.all.any (moduleMoved s) = true
    · simp [frontAt, ht', hm, (any_moduleMoved s).1 hm]
    · have hm' : ∀ m, moduleMoved s m = false := by
        intro m
        exact Bool.eq_false_iff.2 fun h => hm ((any_moduleMoved s).2 ⟨m, h⟩)
      have hnone : ¬ ∃ m, moduleMoved s m = true := by
        intro hmoved
        obtain ⟨m, h⟩ := hmoved
        simp [hm' m] at h
      have hany : HocClkModule.all.any (moduleMoved s) = false := Bool.eq_false_iff.2 hm
      have hgpu : storedFreq s .gpu = s.ctx.freqs .gpu := storedFreq_of_not_moved (hm' .gpu)
      simp only [frontAt, ht', hany, hgpu, Bool.or_false, Bool.false_eq_true, if_false, Bool.false_or, Bool.not_false,
        Bool.true_and, hnone, false_or]
      rw [Bool.or_eq_true, Config.refresh_eq_true_iff]
      cases hr : (s.cfg.refresh s.env.file).1 with
      | true =>
        have := (Config.refresh_eq_true_iff _ _).1 hr
        tauto
      | false => simp

/-- a tick that does not set clocks leaves the state of its front -/
theorem tick_without_update {f : TickFront} (hf : tickFront P s = some f) (hu : f.update = false)
    (ht : tick P s = some s') : s' = f.sys := by
  rw [tick, hf, Option.bind_some, if_neg (by simp [hu])] at ht
  exact (Option.some.inj ht).symm

/-! ## What a throttled tick leaves stored -/

/-- the clock last seen behind a tick at `s` that leaves `s'`: the reading behind its resets, or, where that is 0, the
clock seen before -/
def seenClock (s s' : Sys) (m : HocClkModule) : ℕ :=
  if s'.board.getHz s.env m ≠ 0 then s'.board.getHz s.env m else s.ctx.freqs m

/-- the tick at `s` that leaves `s'` finds another title, profile, override or clock than it has stored -/
def FindsOther (s s' : Sys) : Prop :=
  (s.env.applicationId ≠ s.ctx.applicationId ∨ s.env.profile ≠ s.ctx.profile) ∨
    ∃ m, seenClock s s' m ≠ s.ctx.freqs m ∨ s.cfg.getOverrideHz m ≠ s.ctx.overrideFreqs m

theorem titleMoved_iff (s : Sys) :
    titleMoved s = true ↔ s.env.applicationId ≠ s.ctx.applicationId ∨ s.env.profile ≠ s.ctx.profile := by
  simp [titleMoved]

theorem moduleMoved_iff (s : Sys) (m : HocClkModule) : moduleMoved s m = true ↔
    (s.board.getHz s.env m ≠ 0 ∧ s.board.getHz s.env m ≠ s.ctx.freqs m) ∨
      s.cfg.getOverrideHz m ≠ s.ctx.overrideFreqs m := by
  simp [moduleMoved]

theorem contextChanged_iff {b : Board} (hs' : s'.board = b) : (frontAt P s b).contextChanged = true ↔ FindsOther s s' := by
  have hseen : ∀ m, (b.getHz s.env m ≠ 0 ∧ b.getHz s.env m ≠ s.ctx.freqs m) ↔ seenClock s s' m ≠ s.ctx.freqs m := by
    intro m
    unfold seenClock
    rw [hs']
    split_ifs with h0
    · exact and_iff_right h0
    · exact iff_of_false (fun h => h0 h.1) (fun h => h rfl)
  show (titleMoved s || HocClkModule.all.any (moduleMoved { s with board := b })) = true ↔ _
  rw [Bool.or_eq_true, titleMoved_iff, any_moduleMoved]
  refine or_congr_right (exists_congr fun m => ?_)
  rw [moduleMoved_iff]
  exact or_congr_left (hseen m)

/-- a throttled tick sets nothing and stores what it sees: title, profile, overrides, clocks, and the file unless it finds
one of these changed, when it does not look at it -/
theorem throttled_tick_stores {f : TickFront} (hf : tickFront P s = some f) (hhot : f.shouldSkipClockSet = true)
    (ht : tick P s = some s') :
    s'.ctx = { s.ctx with
      applicationId := s.env.applicationId
      profile := s.env.profile
      freqs := seenClock s s'
      overrideFreqs := s.cfg.getOverrideHz } ∧
    (FindsOther s s' ∧ s'.cfg = s.cfg ∨ ¬ FindsOther s s' ∧ s'.cfg = (s.cfg.refresh s.env.file).2) := by
  have hu : f.update = false := by simp [TickFront.update, hhot]
  obtain rfl := tick_without_update hf hu ht
  obtain ⟨b₀, b, -, -, rfl⟩ := tickFront_some hf
  refine ⟨rfl, ?_⟩
  rw [← contextChanged_iff (P := P) (b := b) rfl]
  cases hchanged : (frontAt P s b).contextChanged with
  | true =>
    refine Or.inl ⟨rfl, ?_⟩
    exact congrArg Prod.snd (if_pos hchanged)
  | false =>
    refine Or.inr ⟨Bool.false_ne_true, ?_⟩
    exact congrArg Prod.snd (if_neg (Bool.not_eq_true _ ▸ hchanged))

/-! ## What the governor thread notes -/

/-- the rate a step of the governor thread sets and notes for a module: that of a poll that writes, or the display rate
for the game's frame rate. The display's way back to its maximum and its reset out of focus are not noted. -/
def notedRate (P : Platform) (s : Sys) (m : HocClkModule) : Option ℕ :=
  match s.thread.pc with
  | .cpuUpdate =>
    if m = .cpu ∧ cpuWrites P s = true then some (polledHz P s.cfg s.ctx .cpu s.env.cpuLoad (minimumHz s)) else none
  | .gpuUpdate =>
    if m = .gpu ∧ gpuWrites P s = true then some (polledHz P s.cfg s.ctx .gpu s.env.gpuLoad 0) else none
  | .vrrUpdate fps =>
    if m = .display ∧ maxDisplay s.cfg s.ctx ≠ minDisplay P then
      vrrRate fps (minDisplay P) (maxDisplay s.cfg s.ctx)
    else none
  | .top | .gpuCheck | .vrrCheck => none

/-- the clocks last seen behind a run without ticks: what was seen at its start, and what the governor thread noted -/
def lastClocks (P : Platform) : Sys → List Event → (HocClkModule → ℕ) → HocClkModule → ℕ
  | _, [], seen => seen
  | s, e :: es, seen =>
    match e, step P s e with
    | .governor, some t => lastClocks P t es fun m => (notedRate P s m).getD (seen m)
    | _, some t => lastClocks P t es seen
    | _, none => seen

theorem drive_ctx (P : Platform) (m : HocClkModule) (hz : ℕ) (w : Bool) (th th' : GovernorThread) (s : Sys) :
    (drive P m hz w th th' s).ctx = if w = true then s.ctx.setFreq m hz else s.ctx := by
  unfold drive
  split_ifs <;> rfl

theorem cpuUpdate_ctx (P : Platform) (s : Sys) : (cpuUpdate P s).ctx =
    if cpuWrites P s = true then s.ctx.setFreq .cpu (polledHz P s.cfg s.ctx .cpu s.env.cpuLoad (minimumHz s))
    else s.ctx := by
  have hpolled : polledHz P s.cfg s.ctx .cpu s.env.cpuLoad (minimumHz s) = clampMinHz (minimumHz s)
      (tableHz (P.gFreqTable .cpu) (askedHz P s.cfg s.ctx .cpu s.env.cpuLoad)) := by
    rw [polledHz, if_pos rfl]
  rw [cpuWrites, hpolled]
  exact drive_ctx _ _ _ _ _ _ _

theorem gpuUpdate_ctx (P : Platform) (s : Sys) : (gpuUpdate P s).ctx =
    if gpuWrites P s = true then s.ctx.setFreq .gpu (polledHz P s.cfg s.ctx .gpu s.env.gpuLoad 0) else s.ctx := by
  have hpolled : polledHz P s.cfg s.ctx .gpu s.env.gpuLoad 0 =
      tableHz (P.gFreqTable .gpu) (askedHz P s.cfg s.ctx .gpu s.env.gpuLoad) := by
    rw [polledHz, if_neg (by decide)]
  rw [gpuWrites, hpolled, ← Bool.and_true (_ || _)]
  exact drive_ctx _ _ _ _ _ _ _

theorem vrrUpdate_ctx (P : Platform) (fps : ℕ) (s : Sys) : (vrrUpdate P fps s).ctx =
    if maxDisplay s.cfg s.ctx = minDisplay P then s.ctx
    else (showRate P s (vrrRate fps (minDisplay P) (maxDisplay s.cfg s.ctx))).ctx := by
  have hkick : ∀ (hz : ℕ) (u : Sys), (vrrKick P hz u).ctx = u.ctx := by
    intro hz u
    unfold vrrKick
    split_ifs <;> rfl
  have hupd : vrrUpdate P fps s = if maxDisplay s.cfg s.ctx = minDisplay P then s else
      vrrKick P (maxDisplay s.cfg s.ctx) (showRate P s (vrrRate fps (minDisplay P) (maxDisplay s.cfg s.ctx))) := rfl
  rw [hupd]
  split_ifs
  · rfl
  · exact hkick _ _

/-- a step of the governor thread stores the rates it notes -/
theorem governorStep_freqs (P : Platform) (s : Sys) (m : HocClkModule) :
    (governorStep P s.cleared).ctx.freqs m = (notedRate P s m).getD (s.ctx.freqs m) := by
  have hgoto : ∀ (u : Sys) (pc : GovernorPc), (u.goto pc).ctx = u.ctx := fun _ _ => rfl
  have hpc : s.cleared.thread.pc = s.thread.pc := rfl
  have hcpu : cpuWrites P s.cleared = cpuWrites P s := rfl
  have hgpu : gpuWrites P s.cleared = gpuWrites P s := rfl
  have hmin : minimumHz s.cleared = minimumHz s := rfl
  unfold governorStep notedRate
  rw [hpc]
  cases h : s.thread.pc with
  | top =>
    dsimp only
    split_ifs <;> rfl
  | cpuUpdate =>
    simp only [hgoto, cpuUpdate_ctx, hcpu, hmin, cleared_cfg, cleared_ctx, cleared_env]
    by_cases hw : cpuWrites P s = true
    · by_cases hm : m = .cpu
      · simp [hw, hm]
      · simp [hw, hm]
    · simp [hw]
  | gpuCheck =>
    dsimp only
    split_ifs <;> rfl
  | gpuUpdate =>
    simp only [hgoto, gpuUpdate_ctx, hgpu, cleared_cfg, cleared_ctx, cleared_env]
    by_cases hw : gpuWrites P s = true
    · by_cases hm : m = .gpu
      · simp [hw, hm]
      · simp [hw, hm]
    · simp [hw]
  | vrrCheck =>
    dsimp only [vrrCheck]
    split_ifs <;> rfl
  | vrrUpdate fps =>
    simp only [hgoto, vrrUpdate_ctx, cleared_cfg, cleared_ctx]
    by_cases hd : maxDisplay s.cfg s.ctx = minDisplay P
    · simp [hd]
    · cases hr : vrrRate fps (minDisplay P) (maxDisplay s.cfg s.ctx) with
      | none => simp [hd, showRate]
      | some hz => by_cases hm : m = .display <;> simp [hd, hm, showRate]

/-! ## Between two ticks -/

/-- what a tick compares the world with, but for the clocks -/
structure StoresSame (s t : Sys) : Prop where
  applicationId : t.ctx.applicationId = s.ctx.applicationId
  profile : t.ctx.profile = s.ctx.profile
  overrideFreqs : t.ctx.overrideFreqs = s.ctx.overrideFreqs
  gLoaded : t.cfg.gLoaded = s.cfg.gLoaded
  gMtime : t.cfg.gMtime = s.cfg.gMtime

theorem StoresSame.refl (s : Sys) : StoresSame s s := ⟨rfl, rfl, rfl, rfl, rfl⟩

theorem StoresSame.trans {u : Sys} (h : StoresSame s t) (h' : StoresSame t u) : StoresSame s u :=
  ⟨h'.1.trans h.1, h'.2.trans h.2, h'.3.trans h.3, h'.4.trans h.4, h'.5.trans h.5⟩

theorem governorStep_storesSame (P : Platform) (s : Sys) : StoresSame s (governorStep P s.cleared) := by
  have h := governorStep_frame P s.cleared
  exact ⟨by rw [h.ctx, cleared_ctx], by rw [h.ctx, cleared_ctx], by rw [h.ctx, cleared_ctx], by rw [h.cfg, cleared_cfg],
    by rw [h.cfg, cleared_cfg]⟩

/-- a run without ticks stores nothing but the rates the governor thread notes -/
theorem run_stores (htail : Event.tick ∉ tail) (hrun : run (step P) s tail = some t) :
    StoresSame s t ∧ t.ctx.freqs = lastClocks P s tail s.ctx.freqs := by
  induction tail generalizing s with
  | nil =>
    obtain rfl : s = t := Option.some.inj hrun
    exact ⟨StoresSame.refl s, rfl⟩
  | cons e es ih =>
    obtain ⟨u, hu, hrest⟩ := run_cons_some _ hrun
    rw [List.mem_cons, not_or] at htail
    obtain ⟨he, hes⟩ := htail
    obtain ⟨hsame, hfreqs⟩ := ih hes hrest
    cases e with
    | tick => exact absurd rfl he
    | external x =>
      obtain rfl := Option.some.inj hu
      have hmove : StoresSame s (s.cleared.move x) := ⟨rfl, rfl, rfl, rfl, rfl⟩
      exact ⟨hmove.trans hsame, hfreqs⟩
    | governor =>
      obtain rfl := Option.some.inj hu
      refine ⟨(governorStep_storesSame P s).trans hsame, ?_⟩
      rw [hfreqs, funext (governorStep_freqs P s)]
      rfl

/-! ## Over runs -/

/-- a run comes from `s₀` to a throttled tick that observes a change and through throttled ticks up to the last of them,
which starts in `s`, has the front `f` and leaves `s'`; without a further tick `tail` leads to `s₂`, where an unthrottled
tick with front `f₂` starts -/
structure ThrottleWindow (P : Platform) (s₀ s : Sys) (f : TickFront) (s' : Sys) (tail : List Event) (s₂ : Sys)
    (f₂ : TickFront) : Prop where
  observed : ∃ pre head s₁ f₁, run (step P) s₀ pre = some s₁ ∧ tickFront P s₁.cleared = some f₁ ∧
    f₁.shouldSkipClockSet = true ∧ (f₁.contextChanged || f₁.reloaded) = true ∧
    (head = [] ∨ head.head? = some .tick) ∧ run (step P) s₁ head = some s ∧
    AllSteps (step P) (fun s e => e = Event.tick → shouldThrottle P s.cleared = true) s₁ head
  front : tickFront P s.cleared = some f
  throttled : f.shouldSkipClockSet = true
  last : step P s .tick = some s'
  quiet : Event.tick ∉ tail
  rest : run (step P) s' tail = some s₂
  front₂ : tickFront P s₂.cleared = some f₂
  cooled : f₂.shouldSkipClockSet = false

/-- the first unthrottled tick behind a change observed while throttled sets clocks -/
def ChangeSurvivesThrottling (P : Platform) (s₀ : Sys) : Prop :=
  ∀ s f s' tail s₂ f₂, ThrottleWindow P s₀ s f s' tail s₂ f₂ → f₂.update = true

/-- the file has moved by `s₂`: since the last throttled tick, from `s` to `s'`, looked at it, or, where that tick found
another change and did not look, since it was loaded -/
def FileMoved (s s' s₂ : Sys) : Prop :=
  (FindsOther s s' ∧ (s.cfg.gLoaded = false ∨ s₂.env.file.mtime ≠ s.cfg.gMtime)) ∨
    (¬ FindsOther s s' ∧ s₂.env.file.mtime ≠ s.env.file.mtime)

/-- something has moved between the last throttled tick, from `s` to `s'`, and the tick at `s₂` -/
inductive MovedSince (P : Platform) (s s' : Sys) (tail : List Event) (s₂ : Sys) : Prop where
  | title (h : s₂.env.applicationId ≠ s.env.applicationId)
  | profile (h : s₂.env.profile ≠ s.env.profile)
  | overridden (m : HocClkModule) (h : s₂.cfg.getOverrideHz m ≠ s.cfg.getOverrideHz m)
  | clock (m : HocClkModule) (h0 : s₂.board.getHz s₂.env m ≠ 0)
      (h : s₂.board.getHz s₂.env m ≠ lastClocks P s' tail (seenClock s s') m)
  | file (h : FileMoved s s' s₂)
  | gpu (h : s₂.env.realGpuHz ≠ lastClocks P s' tail (seenClock s s') .gpu)

/-- what the last throttled tick leaves of the file, told from what it saw -/
theorem fileMoved_iff (hcfg : FindsOther s s' ∧ s'.cfg = s.cfg ∨ ¬ FindsOther s s' ∧ s'.cfg = (s.cfg.refresh s.env.file).2)
    (hloaded : t.cfg.gLoaded = s'.cfg.gLoaded) (hmtime : t.cfg.gMtime = s'.cfg.gMtime) :
    (t.cfg.gLoaded = false ∨ t.cfg.gMtime ≠ t.env.file.mtime) ↔ FileMoved s s' t := by
  unfold FileMoved
  rw [hloaded, hmtime]
  obtain ⟨hother, hsame⟩ | ⟨hother, hsame⟩ := hcfg
  · simp only [hother, hsame, true_and, not_true_eq_false, false_and, or_false]
    exact or_congr_right ne_comm
  · obtain ⟨hl, hm⟩ := Config.refresh_settles s.cfg s.env.file
    simp only [hother, false_and, not_false_eq_true, true_and, false_or]
    rw [hsame, hl, hm]
    exact ⟨fun h => (h.resolve_left (by simp)).symm, fun h => Or.inr h.symm⟩

/-- **A change observed while throttled is applied exactly when something moves again.** The first unthrottled tick sets
clocks exactly when the title, the profile, an override, the file, a clock or the real GPU clock has moved between the
last throttled tick and that one. -/
theorem change_survives_throttling_iff (P : Platform) (env : Env) (cfg : Config) (hw : Hw) (saltyNX : Bool) (s : Sys)
    (f : TickFront) (s' : Sys) (tail : List Event) (s₂ : Sys) (f₂ : TickFront)
    (h : ThrottleWindow P (Sys.initial env cfg hw saltyNX) s f s' tail s₂ f₂) :
    f₂.update = true ↔ MovedSince P s s' tail s₂ := by
  obtain ⟨hctx, hcfg⟩ := throttled_tick_stores h.front h.throttled h.last
  obtain ⟨hsame, hfreqs⟩ := run_stores h.quiet h.rest
  have happ : s₂.ctx.applicationId = s.env.applicationId := by rw [hsame.applicationId, hctx]; rfl
  have hprofile : s₂.ctx.profile = s.env.profile := by rw [hsame.profile, hctx]; rfl
  have hover : s₂.ctx.overrideFreqs = s.cfg.getOverrideHz := by rw [hsame.overrideFreqs, hctx]; rfl
  have hclocks : s₂.ctx.freqs = lastClocks P s' tail (seenClock s s') := by rw [hfreqs, hctx]; rfl
  rw [tickFront_update_iff h.front₂ h.cooled]
  simp only [titleMoved_iff, moduleMoved_iff, cleared_env, cleared_cfg, cleared_ctx, happ, hprofile, hover, hclocks,
    fileMoved_iff hcfg hsame.gLoaded hsame.gMtime]
  constructor
  · rintro ((h | h) | ⟨m, ⟨h0, h⟩ | h⟩ | h | h)
    · exact .title h
    · exact .profile h
    · exact .clock m h0 h
    · exact .overridden m h
    · exact .file h
    · exact .gpu h
  · intro h
    cases h with
    | title h => exact Or.inl (Or.inl h)
    | profile h => exact Or.inl (Or.inr h)
    | overridden m h => exact Or.inr (Or.inl ⟨m, Or.inr h⟩)
    | clock m h0 h => exact Or.inr (Or.inl ⟨m, Or.inl ⟨h0, h⟩⟩)
    | file h => exact Or.inr (Or.inr (Or.inl h))
    | gpu h => exact Or.inr (Or.inr (Or.inr h))

/-! ## Witnesses -/

/-- the GPU is overridden while the SoC is at 90 °C -/
def overrideWhileHot : External :=
  { sampleStart.world with
    env := { sampleEnv with tempSocMilli := 90000 }
    gOverrideFreqs := fun m => if m = .gpu then 384000000 else 0 }

def cooledDown : External := { overrideWhileHot with env := sampleEnv }

/-- the console has cooled down and the override is raised once more -/
def cooledDownAndMoved : External :=
  { cooledDown with gOverrideFreqs := fun m => if m = .gpu then 460800000 else 0 }

/-- a window of one throttled tick behind the first tick of the console, with one move of the world behind it -/
theorem window_of_one {s s' s₂ : Sys} {f f₂ : TickFront} {x : External}
    (hpre : run (step sampleConsole) sampleStart [.tick, .external overrideWhileHot] = some s)
    (hf : tickFront sampleConsole s.cleared = some f) (hhot : f.shouldSkipClockSet = true)
    (hseen : (f.contextChanged || f.reloaded) = true) (hlast : step sampleConsole s .tick = some s')
    (hrest : run (step sampleConsole) s' [.external x] = some s₂)
    (hf₂ : tickFront sampleConsole s₂.cleared = some f₂) (hcool : f₂.shouldSkipClockSet = false) :
    ThrottleWindow sampleConsole sampleStart s f s' [.external x] s₂ f₂ where
  observed := ⟨_, [], s, f, hpre, hf, hhot, hseen, Or.inl rfl, rfl, trivial⟩
  front := hf
  throttled := hhot
  last := hlast
  quiet := by simp
  rest := hrest
  front₂ := hf₂
  cooled := hcool

/-- an override that moves again behind the throttling is applied -/
theorem moved_again_survives : ∃ s f s' tail s₂ f₂,
    ThrottleWindow sampleConsole sampleStart s f s' tail s₂ f₂ ∧
      (f₂.update = true ↔ MovedSince sampleConsole s s' tail s₂) ∧ f₂.update = true := by
  have hw : ThrottleWindow sampleConsole sampleStart _ _ _ [.external cooledDownAndMoved] _ _ :=
    window_of_one rfl rfl rfl rfl rfl rfl rfl rfl
  exact ⟨_, _, _, _, _, _, hw, change_survives_throttling_iff _ _ _ _ _ _ _ _ _ _ _ hw, by decide⟩

/-- **An override set while hot is lost.** The throttled tick stores the override and resets to stock; when the console
has cooled down nothing has moved since and no clock is set, with the override still in place. -/
theorem override_lost_while_throttled : ¬ ChangeSurvivesThrottling sampleConsole sampleStart := by
  intro h
  have hlost := h _ _ _ [.external cooledDown] _ _ (window_of_one rfl rfl rfl rfl rfl rfl rfl rfl)
  exact absurd hlost (by decide)

end RyazhaClk
