/-
Re-assertion of an overwritten GPU clock. A tick compares the real GPU clock with the stored one and calls `SetClocks`
when they differ; `SetClocks` then writes the GPU only if the stored clock differs from the wanted one. The stored clock
comes from `GetHz`, which answers the injected middle frequency whatever PCV has done since.

The requests of a tick are followed round by round: each lemma says which GPU rates a round adds to the requests.

- `reassert_iff`: when a tick that finds the GPU clock overwritten requests the wanted clock.
- `injected_gpu_not_reasserted`: an overwritten middle frequency is noticed and left overwritten.
-/
import Mathlib.Tactic
import RyazhaClk.Sysmodule.Converge

namespace RyazhaClk

open RyazhaClk.Transition

variable {P : Platform} {s s' : Sys} {x : ℕ}

/-! ## GPU requests round by round -/

/-- a reset of a module requests the GPU's stock rate if it is the GPU that is reset, from HOS 9.0.0 on -/
theorem reset_gpuRequests {env : Env} {m : HocClkModule} {b b' : Board} (h : b.resetToStockModule P env m = some b') :
    x ∈ b'.requests .gpu ↔ x ∈ b.requests .gpu ∨ (m = .gpu ∧ P.hos9 = true ∧ x = stockHz env .gpu) := by
  by_cases h9 : P.hos9 = true
  · obtain rfl := resetToStockModule_eq h9 h
    by_cases hm : m = .gpu
    · subst hm
      simp [h9]
    · simp [hm]
  · rw [Board.resetToStockModule, if_neg h9] at h
    obtain rfl := Option.some.inj h
    simp [h9]

theorem cpuRound_gpuRequests {boost : Bool} (h : setClocksModule P boost .cpu s = some s') :
    (x ∈ s'.board.requests .gpu ↔ x ∈ s.board.requests .gpu) ∧ clock s' .gpu = clock s .gpu ∧
      clock s' .mem = clock s .mem := by
  rcases setClocksModule_cases h with ⟨-, rfl⟩ | ⟨-, -, -, rfl⟩ | ⟨-, -, -, b, hb, rfl⟩ | ⟨-, -, b, hb, rfl⟩
  · exact ⟨Iff.rfl, rfl, rfl⟩
  · exact ⟨Iff.rfl, rfl, rfl⟩
  · rw [writeTarget_of_ne_mem _ _ _ _ _ (by decide)] at hb
    obtain rfl := Option.some.inj hb
    simp [clock, Board.getHz]
  · simp only [handleFreqReset] at hb
    split_ifs at hb
    · have hreq := reset_gpuRequests (x := x) hb
      have hhw := reset_hw hb
      simp [hreq, clock, Board.getHz, hhw.1, hhw.2]
    · obtain rfl := Option.some.inj hb
      exact ⟨Iff.rfl, rfl, rfl⟩

/-- the GPU round requests the wanted clock only against a different stored one -/
theorem gpuRound_gpuRequests {boost : Bool} (ho : owned s .gpu = false) (ht : targetHz s.cfg s.ctx .gpu ≠ 0)
    (h : setClocksModule P boost .gpu s = some s') :
    (x ∈ s'.board.requests .gpu ↔ x ∈ s.board.requests .gpu ∨
      (nearestTargetHz P s.cfg s.ctx .gpu ≠ s.ctx.freqs .gpu ∧ x = nearestTargetHz P s.cfg s.ctx .gpu)) ∧
    clock s' .mem = clock s .mem ∧ (nearestTargetHz P s.cfg s.ctx .gpu = s.ctx.freqs .gpu → clock s' .gpu = clock s .gpu) := by
  rcases setClocksModule_cases h with ⟨ho', -⟩ | ⟨-, -, hn, rfl⟩ | ⟨-, -, hn, b, hb, rfl⟩ | ⟨-, ht', -⟩
  · simp [ho] at ho'
  · simp [hn]
  · rw [writeTarget_of_ne_mem _ _ _ _ _ (by decide)] at hb
    obtain rfl := Option.some.inj hb
    simp [hn, clock, Board.getHz]
  · exact absurd ht' ht

/-- the memory round requests the wanted GPU clock when it resets the floor, and a rounded GPU clock when it moves it -/
theorem memRound_gpuRequests {boost : Bool} (ht : targetHz s.cfg s.ctx .gpu ≠ 0)
    (h : setClocksModule P boost .mem s = some s') :
    x ∈ s'.board.requests .gpu ↔ x ∈ s.board.requests .gpu ∨
      (memResets s = true ∧ (x = nearestTargetHz P s.cfg s.ctx .gpu ∨ (P.hos9 = true ∧ x = stockHz s.env .gpu))) ∨
      (memRescales P s = true ∧ x = roundGpu P s.cfg s.ctx (clock s .gpu)) := by
  rcases setClocksModule_cases h with ⟨ho, -⟩ | ⟨-, hm, hn, rfl⟩ | ⟨-, hm, hn, b, hb, rfl⟩ | ⟨-, hm, b, hb, rfl⟩
  · simp [owned] at ho
  · simp [memResets, memRescales, hm, hn]
  · rw [writeTarget_mem _ _ _ _ _ hm] at hb
    obtain rfl := Option.some.inj hb
    by_cases hj : dvfsHijack s.cfg = true
    · rcases lt_trichotomy s.board.hw.memHz (targetHz s.cfg s.ctx .mem) with hlt | heq | hgt
      · simp [memResets, memRescales, hm, hn, hj, hlt, hlt.ne', clock, Board.getHz, rescaleGpu]
      · simp [memResets, memRescales, hm, heq, clock, Board.getHz]
      · simp [memResets, memRescales, hm, hn, hj, hgt, hgt.asymm, hgt.ne, clock, Board.getHz, rescaleGpu]
    · simp [memResets, memRescales, hj]
  · simp only [handleFreqReset, Bool.not_false, if_true] at hb
    obtain ⟨b₁, hb₁, hd⟩ := Option.bind_eq_some_iff.1 hb
    have hreq₁ := reset_gpuRequests (x := x) hb₁
    rw [dvfsReset] at hd
    split_ifs at hd with hj
    · obtain ⟨b₂, hb₂, rfl⟩ := Option.map_eq_some_iff.1 hd
      have hreq₂ := reset_gpuRequests (x := x) hb₂
      rw [Board.requests_hijack, hreq₁] at hreq₂
      simp only [Board.requests_setHz_same (by decide : HocClkModule.gpu ≠ .governor), List.mem_append,
        List.mem_singleton, hreq₂]
      simp [memResets, memRescales, hm, hj]
      rw [or_right_comm, or_assoc]
    · obtain rfl := Option.some.inj hd
      simp [memResets, memRescales, hj, hreq₁]

theorem governorRound_gpuRequests {hz : ℕ} (hlast : s.gov.lastGpuGovernorState = false)
    (h : handleGovernor P hz s = some s') : x ∈ s'.board.requests .gpu ↔ x ∈ s.board.requests .gpu := by
  obtain ⟨b₁, b₂, h₁, h₂, hb, -⟩ := handleGovernor_some h
  have hreq : x ∈ s'.board.requests .gpu ↔ x ∈ b₂.requests .gpu := by
    rw [hb]
    split_ifs
    · rw [Board.resetToStockDisplay, Board.requests_setHz_of_ne (by decide)]
    · rfl
  rw [hlast, releaseModule, if_neg (by simp)] at h₂
  obtain rfl := Option.some.inj h₂
  rw [hreq]
  unfold releaseModule at h₁
  split_ifs at h₁
  · rw [reset_gpuRequests h₁]
    simp
  · rw [Option.some.inj h₁]

theorem displayRound_gpuRequests {boost : Bool} (h : setClocksDisplay P boost s = some s') :
    x ∈ s'.board.requests .gpu ↔ x ∈ s.board.requests .gpu := by
  unfold setClocksDisplay at h
  split_ifs at h with hv ho
  · rw [Option.some.inj h]
  · dsimp only at h
    split_ifs at h
    · obtain rfl := Option.some.inj h
      rw [Board.requests_setHz_of_ne (by decide)]
    · obtain ⟨b, hb, rfl⟩ := Option.map_eq_some_iff.1 h
      obtain rfl := Option.some.inj hb
      rw [if_pos ho, Board.resetToStockDisplay, Board.requests_setHz_of_ne (by decide)]
  · rw [Option.some.inj h]

/-- the reset of a title change requests the GPU's stock rate, and leaves the GPU there -/
theorem boardAfterTitle_gpu {b b' : Board} (h : boardAfterTitle P s b = some b') :
    (x ∈ b'.requests .gpu ↔ x ∈ b.requests .gpu ∨
      (titleMoved s = true ∧ P.hos9 = true ∧ x = stockHz s.env .gpu)) ∧
    (titleMoved s = true ∧ P.hos9 = true → b'.hw.gpuView = stockHz s.env .gpu ∧ stockHz s.env .gpu ≠ 0) := by
  unfold boardAfterTitle at h
  by_cases htitle : titleMoved s = true
  · rw [if_pos htitle, resetForTitle] at h
    obtain ⟨b₁, hb₁, h⟩ := Option.bind_eq_some_iff.1 h
    by_cases h9 : P.hos9 = true
    · rw [Board.resetToStock, if_pos h9] at hb₁
      obtain ⟨apm, hapm, rfl⟩ := Option.map_eq_some_iff.1 hb₁
      have hstock : apm.gpu_hz = stockHz s.env .gpu := (stockHz_of_find hapm .gpu).symm
      have hpos : stockHz s.env .gpu ≠ 0 := by
        rw [← hstock]
        exact (stock_gpuHz_pos hapm).ne'
      split_ifs at h
      · have hreq := reset_gpuRequests (x := x) h
        obtain rfl := resetToStockModule_eq h9 h
        simp [htitle, h9, hstock, hpos]
      · obtain rfl := Option.some.inj h
        simp [htitle, h9, hstock, hpos]
    · rw [Board.resetToStock, if_neg h9] at hb₁
      obtain rfl := Option.some.inj hb₁
      split_ifs at h
      · have hreq := reset_gpuRequests (x := x) h
        rw [Board.resetToStockModule, if_neg h9] at h
        obtain rfl := Option.some.inj h
        rw [hreq, Board.requests_hijack]
        simp [h9]
      · obtain rfl := Option.some.inj h
        simp [h9]
  · rw [if_neg htitle] at h
    obtain rfl := Option.some.inj h
    simp [htitle]

/-! ## SetClocks -/

/-- a tick that sets clocks in `t` with the GPU in the hands of the clock manager -/
theorem setClocks_gpuRequests {t : Sys} (ho : owned t .gpu = false) (hlast : t.gov.lastGpuGovernorState = false)
    (ht : targetHz t.cfg t.ctx .gpu ≠ 0) (h : setClocks P false t = some s') :
    nearestTargetHz P t.cfg t.ctx .gpu ∈ s'.board.requests .gpu ↔
      nearestTargetHz P t.cfg t.ctx .gpu ∈ t.board.requests .gpu ∨
      nearestTargetHz P t.cfg t.ctx .gpu ≠ t.ctx.freqs .gpu ∨ memResets t = true ∨
      (memRescales P t = true ∧ nearestTargetHz P t.cfg t.ctx .gpu = roundGpu P t.cfg t.ctx (clock t .gpu)) := by
  obtain ⟨s₁, s₂, s₃, s₄, hr⟩ := setClocks_rounds (by simp [boostSuspends]) h
  set n := nearestTargetHz P t.cfg t.ctx .gpu with hn
  have req₀ : n ∈ (leaveBoost P t).board.requests .gpu ↔ n ∈ t.board.requests .gpu := by
    unfold leaveBoost rewriteCpu
    split_ifs
    · rw [Board.requests_setHz_of_ne (by decide)]
    · rfl
  obtain ⟨req₁, g₁, m₁⟩ := cpuRound_gpuRequests (x := n) hr.cpu
  obtain ⟨req₂, m₂, g₂⟩ := gpuRound_gpuRequests (x := n) (by rwa [owned_congr hr.gov₁]) (by rwa [hr.in₁.targetHz])
    hr.gpu
  have req₃ := memRound_gpuRequests (x := n) (by rwa [hr.in₂.targetHz]) hr.mem
  have req₄ := governorRound_gpuRequests (x := n) (by rw [hr.gov₃, hlast]) hr.governor
  have req₅ := displayRound_gpuRequests (x := n) hr.display
  have clockMem₂ : clock s₂ .mem = clock t .mem := m₂.trans (m₁.trans (clock_leaveBoost P t .mem))
  have hresets : memResets s₂ = memResets t := by rw [memResets, memResets, hr.in₂.targetHz, hr.in₂.cfg]
  have hrescales : memRescales P s₂ = memRescales P t := by
    rw [memRescales, memRescales, hr.in₂.targetHz, hr.in₂.nearestTargetHz, hr.in₂.cfg, hr.memFreq₂, clockMem₂]
  rw [hr.in₁.nearestTargetHz, hr.gpuFreq₁, ← hn] at req₂ g₂
  rw [hr.in₂.nearestTargetHz, hresets, hrescales, roundGpu_congr hr.in₂, ← hn] at req₃
  rw [req₅, req₄, req₃, req₂, req₁, req₀]
  by_cases hw : n = t.ctx.freqs .gpu
  · -- the GPU round writes nothing, so the memory round finds the clock as the call found it
    have hclock : clock s₂ .gpu = clock t .gpu := (g₂ hw).trans (g₁.trans (clock_leaveBoost P t .gpu))
    simp [hw, hclock]
  · simp [hw]

/-! ## The tick -/

/-- the configuration behind the front of a tick: reloaded only where nothing else has moved -/
def refreshedConfig (s : Sys) : Config :=
  if titleMoved s || HocClkModule.all.any (moduleMoved s) then s.cfg else (s.cfg.refresh s.env.file).2

/-- the state with everything a tick watches stored, the board as the tick finds it -/
def watched (s : Sys) : Sys := { s with cfg := refreshedConfig s, ctx := storedContext s }

/-- when a tick that finds the GPU overwritten requests its wanted clock: a title change resets the GPU first, the clock
`GetHz` answers differs from the wanted one, or the memory round rewrites the GPU at it -/
def ReassertsWhen (P : Platform) (s : Sys) : Prop :=
  (titleMoved s = true ∧ P.hos9 = true) ∨
  storedFreq s .gpu ≠ nearestTargetHz P (watched s).cfg (watched s).ctx .gpu ∨
  memResets (watched s) = true ∨
  (memRescales P (watched s) = true ∧ nearestTargetHz P (watched s).cfg (watched s).ctx .gpu =
    roundGpu P (watched s).cfg (watched s).ctx (clock s .gpu))

/-- an unthrottled tick outside boost with the GPU governor off and a GPU target, ending in `s'`, that finds the real GPU
clock different from the stored one; `f` is what it has found when it decides to set clocks -/
structure FindsOverwritten (P : Platform) (s : Sys) (f : TickFront) (s' : Sys) : Prop where
  reachable : ReachableState P s
  front : tickFront P s.cleared = some f
  cool : f.shouldSkipClockSet = false
  noBoost : f.isBoost = false
  governorOff : s.gov.isGpuGovernorEnabled = false
  target : targetHz f.sys.cfg f.sys.ctx .gpu ≠ 0
  overwritten : s.env.realGpuHz ≠ f.sys.ctx.freqs .gpu
  step : step P s .tick = some s'

/-- every such tick requests the rounded target -/
def ReassertsGpu (P : Platform) : Prop :=
  ∀ s f s', FindsOverwritten P s f s' → nearestTargetHz P f.sys.cfg f.sys.ctx .gpu ∈ s'.board.requests .gpu

/-- a tick that finds the GPU overwritten calls `SetClocks` -/
theorem FindsOverwritten.setClocks {f : TickFront} (h : FindsOverwritten P s f s') :
    setClocks P false f.sys = some s' := by
  have hstep : tick P s.cleared = some s' := h.step
  have hupd : f.update = true := by
    obtain ⟨b₀, b, -, -, rfl⟩ := tickFront_some h.front
    have hskip := h.cool
    have hreal := h.overwritten
    simp only [frontAt, storedContext] at hskip hreal
    simp only [TickFront.update, frontAt, hskip]
    cases titleMoved s.cleared || HocClkModule.all.any (moduleMoved { s.cleared with board := b }) with
    | true => simp
    | false =>
      cases hr : (s.cleared.cfg.refresh s.cleared.env.file).1 with
      | true =>
        simp only [cleared_cfg, cleared_env] at hr
        simp [hr]
      | false =>
        simp only [cleared_cfg, cleared_env] at hr
        simpa [hr] using hreal
  rw [tick, h.front, Option.bind_some, if_pos hupd, h.noBoost] at hstep
  exact hstep

/-- without a reset to the stock rates a title change keeps every clock -/
theorem boardAfterTitle_keeps {b b' : Board} (hkeep : ¬ (titleMoved s = true ∧ P.hos9 = true))
    (h : boardAfterTitle P s b = some b') (m : HocClkModule) : b'.getHz s.env m = b.getHz s.env m := by
  unfold boardAfterTitle at h
  by_cases htitle : titleMoved s = true
  · have h9 : ¬ P.hos9 = true := fun h9 => hkeep ⟨htitle, h9⟩
    rw [if_pos htitle, resetForTitle, Board.resetToStock, if_neg h9, Option.bind_some] at h
    split_ifs at h
    · rw [Board.resetToStockModule, if_neg h9] at h
      obtain rfl := Option.some.inj h
      cases m <;> simp [Board.getHz]
    · obtain rfl := Option.some.inj h
      rfl
  · rw [if_neg htitle] at h
    obtain rfl := Option.some.inj h
    rfl

/-- what the front of an unthrottled tick hands to `SetClocks`, where no title change has reset the clocks -/
theorem front_watched {f : TickFront} (hf : tickFront P s.cleared = some f) (hcool : f.shouldSkipClockSet = false)
    (hkeep : ¬ (titleMoved s = true ∧ P.hos9 = true)) :
    f.sys.cfg = (watched s).cfg ∧ f.sys.ctx = (watched s).ctx ∧ (∀ m, clock f.sys m = clock s m) ∧
      ∀ x, x ∉ f.sys.board.requests .gpu := by
  rw [tickFront_skip hf] at hcool
  obtain ⟨b₀, b, hb₀, hb, rfl⟩ := tickFront_some hf
  obtain rfl : b₀ = s.cleared.board := by simpa [boardAfterSafety, hcool] using hb₀.symm
  have hget : ∀ m, b.getHz s.env m = s.board.getHz s.env m := fun m => boardAfterTitle_keeps hkeep hb m
  have hmoved : HocClkModule.all.any (moduleMoved { s.cleared with board := b }) =
      HocClkModule.all.any (moduleMoved s) := by
    refine congrArg _ (funext fun m => ?_)
    have hm : moduleMoved { s.cleared with board := b } m =
        (decide (b.getHz s.env m ≠ 0 ∧ b.getHz s.env m ≠ s.ctx.freqs m) ||
          decide (s.cfg.getOverrideHz m ≠ s.ctx.overrideFreqs m)) := rfl
    rw [hm, hget m]
    rfl
  have hstored : storedFreq { s.cleared with board := b } = storedFreq s := by
    funext m
    simp only [storedFreq, cleared_env, cleared_ctx, hget]
  refine ⟨?_, ?_, hget, ?_⟩
  · simp only [frontAt, watched, refreshedConfig, hmoved]
    rw [show titleMoved s.cleared = titleMoved s from rfl]
    split_ifs <;> rfl
  · simp only [frontAt, watched, storedContext, hstored]
    rfl
  · intro x hx
    have hreq := (boardAfterTitle_gpu hb).1.1 hx
    rcases hreq with h | h
    · simp [Board.requests] at h
    · exact hkeep ⟨h.1, h.2.1⟩

/-- where a title change resets the clocks, the wanted GPU clock is the stock rate requested then or differs from it -/
theorem front_reset {f : TickFront} (hf : tickFront P s.cleared = some f) (hreset : titleMoved s = true ∧ P.hos9 = true)
    {x : ℕ} : x ∈ f.sys.board.requests .gpu ∨ x ≠ f.sys.ctx.freqs .gpu := by
  obtain ⟨b₀, b, hb₀, hb, rfl⟩ := tickFront_some hf
  obtain ⟨hreq, hview⟩ := boardAfterTitle_gpu (x := x) hb
  obtain ⟨hgpu, hpos⟩ := hview hreset
  by_cases hx : x = stockHz s.env .gpu
  · exact Or.inl (hreq.2 (Or.inr ⟨hreset.1, hreset.2, hx⟩))
  · right
    have hstored : (frontAt P s.cleared b).sys.ctx.freqs .gpu = stockHz s.env .gpu := by
      show storedFreq { s.cleared with board := b } .gpu = _
      have hget : b.getHz s.env .gpu = stockHz s.env .gpu := hgpu
      rw [storedFreq, if_pos (by simpa [hget] using hpos)]
      exact hget
    rwa [hstored]

/-- **When an overwritten GPU clock is written again.** A tick that finds the real GPU clock different from the stored
one requests the wanted clock exactly when `GetHz` answers another clock than the wanted one, or when a title change or
the memory round rewrites the GPU for reasons of its own. -/
theorem reassert_iff (P : Platform) (s : Sys) (f : TickFront) (s' : Sys) (h : FindsOverwritten P s f s') :
    nearestTargetHz P f.sys.cfg f.sys.ctx .gpu ∈ s'.board.requests .gpu ↔ ReassertsWhen P s := by
  have hgov : f.sys.gov = s.gov := by rw [tickFront_gov h.front, cleared_gov]
  have howned : owned f.sys .gpu = false := by rw [owned_gpu, hgov, h.governorOff]
  have hlast : f.sys.gov.lastGpuGovernorState = false := by
    rw [hgov, (reachable_synced h.reachable).2.1, h.governorOff]
  rw [setClocks_gpuRequests howned hlast h.target h.setClocks]
  by_cases hreset : titleMoved s = true ∧ P.hos9 = true
  · have hfront := front_reset h.front hreset (x := nearestTargetHz P f.sys.cfg f.sys.ctx .gpu)
    constructor
    · intro _
      exact Or.inl hreset
    · intro _
      rcases hfront with hin | hne
      · exact Or.inl hin
      · exact Or.inr (Or.inl hne)
  · obtain ⟨hcfg, hctx, hclock, hnone⟩ := front_watched h.front h.cool hreset
    have hresets : memResets f.sys = memResets (watched s) := by rw [memResets, memResets, hcfg, hctx]
    have hrescales : memRescales P f.sys = memRescales P (watched s) := by
      rw [memRescales, memRescales, hcfg, hctx, hclock]
      rfl
    have hfreq : f.sys.ctx.freqs .gpu = storedFreq s .gpu := by
      rw [hctx]
      rfl
    rw [hresets, hrescales, hfreq, hclock, hcfg, hctx, ReassertsWhen, ne_comm]
    simp [hnone, hreset]

/-! ## Witnesses -/

/-- the GPU and the memory have targets, the GPU's a middle frequency -/
def middleTarget : External :=
  { sampleStart.world with
    env := { sampleEnv with realGpuHz := 268800000 }
    gOverrideFreqs := fun m => if m = .gpu then 268800000 else if m = .mem then 1600000000 else 0 }

/-- PCV puts the GPU back to its own rate -/
def pcvOverwrites : External :=
  { middleTarget with
    env := sampleEnv
    gpuHz := 230400000 }

/-- the GPU has a target PCV can set itself -/
def plainTarget : External :=
  { middleTarget with
    env := { sampleEnv with realGpuHz := 384000000 }
    gOverrideFreqs := fun m => if m = .gpu then 384000000 else if m = .mem then 1600000000 else 0 }

/-- the measured rate is a little below the one PCV has set -/
def pcvOverwritesPlain : External :=
  { plainTarget with
    env := { sampleEnv with realGpuHz := 230399000 }
    gpuHz := 230400000 }

/-- a rate PCV sets itself is read back overwritten and requested again -/
theorem plain_gpu_reasserted : ∃ s f s', FindsOverwritten sampleConsole s f s' ∧
    (nearestTargetHz sampleConsole f.sys.cfg f.sys.ctx .gpu ∈ s'.board.requests .gpu ↔ ReassertsWhen sampleConsole s) ∧
    384000000 ∈ s'.board.requests .gpu := by
  have hfinds : FindsOverwritten sampleConsole _ _ _ := ⟨⟨sampleEnv, sampleConfig, sampleHw, false,
    [.external plainTarget, .tick, .external pcvOverwritesPlain], rfl⟩, rfl, rfl, rfl, rfl, by decide, by decide, rfl⟩
  exact ⟨_, _, _, hfinds, reassert_iff _ _ _ _ hfinds, by decide⟩

/-- **An overwritten middle frequency is noticed and left overwritten.** `GetHz` answers the injected frequency, so the
stored clock equals the target and the GPU round keeps it. -/
theorem injected_gpu_not_reasserted : ¬ ReassertsGpu sampleConsole := by
  intro h
  have hlost := h _ _ _ ⟨⟨sampleEnv, sampleConfig, sampleHw, false,
    [.external middleTarget, .tick, .external pcvOverwrites], rfl⟩, rfl, rfl, rfl, rfl, by decide, by decide, rfl⟩
  exact absurd hlost (by decide)

end RyazhaClk
