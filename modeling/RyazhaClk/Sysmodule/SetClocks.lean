/-
What `SetClocks` does to each clock. The module loop is taken apart into its five rounds; each round is described by
what it leaves: the clock of its own module (`moduleOutcome`), the GPU clock where the memory round rewrites it
(`memRoundGpu`), the stored frequencies, and the flags.

- `setClocksModule_cases`: the four things a round can do.
- `setClocksModule_clock`: the clock of a module behind its own round.
- `memRound_gpuView`: the GPU clock behind the memory round, which rewrites it when it moves the voltage floor.
- `setClocks_rounds`: a call outside a suspending boost as its rounds.
-/
import Mathlib.Tactic
import RyazhaClk.Sysmodule.ClockManager

namespace RyazhaClk

/-! ## Rounds -/

/-- a governor drives the module, so the loop passes over it -/
def owned (s : Sys) (m : HocClkModule) : Bool :=
  (m = .cpu && s.gov.isCpuGovernorEnabled) || (m = .gpu && s.gov.isGpuGovernorEnabled)

/-- the stock rate of a module in the current APM configuration -/
def stockHz (env : Env) (m : HocClkModule) : ℕ := ((findApmConfiguration env.apmMode).map fun apm => apm.hz m).getD 0

/-- where a module belongs: its rounded target, or stock where it has none -/
def goalHz (P : Platform) (env : Env) (cfg : Config) (ctx : Context) (m : HocClkModule) : ℕ :=
  if targetHz cfg ctx m ≠ 0 then nearestTargetHz P cfg ctx m else stockHz env m

/-- the inputs of `SetClocks` that no round changes -/
structure SameInputs (s s' : Sys) : Prop where
  env : s'.env = s.env
  cfg : s'.cfg = s.cfg
  thread : s'.thread = s.thread
  ctx : s'.ctx = { s.ctx with freqs := s'.ctx.freqs }

theorem SameInputs.refl (s : Sys) : SameInputs s s := ⟨rfl, rfl, rfl, rfl⟩

theorem SameInputs.trans {s t u : Sys} (h : SameInputs s t) (h' : SameInputs t u) : SameInputs s u where
  env := h'.env.trans h.env
  cfg := h'.cfg.trans h.cfg
  thread := h'.thread.trans h.thread
  ctx := by rw [h'.ctx, h.ctx]

namespace SameInputs

variable {P : Platform} {s s' : Sys}

theorem resolveHz (h : SameInputs s s') (m : HocClkModule) (raw : Bool) :
    resolveHz s'.cfg s'.ctx m raw = RyazhaClk.resolveHz s.cfg s.ctx m raw := by
  rw [h.cfg, h.ctx]
  rfl

theorem targetHz (h : SameInputs s s') (m : HocClkModule) : targetHz s'.cfg s'.ctx m = RyazhaClk.targetHz s.cfg s.ctx m :=
  h.resolveHz m _

theorem nearestTargetHz (h : SameInputs s s') (m : HocClkModule) :
    nearestTargetHz P s'.cfg s'.ctx m = RyazhaClk.nearestTargetHz P s.cfg s.ctx m := by
  have hp : s'.ctx.profile = s.ctx.profile := by rw [h.ctx]
  rw [RyazhaClk.nearestTargetHz, RyazhaClk.nearestTargetHz, h.targetHz, hp, h.cfg]

theorem goalHz (h : SameInputs s s') (m : HocClkModule) :
    goalHz P s'.env s'.cfg s'.ctx m = RyazhaClk.goalHz P s.env s.cfg s.ctx m := by
  rw [RyazhaClk.goalHz, RyazhaClk.goalHz, h.targetHz, h.nearestTargetHz, h.env]

end SameInputs

variable {P : Platform} {boost : Bool} {m : HocClkModule} {s s' : Sys}

/-- **The four things a round can do**: pass over an owned module, keep a clock it believes set, write the target with
the memory's voltage floor around it, or reset to stock. -/
theorem setClocksModule_cases (h : setClocksModule P boost m s = some s') :
    (owned s m = true ∧ s' = s) ∨
    (owned s m = false ∧ targetHz s.cfg s.ctx m ≠ 0 ∧ nearestTargetHz P s.cfg s.ctx m = s.ctx.freqs m ∧ s' = s) ∨
    (owned s m = false ∧ targetHz s.cfg s.ctx m ≠ 0 ∧ nearestTargetHz P s.cfg s.ctx m ≠ s.ctx.freqs m ∧
      ∃ b, writeTarget P s.env s.cfg s.ctx m (s.board.getHz s.env m) s.board = some b ∧
        s' = { s with board := b, ctx := s.ctx.setFreq m (nearestTargetHz P s.cfg s.ctx m) }) ∨
    (owned s m = false ∧ targetHz s.cfg s.ctx m = 0 ∧
      ∃ b, handleFreqReset P s.env s.cfg s.ctx m boost false s.board = some b ∧ s' = { s with board := b }) := by
  unfold setClocksModule at h
  by_cases ho : owned s m = true
  · rw [if_pos (by simpa [owned] using ho)] at h
    exact Or.inl ⟨ho, (Option.some.inj h).symm⟩
  · have hof : owned s m = false := Bool.eq_false_iff.2 ho
    rw [if_neg (by simpa [owned] using ho)] at h
    by_cases ht : targetHz s.cfg s.ctx m = 0
    · rw [if_neg (not_not.2 ht)] at h
      obtain ⟨b, hb, rfl⟩ := Option.map_eq_some_iff.1 h
      exact Or.inr (Or.inr (Or.inr ⟨hof, ht, b, hb, rfl⟩))
    · rw [if_pos ht] at h
      by_cases hn : nearestTargetHz P s.cfg s.ctx m = s.ctx.freqs m
      · rw [if_neg (not_not.2 hn)] at h
        exact Or.inr (Or.inl ⟨hof, ht, hn, (Option.some.inj h).symm⟩)
      · rw [if_pos hn] at h
        obtain ⟨b, hb, rfl⟩ := Option.map_eq_some_iff.1 h
        exact Or.inr (Or.inr (Or.inl ⟨hof, ht, hn, b, hb, rfl⟩))

theorem setClocksModule_frame (h : setClocksModule P boost m s = some s') :
    SameInputs s s' ∧ s'.gov = s.gov ∧ s'.prepareBoostExit = s.prepareBoostExit := by
  rcases setClocksModule_cases h with ⟨_, rfl⟩ | ⟨_, _, _, rfl⟩ | ⟨_, _, _, b, _, rfl⟩ | ⟨_, _, b, _, rfl⟩
  · exact ⟨.refl _, rfl, rfl⟩
  · exact ⟨.refl _, rfl, rfl⟩
  · exact ⟨⟨rfl, rfl, rfl, rfl⟩, rfl, rfl⟩
  · exact ⟨⟨rfl, rfl, rfl, rfl⟩, rfl, rfl⟩

/-- the frequency stored for a module behind its round; the other modules keep theirs -/
theorem setClocksModule_freqs (h : setClocksModule P boost m s = some s') (m' : HocClkModule) :
    s'.ctx.freqs m' = if m' = m ∧ owned s m = false ∧ targetHz s.cfg s.ctx m ≠ 0 then
      nearestTargetHz P s.cfg s.ctx m else s.ctx.freqs m' := by
  rcases setClocksModule_cases h with ⟨ho, rfl⟩ | ⟨ho, ht, hn, rfl⟩ | ⟨ho, ht, hn, b, _, rfl⟩ | ⟨ho, ht, b, _, rfl⟩
  · rw [if_neg (by simp [ho])]
  · by_cases hm : m' = m
    · subst hm
      rw [if_pos ⟨rfl, ho, ht⟩, hn]
    · rw [if_neg (by simp [hm])]
  · by_cases hm : m' = m
    · subst hm
      rw [if_pos ⟨rfl, ho, ht⟩, Context.setFreq_same]
    · rw [if_neg (by simp [hm]), Context.setFreq_of_ne _ _ hm]
  · rw [if_neg (by simp [ht])]

/-! ## The voltage floor around a memory change -/

/-- the GPU clock is written back at the table frequency next to it, for the new voltage to be used -/
def roundGpu (P : Platform) (cfg : Config) (ctx : Context) (hz : ℕ) : ℕ :=
  getNearestHz (P.gFreqTable .gpu) hz (getMaxAllowedHz P.soc cfg .gpu ctx.profile)

/-- what `ApplyGpuDvfs` does for a memory target -/
def rescaleGpu (P : Platform) (env : Env) (cfg : Config) (ctx : Context) (hz : ℕ) (b : Board) : Board :=
  (b.pcvHijackGpuVolts env (gpuVminFor P cfg hz)).setHz P .gpu (roundGpu P cfg ctx b.hw.gpuView)

section Rescale

variable (env : Env) (cfg : Config) (ctx : Context) (hz : ℕ) (b : Board)

@[simp] theorem rescaleGpu_cpuHz : (rescaleGpu P env cfg ctx hz b).hw.cpuHz = b.hw.cpuHz := by simp [rescaleGpu]

@[simp] theorem rescaleGpu_memHz : (rescaleGpu P env cfg ctx hz b).hw.memHz = b.hw.memHz := by simp [rescaleGpu]

@[simp] theorem rescaleGpu_gpuView : (rescaleGpu P env cfg ctx hz b).hw.gpuView = roundGpu P cfg ctx b.hw.gpuView := by
  simp [rescaleGpu]

theorem rescaleGpu_ramVmin : (rescaleGpu P env cfg ctx hz b).hw.ramVmin =
    if env.hijackOk then gpuVminFor P cfg hz else b.hw.ramVmin := by
  simp [rescaleGpu, Board.hijack_ramVmin]

theorem applyGpuDvfs_of_ne_zero (h : hz ≠ 0) :
    applyGpuDvfs P env cfg ctx hz b = some (rescaleGpu P env cfg ctx hz b) := by
  rw [applyGpuDvfs, if_pos h]
  rfl

theorem writeTarget_of_ne_mem (oldHz : ℕ) (h : m ≠ .mem) :
    writeTarget P env cfg ctx m oldHz b = some (b.setHz P m (nearestTargetHz P cfg ctx m)) := by
  simp [writeTarget, h]

/-- a memory change: the floor first on the way up, last on the way down, left alone for a target equal to the old
clock or without the hijack -/
theorem writeTarget_mem (oldHz : ℕ) (ht : targetHz cfg ctx .mem ≠ 0) :
    writeTarget P env cfg ctx .mem oldHz b = some
      (if dvfsHijack cfg = true ∧ oldHz < targetHz cfg ctx .mem then
        (rescaleGpu P env cfg ctx (targetHz cfg ctx .mem) b).setHz P .mem (nearestTargetHz P cfg ctx .mem)
      else if dvfsHijack cfg = true ∧ targetHz cfg ctx .mem < oldHz then
        rescaleGpu P env cfg ctx (targetHz cfg ctx .mem) (b.setHz P .mem (nearestTargetHz P cfg ctx .mem))
      else b.setHz P .mem (nearestTargetHz P cfg ctx .mem)) := by
  simp only [writeTarget, decide_true, Bool.true_and, Bool.and_eq_true, decide_eq_true_eq,
    applyGpuDvfs_of_ne_zero _ _ _ _ _ ht]
  by_cases hj : dvfsHijack cfg = true
  · rcases lt_trichotomy oldHz (targetHz cfg ctx .mem) with h | h | h
    · simp [hj, h, h.asymm]
    · simp [h]
    · simp [hj, h, h.asymm]
  · simp [hj]

end Rescale

/-! ## The clocks behind each round -/

/-- the clocks `GetHz` answers for the modules of the loop -/
def clock (s : Sys) (m : HocClkModule) : ℕ := s.board.getHz s.env m

/-- the clock of a module behind its own round, outside boost -/
def moduleOutcome (P : Platform) (s : Sys) (m : HocClkModule) : ℕ :=
  if owned s m = true then clock s m
  else if targetHz s.cfg s.ctx m ≠ 0 then
    if nearestTargetHz P s.cfg s.ctx m = s.ctx.freqs m then clock s m else nearestTargetHz P s.cfg s.ctx m
  else stockHz s.env m

/-- the memory round resets the floor -/
def memResets (s : Sys) : Bool := dvfsHijack s.cfg && targetHz s.cfg s.ctx .mem = 0

/-- the memory round moves the floor to another target -/
def memRescales (P : Platform) (s : Sys) : Bool :=
  dvfsHijack s.cfg && decide (targetHz s.cfg s.ctx .mem ≠ 0 ∧
    nearestTargetHz P s.cfg s.ctx .mem ≠ s.ctx.freqs .mem ∧ targetHz s.cfg s.ctx .mem ≠ clock s .mem)

/-- the GPU clock behind the memory round that starts with the GPU at `v` -/
def memRoundGpu (P : Platform) (s : Sys) (v : ℕ) : ℕ :=
  if memResets s = true then goalHz P s.env s.cfg s.ctx .gpu
  else if memRescales P s = true then roundGpu P s.cfg s.ctx v
  else v

theorem stockHz_of_find {env : Env} {apm : HocClkApmConfiguration} (h : findApmConfiguration env.apmMode = some apm)
    (m : HocClkModule) : stockHz env m = apm.hz m := by
  simp [stockHz, h]

/-- a reset of a module leaves its stock rate -/
theorem resetToStockModule_eq {env : Env} {b b' : Board} (h9 : P.hos9 = true)
    (h : b.resetToStockModule P env m = some b') : b' = b.setHz P m (stockHz env m) := by
  obtain ⟨apm, hapm, rfl⟩ := Board.resetToStockModule_some h9 h
  rw [stockHz_of_find hapm]

/-- a reset changes the clock of its module only -/
theorem reset_hw {env : Env} {m : HocClkModule} {b b' : Board} (h : b.resetToStockModule P env m = some b') :
    (m ≠ .gpu → b'.hw.gpuView = b.hw.gpuView) ∧ (m ≠ .mem → b'.hw.memHz = b.hw.memHz) := by
  by_cases h9 : P.hos9 = true
  · obtain rfl := resetToStockModule_eq h9 h
    cases m <;> simp
  · rw [Board.resetToStockModule, if_neg h9] at h
    obtain rfl := Option.some.inj h
    simp

theorem cpuRound (h9 : P.hos9 = true) (h : setClocksModule P false .cpu s = some s') :
    clock s' .cpu = moduleOutcome P s .cpu ∧ clock s' .gpu = clock s .gpu ∧ clock s' .mem = clock s .mem ∧
      s'.board.hw.ramVmin = s.board.hw.ramVmin := by
  rcases setClocksModule_cases h with ⟨ho, rfl⟩ | ⟨ho, ht, hn, rfl⟩ | ⟨ho, ht, hn, b, hb, rfl⟩ | ⟨ho, ht, b, hb, rfl⟩
  · exact ⟨by rw [moduleOutcome, if_pos ho], rfl, rfl, rfl⟩
  · exact ⟨by rw [moduleOutcome, if_neg (by simp [ho]), if_pos ht, if_pos hn], rfl, rfl, rfl⟩
  · rw [writeTarget_of_ne_mem _ _ _ _ _ (by decide)] at hb
    obtain rfl := Option.some.inj hb
    exact ⟨by rw [moduleOutcome, if_neg (by simp [ho]), if_pos ht, if_neg hn]; rfl, rfl, rfl, rfl⟩
  · obtain rfl := resetToStockModule_eq h9 (by simpa [handleFreqReset] using hb)
    exact ⟨by rw [moduleOutcome, if_neg (by simp [ho]), if_neg (not_not.2 ht)]; rfl, rfl, rfl, rfl⟩

theorem gpuRound (h9 : P.hos9 = true) (h : setClocksModule P false .gpu s = some s') :
    clock s' .gpu = moduleOutcome P s .gpu ∧ clock s' .cpu = clock s .cpu ∧ clock s' .mem = clock s .mem ∧
      s'.board.hw.ramVmin = s.board.hw.ramVmin := by
  rcases setClocksModule_cases h with ⟨ho, rfl⟩ | ⟨ho, ht, hn, rfl⟩ | ⟨ho, ht, hn, b, hb, rfl⟩ | ⟨ho, ht, b, hb, rfl⟩
  · exact ⟨by rw [moduleOutcome, if_pos ho], rfl, rfl, rfl⟩
  · exact ⟨by rw [moduleOutcome, if_neg (by simp [ho]), if_pos ht, if_pos hn], rfl, rfl, rfl⟩
  · rw [writeTarget_of_ne_mem _ _ _ _ _ (by decide)] at hb
    obtain rfl := Option.some.inj hb
    rw [moduleOutcome, if_neg (by simp [ho]), if_pos ht, if_neg hn]
    simp [clock, Board.getHz]
  · obtain rfl := resetToStockModule_eq h9 (by simpa [handleFreqReset] using hb)
    rw [moduleOutcome, if_neg (by simp [ho]), if_neg (not_not.2 ht)]
    simp [clock, Board.getHz]

/-- what the reset of the voltage floor leaves: the GPU at its goal, and no floor -/
theorem dvfsReset_hijack {env : Env} {cfg : Config} {ctx : Context} {b b' : Board} (h9 : P.hos9 = true)
    (hj : dvfsHijack cfg = true) (h : dvfsReset P env cfg ctx b = some b') :
    b'.hw.gpuView = goalHz P env cfg ctx .gpu ∧ b'.hw.cpuHz = b.hw.cpuHz ∧ b'.hw.memHz = b.hw.memHz ∧
      b'.hw.ramVmin = if env.hijackOk then 0 else b.hw.ramVmin := by
  rw [dvfsReset, if_pos hj] at h
  obtain ⟨b₁, hb₁, rfl⟩ := Option.map_eq_some_iff.1 h
  obtain rfl := resetToStockModule_eq h9 hb₁
  by_cases ht : targetHz cfg ctx .gpu = 0
  · simp [ht, goalHz, Board.hijack_ramVmin]
  · simp [ht, goalHz, Board.hijack_ramVmin]

/-- the memory reset: the memory at stock, and without its voltage floor where the floor is hijacked -/
theorem memReset_some {env : Env} {cfg : Config} {ctx : Context} {b b' : Board} (h9 : P.hos9 = true)
    (h : handleFreqReset P env cfg ctx .mem boost false b = some b') :
    ∃ b₁, b₁ = b.setHz P .mem (stockHz env .mem) ∧ dvfsReset P env cfg ctx b₁ = some b' := by
  simp only [handleFreqReset, Bool.not_false, if_true] at h
  obtain ⟨b₁, hb₁, h⟩ := Option.bind_eq_some_iff.1 h
  exact ⟨b₁, resetToStockModule_eq h9 hb₁, h⟩

theorem memRound (h9 : P.hos9 = true) (h : setClocksModule P boost .mem s = some s') :
    clock s' .mem = moduleOutcome P s .mem ∧ clock s' .cpu = clock s .cpu ∧
      clock s' .gpu = memRoundGpu P s (clock s .gpu) := by
  have hown : ¬ owned s .mem = true := by simp [owned]
  rw [moduleOutcome, if_neg hown, memRoundGpu, memResets, memRescales]
  rcases setClocksModule_cases h with ⟨ho, rfl⟩ | ⟨ho, ht, hn, rfl⟩ | ⟨ho, ht, hn, b, hb, rfl⟩ | ⟨ho, ht, b, hb, rfl⟩
  · exact absurd ho hown
  · rw [if_pos ht, if_pos hn]
    simp [ht, hn]
  · rw [writeTarget_mem _ _ _ _ _ ht] at hb
    obtain rfl := Option.some.inj hb
    rw [if_pos ht, if_neg hn]
    by_cases hj : dvfsHijack s.cfg = true
    · rcases lt_trichotomy (clock s .mem) (targetHz s.cfg s.ctx .mem) with hlt | heq | hgt
      · have hlt' : s.board.hw.memHz < targetHz s.cfg s.ctx .mem := hlt
        simp [hj, hlt', ht, hn, hlt'.ne', clock, Board.getHz]
      · have heq' : s.board.hw.memHz = targetHz s.cfg s.ctx .mem := heq
        simp [hj, heq', ht, clock, Board.getHz]
      · have hgt' : targetHz s.cfg s.ctx .mem < s.board.hw.memHz := hgt
        simp [hj, hgt', hgt'.asymm, ht, hn, hgt'.ne, clock, Board.getHz]
    · simp [hj, clock, Board.getHz]
  · obtain ⟨b₁, rfl, hd⟩ := memReset_some h9 hb
    rw [if_neg (not_not.2 ht)]
    by_cases hj : dvfsHijack s.cfg = true
    · obtain ⟨hg, hc, hm, -⟩ := dvfsReset_hijack h9 hj hd
      simp [hj, ht, clock, Board.getHz, hg, hc, hm]
    · rw [dvfsReset, if_neg hj] at hd
      obtain rfl := Option.some.inj hd
      simp [hj, clock, Board.getHz]

/-- the floor behind a memory round that writes no target -/
theorem memRound_ramVmin (h9 : P.hos9 = true) (h : setClocksModule P boost .mem s = some s')
    (hn : targetHz s.cfg s.ctx .mem ≠ 0 → nearestTargetHz P s.cfg s.ctx .mem = s.ctx.freqs .mem) :
    s'.board.hw.ramVmin = if targetHz s.cfg s.ctx .mem = 0 ∧ dvfsHijack s.cfg = true ∧ s.env.hijackOk = true then 0
      else s.board.hw.ramVmin := by
  rcases setClocksModule_cases h with ⟨ho, rfl⟩ | ⟨ho, ht, -, rfl⟩ | ⟨ho, ht, hne, -⟩ | ⟨ho, ht, b, hb, rfl⟩
  · simp [owned] at ho
  · simp [ht]
  · exact absurd (hn ht) hne
  · obtain ⟨b₁, rfl, hd⟩ := memReset_some h9 hb
    by_cases hj : dvfsHijack s.cfg = true
    · obtain ⟨-, -, -, hr⟩ := dvfsReset_hijack h9 hj hd
      simp [hr, hj, ht]
    · rw [dvfsReset, if_neg hj] at hd
      obtain rfl := Option.some.inj hd
      simp [hj]

/-! ## The last two rounds -/

theorem releaseModule_clock {env : Env} {new last : Bool} {b b' : Board} (h9 : P.hos9 = true)
    (h : releaseModule P env m new last b = some b') :
    b' = if !new && last then b.setHz P m (stockHz env m) else b := by
  unfold releaseModule at h
  split_ifs at h ⊢ with hc
  · exact resetToStockModule_eq h9 h
  · exact (Option.some.inj h).symm

theorem governorRound (h9 : P.hos9 = true) {hz : ℕ} (h : handleGovernor P hz s = some s') :
    clock s' .cpu = (if !s'.gov.isCpuGovernorEnabled && s.gov.lastCpuGovernorState then stockHz s.env .cpu
      else clock s .cpu) ∧
    clock s' .gpu = (if !s'.gov.isGpuGovernorEnabled && s.gov.lastGpuGovernorState then stockHz s.env .gpu
      else clock s .gpu) ∧
    clock s' .mem = clock s .mem ∧ s'.board.hw.ramVmin = s.board.hw.ramVmin ∧ s'.ctx = s.ctx ∧ SameInputs s s' ∧
    s'.gov.Synced := by
  obtain ⟨b₁, b₂, h₁, h₂, hb, hc, hg, -, hsync, hs'⟩ := handleGovernor_some h
  have henv : s'.env = s.env := by rw [hs']
  have hctx : s'.ctx = s.ctx := by rw [hs']
  have hin : SameInputs s s' := ⟨henv, by rw [hs'], by rw [hs'], by rw [hctx]⟩
  -- the display reset at the end writes no clock of the loop
  have hhw : s'.board.hw = b₂.hw := by
    rw [hb]
    split_ifs <;> rfl
  obtain rfl := releaseModule_clock h9 h₁
  obtain rfl := releaseModule_clock h9 h₂
  refine ⟨?_, ?_, ?_, ?_, hctx, hin, hsync⟩
  · simp only [clock, Board.getHz, hhw, hc]
    split_ifs <;> simp
  · simp only [clock, Board.getHz, hhw, hg]
    split_ifs <;> simp
  · simp only [clock, Board.getHz, hhw]
    split_ifs <;> simp
  · rw [hhw]
    split_ifs <;> simp

theorem displayRound (h : setClocksDisplay P boost s = some s') :
    s'.board.hw = s.board.hw ∧ SameInputs s s' ∧ s'.gov = s.gov ∧
      s'.prepareBoostExit = s.prepareBoostExit ∧ ∀ m, m ≠ .display → s'.ctx.freqs m = s.ctx.freqs m := by
  unfold setClocksDisplay at h
  split_ifs at h with hv ho
  · obtain rfl := Option.some.inj h
    exact ⟨rfl, .refl _, rfl, rfl, fun _ _ => rfl⟩
  · dsimp only at h
    split_ifs at h with ht
    · obtain rfl := Option.some.inj h
      exact ⟨rfl, ⟨rfl, rfl, rfl, rfl⟩, rfl, rfl, fun m hm => Context.setFreq_of_ne _ _ hm⟩
    · obtain ⟨b, hb, rfl⟩ := Option.map_eq_some_iff.1 h
      simp only [handleFreqReset, ho, if_true, ne_eq, not_false_eq_true] at hb
      obtain rfl := Option.some.inj hb
      exact ⟨rfl, ⟨rfl, rfl, rfl, rfl⟩, rfl, rfl, fun _ _ => rfl⟩
  · obtain rfl := Option.some.inj h
    exact ⟨rfl, .refl _, rfl, rfl, fun _ _ => rfl⟩

theorem leaveBoost_frame (P : Platform) (s : Sys) :
    (leaveBoost P s).board.hw = s.board.hw ∧ (leaveBoost P s).ctx = s.ctx ∧ (leaveBoost P s).gov = s.gov ∧
      SameInputs s (leaveBoost P s) := by
  unfold leaveBoost
  split_ifs
  · exact ⟨rfl, rfl, rfl, rfl, rfl, rfl, rfl⟩
  · exact ⟨rfl, rfl, rfl, .refl _⟩

theorem clock_leaveBoost (P : Platform) (s : Sys) (m : HocClkModule) : clock (leaveBoost P s) m = clock s m := by
  obtain ⟨hhw, -, -, hin⟩ := leaveBoost_frame P s
  cases m <;> simp [clock, Board.getHz, hhw, hin.env]

/-- the rounds of a call outside a suspending boost, with the states between them -/
structure Rounds (P : Platform) (boost : Bool) (s s₁ s₂ s₃ s₄ s' : Sys) : Prop where
  cpu : setClocksModule P boost .cpu (leaveBoost P s) = some s₁
  gpu : setClocksModule P boost .gpu s₁ = some s₂
  mem : setClocksModule P boost .mem s₂ = some s₃
  governor : handleGovernor P (targetHz s₃.cfg s₃.ctx .governor) s₃ = some s₄
  display : setClocksDisplay P boost s₄ = some s'

/-- **A call outside a suspending boost is its rounds.** -/
theorem setClocks_rounds (hb : boostSuspends s.cfg boost = false) (h : setClocks P boost s = some s') :
    ∃ s₁ s₂ s₃ s₄, Rounds P boost s s₁ s₂ s₃ s₄ s' := by
  rw [setClocks, if_neg (by simp [hb]), Option.bind_eq_some_iff] at h
  obtain ⟨s₁, h₁, h⟩ := h
  obtain ⟨s₂, h₂, h⟩ := Option.bind_eq_some_iff.1 h
  obtain ⟨s₃, h₃, h⟩ := Option.bind_eq_some_iff.1 h
  obtain ⟨s₄, h₄, h⟩ := Option.bind_eq_some_iff.1 h
  exact ⟨s₁, s₂, s₃, s₄, h₁, h₂, h₃, h₄, h⟩

namespace Rounds

variable {s₁ s₂ s₃ s₄ : Sys}

/-! Inputs, flags and stored frequencies as each round finds them. -/

theorem in₁ (h : Rounds P boost s s₁ s₂ s₃ s₄ s') : SameInputs s s₁ :=
  (leaveBoost_frame P s).2.2.2.trans (setClocksModule_frame h.cpu).1

theorem in₂ (h : Rounds P boost s s₁ s₂ s₃ s₄ s') : SameInputs s s₂ := h.in₁.trans (setClocksModule_frame h.gpu).1

theorem in₃ (h : Rounds P boost s s₁ s₂ s₃ s₄ s') : SameInputs s s₃ := h.in₂.trans (setClocksModule_frame h.mem).1

theorem in₄ (h : Rounds P boost s s₁ s₂ s₃ s₄ s') : SameInputs s s₄ := by
  obtain ⟨_, _, _, _, _, _, _, _, _, hs₄⟩ := handleGovernor_some h.governor
  refine h.in₃.trans ?_
  rw [hs₄]
  exact ⟨rfl, rfl, rfl, rfl⟩

theorem inputs (h : Rounds P boost s s₁ s₂ s₃ s₄ s') : SameInputs s s' := h.in₄.trans (displayRound h.display).2.1

theorem gov₁ (h : Rounds P boost s s₁ s₂ s₃ s₄ s') : s₁.gov = s.gov :=
  (setClocksModule_frame h.cpu).2.1.trans (leaveBoost_frame P s).2.2.1

theorem gov₂ (h : Rounds P boost s s₁ s₂ s₃ s₄ s') : s₂.gov = s.gov := (setClocksModule_frame h.gpu).2.1.trans h.gov₁

theorem gov₃ (h : Rounds P boost s s₁ s₂ s₃ s₄ s') : s₃.gov = s.gov := (setClocksModule_frame h.mem).2.1.trans h.gov₂

theorem gov' (h : Rounds P boost s s₁ s₂ s₃ s₄ s') : s'.gov = s₄.gov := (displayRound h.display).2.2.1

theorem gpuFreq₁ (h : Rounds P boost s s₁ s₂ s₃ s₄ s') : s₁.ctx.freqs .gpu = s.ctx.freqs .gpu := by
  simp [setClocksModule_freqs h.cpu, (leaveBoost_frame P s).2.1]

theorem memFreq₂ (h : Rounds P boost s s₁ s₂ s₃ s₄ s') : s₂.ctx.freqs .mem = s.ctx.freqs .mem := by
  simp [setClocksModule_freqs h.gpu, setClocksModule_freqs h.cpu, (leaveBoost_frame P s).2.1]

theorem clock' (h : Rounds P boost s s₁ s₂ s₃ s₄ s') (m : HocClkModule) : clock s' m = clock s₄ m := by
  obtain ⟨hhw, hin, -⟩ := displayRound h.display
  cases m <;> simp [clock, Board.getHz, hhw, hin.env]

end Rounds

/-! ## A whole call -/

/-- whether the governor drives the CPU behind the call -/
def enabledCpu (s : Sys) : Bool :=
  componentEnabled governorStateCpu s.cfg s.ctx (targetHz s.cfg s.ctx .governor)

def enabledGpu (s : Sys) : Bool :=
  componentEnabled governorStateGpu s.cfg s.ctx (targetHz s.cfg s.ctx .governor)

def enabledVrr (s : Sys) : Bool :=
  componentEnabled governorStateVrr s.cfg s.ctx (targetHz s.cfg s.ctx .governor)

/-- what a call outside boost leaves -/
structure Outcome (P : Platform) (s s' : Sys) : Prop where
  inputs : SameInputs s s'
  synced : s'.gov.Synced
  cpuFlag : s'.gov.isCpuGovernorEnabled = enabledCpu s
  gpuFlag : s'.gov.isGpuGovernorEnabled = enabledGpu s
  vrrFlag : s'.gov.isVRREnabled = enabledVrr s
  cpu : clock s' .cpu =
    if !enabledCpu s && s.gov.lastCpuGovernorState then stockHz s.env .cpu else moduleOutcome P s .cpu
  gpu : clock s' .gpu =
    if !enabledGpu s && s.gov.lastGpuGovernorState then stockHz s.env .gpu
    else memRoundGpu P s (moduleOutcome P s .gpu)
  mem : clock s' .mem = moduleOutcome P s .mem
  freqs : ∀ m, m = .cpu ∨ m = .gpu ∨ m = .mem → s'.ctx.freqs m =
    if owned s m = false ∧ targetHz s.cfg s.ctx m ≠ 0 then nearestTargetHz P s.cfg s.ctx m else s.ctx.freqs m
  ramVmin : (targetHz s.cfg s.ctx .mem ≠ 0 → nearestTargetHz P s.cfg s.ctx .mem = s.ctx.freqs .mem) →
    s'.board.hw.ramVmin = if targetHz s.cfg s.ctx .mem = 0 ∧ dvfsHijack s.cfg = true ∧ s.env.hijackOk = true then 0
      else s.board.hw.ramVmin

theorem owned_congr (h : s'.gov = s.gov) (m : HocClkModule) : owned s' m = owned s m := by
  rw [owned, owned, h]

theorem moduleOutcome_congr (hin : SameInputs s s') (hgov : s'.gov = s.gov) (hf : s'.ctx.freqs m = s.ctx.freqs m)
    (hc : clock s' m = clock s m) : moduleOutcome P s' m = moduleOutcome P s m := by
  rw [moduleOutcome, moduleOutcome, owned_congr hgov, hin.targetHz, hin.nearestTargetHz, hf, hc, hin.env]

theorem roundGpu_congr (hin : SameInputs s s') (v : ℕ) : roundGpu P s'.cfg s'.ctx v = roundGpu P s.cfg s.ctx v := by
  have hp : s'.ctx.profile = s.ctx.profile := by rw [hin.ctx]
  rw [roundGpu, roundGpu, hin.cfg, hp]

theorem memRoundGpu_congr (hin : SameInputs s s') (hf : s'.ctx.freqs .mem = s.ctx.freqs .mem)
    (hc : clock s' .mem = clock s .mem) (v : ℕ) : memRoundGpu P s' v = memRoundGpu P s v := by
  rw [memRoundGpu, memRoundGpu, memResets, memResets, memRescales, memRescales, hin.targetHz, hin.nearestTargetHz, hf,
    hc, hin.goalHz, roundGpu_congr hin, hin.cfg]

theorem componentEnabled_congr (hin : SameInputs s s') (state : ℕ → ℕ) :
    componentEnabled state s'.cfg s'.ctx (targetHz s'.cfg s'.ctx .governor) =
      componentEnabled state s.cfg s.ctx (targetHz s.cfg s.ctx .governor) := by
  rw [componentEnabled, componentEnabled, hin.targetHz, hin.resolveHz]

/-- **What a call outside boost leaves**, clock by clock. -/
theorem setClocks_outcome (h9 : P.hos9 = true) (h : setClocks P false s = some s') : Outcome P s s' := by
  obtain ⟨s₁, s₂, s₃, s₄, hr⟩ := setClocks_rounds (by simp [boostSuspends]) h
  obtain ⟨-, hctx₀, hgov₀, hin₀⟩ := leaveBoost_frame P s
  obtain ⟨c₁, g₁, m₁, v₁⟩ := cpuRound h9 hr.cpu
  obtain ⟨g₂, c₂, m₂, v₂⟩ := gpuRound h9 hr.gpu
  obtain ⟨m₃, c₃, g₃⟩ := memRound h9 hr.mem
  obtain ⟨c₄, g₄, m₄, v₄, hctx₄, -, hsync⟩ := governorRound h9 hr.governor
  obtain ⟨hhw₅, -, -, -, hf₅⟩ := displayRound hr.display
  obtain ⟨-, -, -, -, -, hcpu, hgpu, hvrr, -⟩ := handleGovernor_some hr.governor
  -- the stored frequencies, each written in its own round only
  have f₁ := setClocksModule_freqs hr.cpu
  have f₂ := setClocksModule_freqs hr.gpu
  have f₃ := setClocksModule_freqs hr.mem
  simp only [owned_congr hgov₀, hin₀.targetHz, hin₀.nearestTargetHz] at f₁
  simp only [hctx₀] at f₁
  simp only [owned_congr hr.gov₁, hr.in₁.targetHz, hr.in₁.nearestTargetHz] at f₂
  simp only [owned_congr hr.gov₂, hr.in₂.targetHz, hr.in₂.nearestTargetHz] at f₃
  have clockGpu₁ : clock s₁ .gpu = clock s .gpu := g₁.trans (clock_leaveBoost P s .gpu)
  have clockMem₂ : clock s₂ .mem = clock s .mem := m₂.trans (m₁.trans (clock_leaveBoost P s .mem))
  have out₁ : moduleOutcome P (leaveBoost P s) .cpu = moduleOutcome P s .cpu :=
    moduleOutcome_congr hin₀ hgov₀ (by rw [hctx₀]) (clock_leaveBoost P s .cpu)
  have out₂ : moduleOutcome P s₁ .gpu = moduleOutcome P s .gpu := moduleOutcome_congr hr.in₁ hr.gov₁ hr.gpuFreq₁ clockGpu₁
  have out₃ : moduleOutcome P s₂ .mem = moduleOutcome P s .mem := moduleOutcome_congr hr.in₂ hr.gov₂ hr.memFreq₂ clockMem₂
  have cpuFlag : s'.gov.isCpuGovernorEnabled = enabledCpu s := by
    rw [hr.gov', hcpu, enabledCpu, componentEnabled_congr hr.in₃]
  have gpuFlag : s'.gov.isGpuGovernorEnabled = enabledGpu s := by
    rw [hr.gov', hgpu, enabledGpu, componentEnabled_congr hr.in₃]
  constructor
  case inputs => exact hr.inputs
  case synced => rwa [hr.gov']
  case cpuFlag => exact cpuFlag
  case gpuFlag => exact gpuFlag
  case vrrFlag => rw [hr.gov', hvrr, enabledVrr, componentEnabled_congr hr.in₃]
  case cpu => rw [hr.clock', c₄, ← hr.gov', cpuFlag, hr.gov₃, hr.in₃.env, c₃, c₂, c₁, out₁]
  case gpu =>
    have hmem : ∀ v, memRoundGpu P s₂ v = memRoundGpu P s v := memRoundGpu_congr hr.in₂ hr.memFreq₂ clockMem₂
    rw [hr.clock', g₄, ← hr.gov', gpuFlag, hr.gov₃, hr.in₃.env, g₃, g₂, hmem, out₂]
  case mem => rw [hr.clock', m₄, m₃, out₃]
  case freqs =>
    intro m hm
    have hd : m ≠ .display := by rcases hm with rfl | rfl | rfl <;> decide
    rw [hf₅ m hd, hctx₄, f₃, f₂, f₁]
    rcases hm with rfl | rfl | rfl <;> simp
  case ramVmin =>
    intro hn
    have hv := memRound_ramVmin h9 hr.mem (by rwa [hr.in₂.targetHz, hr.in₂.nearestTargetHz, hr.memFreq₂])
    rw [hhw₅, v₄, hv, hr.in₂.targetHz, hr.in₂.cfg, hr.in₂.env, v₂, v₁, (leaveBoost_frame P s).1]

end RyazhaClk
