/-
The GPU voltage floor and the memory clock. In the Hijack mode a memory change installs the floor of the target
frequency, first on the way up and last on the way down, while the hardware gets the rounded target; so the floor is
installed for one frequency and the memory runs at another.

A board is followed operation by operation: `Logged` says that the floor covers the memory clock behind each operation
of the log, and each operation adds one condition to it.

- `memRound_logged_iff`: the memory round keeps the floor exactly under `MemMoveCovered`.
- `floor_covers_iff`: so does a whole run.
- `memMove_of_entry`: for a target that is an entry of the table the condition is on the voltages alone.
- `rounding_outruns_floor`: 1700 MHz installs the floor of 1700 MHz and runs the memory at 1733 MHz.
-/
import Mathlib.Tactic
import RyazhaClk.Sysmodule.System

namespace RyazhaClk

open RyazhaClk.Transition

variable {P : Platform} {s s' : Sys} {v : ℕ → ℕ} {b b' : Board}

/-! ## Moments -/

/-- the floor in PCV covers the memory clock, for the voltage `v` the memory needs -/
def Covers (v : ℕ → ℕ) (hw : Hw) : Prop := v hw.memHz ≤ hw.ramVmin

instance (v : ℕ → ℕ) (hw : Hw) : Decidable (Covers v hw) := by unfold Covers; infer_instance

/-- the floor covers the memory clock behind every operation of the log -/
def Logged (v : ℕ → ℕ) (b : Board) : Prop := ∀ q ∈ b.trace, Covers v q.2

instance (v : ℕ → ℕ) (b : Board) : Decidable (Logged v b) := by unfold Logged; infer_instance

/-- the present moment is one of the log, or covered anyway -/
def Tracked (v : ℕ → ℕ) (b : Board) : Prop := Logged v b → Covers v b.hw

theorem logged_emit (op : HwOp) (hw : Hw) : Logged v (b.emit op hw) ↔ Logged v b ∧ Covers v hw := by
  unfold Logged
  rw [Board.emit_trace]
  simp only [List.mem_append, List.mem_singleton]
  constructor
  · intro h
    exact ⟨fun q hq => h q (Or.inl hq), h (op, hw) (Or.inr rfl)⟩
  · rintro ⟨hlog, hhw⟩ q (hq | rfl)
    · exact hlog q hq
    · exact hhw

theorem tracked_emit (op : HwOp) (hw : Hw) : Tracked v (b.emit op hw) := fun h => ((logged_emit op hw).1 h).2

/-- the operations from `b` to `b'` keep to the floor whatever it is -/
structure Safe (v : ℕ → ℕ) (b b' : Board) : Prop where
  tracked : Tracked v b → Tracked v b'
  logged : Tracked v b → (Logged v b' ↔ Logged v b)

/-- they change neither the memory clock nor the floor -/
structure Quiet (v : ℕ → ℕ) (b b' : Board) : Prop extends Safe v b b' where
  memHz : b'.hw.memHz = b.hw.memHz
  ramVmin : b'.hw.ramVmin = b.hw.ramVmin

theorem Safe.refl (b : Board) : Safe v b b := ⟨id, fun _ => Iff.rfl⟩

theorem Safe.trans {b₁ b₂ : Board} (h : Safe v b b₁) (h' : Safe v b₁ b₂) : Safe v b b₂ where
  tracked := fun ht => h'.tracked (h.tracked ht)
  logged := fun ht => (h'.logged (h.tracked ht)).trans (h.logged ht)

theorem Quiet.refl (b : Board) : Quiet v b b := ⟨.refl b, rfl, rfl⟩

theorem Quiet.trans {b₁ b₂ : Board} (h : Quiet v b b₁) (h' : Quiet v b₁ b₂) : Quiet v b b₂ :=
  ⟨h.toSafe.trans h'.toSafe, h'.memHz.trans h.memHz, h'.ramVmin.trans h.ramVmin⟩

/-- an operation that leaves memory clock and floor alone is quiet -/
theorem quiet_emit (op : HwOp) {hw : Hw} (hm : hw.memHz = b.hw.memHz) (hv : hw.ramVmin = b.hw.ramVmin) :
    Quiet v b (b.emit op hw) := by
  refine ⟨⟨fun _ => tracked_emit op hw, fun ht => ?_⟩, hm, hv⟩
  rw [logged_emit]
  refine ⟨fun h => h.1, fun h => ⟨h, ?_⟩⟩
  rw [Covers, hm, hv]
  exact ht h

theorem quiet_setHz {m : HocClkModule} (hm : m ≠ .mem) (hz : ℕ) (b : Board) : Quiet v b (b.setHz P m hz) := by
  cases m with
  | cpu => exact quiet_emit _ rfl rfl
  | gpu =>
    obtain ⟨g, i, h⟩ := Board.set_gpu P.soc hz b.hw
    exact quiet_emit _ (by rw [h]) (by rw [h])
  | mem => exact absurd rfl hm
  | governor => exact .refl b
  | display => exact quiet_emit _ rfl rfl

/-- a memory change needs the floor of its rate -/
theorem logged_setHz_mem (hz : ℕ) (b : Board) :
    Logged v (b.setHz P .mem hz) ↔ Logged v b ∧ v hz ≤ b.hw.ramVmin := logged_emit _ _

/-- a new floor has to cover the memory clock -/
theorem logged_hijack {env : Env} (hok : env.hijackOk = true) (ht : Tracked v b) (vmin : ℕ) :
    Logged v (b.pcvHijackGpuVolts env vmin) ↔ Logged v b ∧ v b.hw.memHz ≤ vmin := by
  unfold Board.pcvHijackGpuVolts
  by_cases hsame : b.hw.ramVmin = vmin
  · rw [if_pos hsame]
    refine ⟨fun h => ⟨h, ?_⟩, fun h => h.1⟩
    have hcov : v b.hw.memHz ≤ b.hw.ramVmin := ht h
    rwa [hsame] at hcov
  · rw [if_neg hsame, if_pos hok]
    exact logged_emit _ _

theorem tracked_hijack {env : Env} (ht : Tracked v b) (vmin : ℕ) : Tracked v (b.pcvHijackGpuVolts env vmin) := by
  unfold Board.pcvHijackGpuVolts
  split_ifs
  · exact ht
  · exact tracked_emit _ _
  · exact tracked_emit _ _

/-! ## Resets -/

theorem quiet_reset {env : Env} {m : HocClkModule} (h9 : P.hos9 = true) (hm : m ≠ .mem)
    (h : b.resetToStockModule P env m = some b') : Quiet v b b' := by
  obtain rfl := resetToStockModule_eq h9 h
  exact quiet_setHz hm _ _

/-- the memory at a rate that needs no floor -/
theorem safe_setHz_low {hz : ℕ} (hlow : v hz = 0) (b : Board) : Safe v b (b.setHz P .mem hz) := by
  refine ⟨fun _ => tracked_emit _ _, fun _ => ?_⟩
  rw [logged_setHz_mem, hlow]
  simp

/-- no floor for a memory that needs none -/
theorem safe_hijack_zero {env : Env} (hok : env.hijackOk = true) (hlow : v b.hw.memHz = 0) :
    Safe v b (b.pcvHijackGpuVolts env 0) := by
  refine ⟨fun ht => tracked_hijack ht 0, fun ht => ?_⟩
  rw [logged_hijack hok ht, hlow]
  simp

/-- a memory without a target goes to stock first and loses its floor then -/
theorem safe_memReset {env : Env} {cfg : Config} {ctx : Context} {boost : Bool} (h9 : P.hos9 = true)
    (hok : env.hijackOk = true) (hlow : v (stockHz env .mem) = 0)
    (h : handleFreqReset P env cfg ctx .mem boost false b = some b') : Safe v b b' := by
  obtain ⟨b₁, rfl, hd⟩ := memReset_some h9 h
  have hstock : Safe v b (b.setHz P .mem (stockHz env .mem)) := safe_setHz_low hlow b
  by_cases hj : dvfsHijack cfg = true
  · rw [dvfsReset, if_pos hj] at hd
    obtain ⟨b₂, hb₂, rfl⟩ := Option.map_eq_some_iff.1 hd
    have hzero : Safe v (b.setHz P .mem (stockHz env .mem)) _ := safe_hijack_zero hok (by simpa using hlow)
    have hgpu : Quiet v _ b₂ := quiet_reset h9 (by decide) hb₂
    have hsafe : Safe v b b₂ := (hstock.trans hzero).trans hgpu.toSafe
    by_cases ht : targetHz cfg ctx .gpu = 0
    · rw [if_neg (not_not.2 ht)]
      exact hsafe
    · rw [if_pos ht]
      exact hsafe.trans (quiet_setHz (by decide) _ _).toSafe
  · rw [dvfsReset, if_neg hj] at hd
    obtain rfl := Option.some.inj hd
    exact hstock

theorem quiet_safety (h9 : P.hos9 = true) (h : boardAfterSafety P s = some b) : Quiet v s.board b := by
  unfold boardAfterSafety at h
  split_ifs at h
  · obtain ⟨b₁, hb₁, hb⟩ := Option.bind_eq_some_iff.1 h
    exact (quiet_reset h9 (by decide) hb₁).trans (quiet_reset h9 (by decide) hb)
  · obtain rfl := Option.some.inj h
    exact .refl _

/-- a title change resets the memory before it takes its floor away -/
theorem safe_title (h9 : P.hos9 = true) (hok : s.env.hijackOk = true) (hlow : ∀ hz ≤ 1600000000, v hz = 0)
    (h : boardAfterTitle P s b = some b') : Safe v b b' := by
  unfold boardAfterTitle at h
  split_ifs at h
  · obtain ⟨b₁, hb₁, h⟩ := Option.bind_eq_some_iff.1 h
    rw [Board.resetToStock, if_pos h9] at hb₁
    obtain ⟨apm, hapm, rfl⟩ := Option.map_eq_some_iff.1 hb₁
    have hmem : v apm.mem_hz = 0 := hlow _ (stock_memHz_le hapm)
    have hstock : Safe v b (((b.setHz P .cpu apm.cpu_hz).setHz P .gpu apm.gpu_hz).setHz P .mem apm.mem_hz) :=
      ((quiet_setHz (by decide) _ _).toSafe.trans (quiet_setHz (by decide) _ _).toSafe).trans (safe_setHz_low hmem _)
    split_ifs at h
    · have hzero := safe_hijack_zero (b := ((b.setHz P .cpu apm.cpu_hz).setHz P .gpu apm.gpu_hz).setHz P .mem apm.mem_hz)
        hok (by simpa using hmem)
      exact (hstock.trans hzero).trans (quiet_reset h9 (by decide) h).toSafe
    · obtain rfl := Option.some.inj h
      exact hstock
  · obtain rfl := Option.some.inj h
    exact .refl _

/-! ## SetClocks -/

/-- the condition on a memory change: `SetClocks` is about to move the memory from its clock to the rounded target -/
def MemMoveCovered (P : Platform) (s : Sys) : Prop :=
  targetHz s.cfg s.ctx .mem ≠ 0 → nearestTargetHz P s.cfg s.ctx .mem ≠ s.ctx.freqs .mem →
    let v := gpuVminFor P s.cfg
    let old := s.board.hw.memHz
    let target := targetHz s.cfg s.ctx .mem
    let nearest := nearestTargetHz P s.cfg s.ctx .mem
    -- up: the floor of the target is installed under the old clock, then under the rounded target
    (old < target → v old ≤ v target ∧ v nearest ≤ v target) ∧
    -- down: the rounded target runs on the old floor, then on the floor of the target
    (target < old → v nearest ≤ s.board.hw.ramVmin ∧ v nearest ≤ v target) ∧
    (target = old → v nearest ≤ s.board.hw.ramVmin)

instance (P : Platform) (s : Sys) : Decidable (MemMoveCovered P s) := by unfold MemMoveCovered; infer_instance

/-- a target that is an entry of the table is met where the voltage does not fall between the two clocks -/
theorem memMove_of_entry (hentry : nearestTargetHz P s.cfg s.ctx .mem = targetHz s.cfg s.ctx .mem)
    (hcov : Covers (gpuVminFor P s.cfg) s.board.hw)
    (hup : s.board.hw.memHz < targetHz s.cfg s.ctx .mem →
      gpuVminFor P s.cfg s.board.hw.memHz ≤ gpuVminFor P s.cfg (targetHz s.cfg s.ctx .mem))
    (hdown : targetHz s.cfg s.ctx .mem < s.board.hw.memHz →
      gpuVminFor P s.cfg (targetHz s.cfg s.ctx .mem) ≤ gpuVminFor P s.cfg s.board.hw.memHz) :
    MemMoveCovered P s := by
  intro _ _
  dsimp only
  rw [hentry]
  refine ⟨fun hlt => ⟨hup hlt, le_refl _⟩, fun hgt => ⟨(hdown hgt).trans hcov, le_refl _⟩, fun he => ?_⟩
  rw [he]
  exact hcov

theorem quiet_cpuGpuRound {boost : Bool} {m : HocClkModule} (h9 : P.hos9 = true) (hm : m = .cpu ∨ m = .gpu)
    (h : setClocksModule P boost m s = some s') : Quiet v s.board s'.board := by
  have hne : m ≠ .mem := by rcases hm with rfl | rfl <;> decide
  rcases setClocksModule_cases h with ⟨-, rfl⟩ | ⟨-, -, -, rfl⟩ | ⟨-, -, -, b, hb, rfl⟩ | ⟨-, -, b, hb, rfl⟩
  · exact .refl _
  · exact .refl _
  · rw [writeTarget_of_ne_mem _ _ _ _ _ hne] at hb
    obtain rfl := Option.some.inj hb
    exact quiet_setHz hne _ _
  · rcases hm with rfl | rfl
    · rw [handleFreqReset] at hb
      split_ifs at hb
      · exact quiet_reset h9 hne hb
      · obtain rfl := Option.some.inj hb
        exact .refl _
    · exact quiet_reset h9 hne hb

/-- the rescale installs the floor of its rate, which has to cover the memory clock -/
theorem logged_rescale {env : Env} {cfg : Config} {ctx : Context} {b : Board} (hz : ℕ) (hok : env.hijackOk = true)
    (ht : Tracked (gpuVminFor P cfg) b) :
    Tracked (gpuVminFor P cfg) (rescaleGpu P env cfg ctx hz b) ∧
      (Logged (gpuVminFor P cfg) (rescaleGpu P env cfg ctx hz b) ↔
        Logged (gpuVminFor P cfg) b ∧ gpuVminFor P cfg b.hw.memHz ≤ gpuVminFor P cfg hz) := by
  have hquiet : Quiet (gpuVminFor P cfg) (b.pcvHijackGpuVolts env (gpuVminFor P cfg hz)) (rescaleGpu P env cfg ctx hz b) :=
    quiet_setHz (by decide) _ _
  have htracked := @tracked_hijack _ b env ht (gpuVminFor P cfg hz)
  exact ⟨hquiet.tracked htracked, (hquiet.logged htracked).trans (logged_hijack hok ht _)⟩

/-! The condition on the way up, down, and for a memory already at its target. -/

theorem memMoveCovered_up (htg : targetHz s.cfg s.ctx .mem ≠ 0)
    (hn : nearestTargetHz P s.cfg s.ctx .mem ≠ s.ctx.freqs .mem) (h : s.board.hw.memHz < targetHz s.cfg s.ctx .mem) :
    MemMoveCovered P s ↔
      gpuVminFor P s.cfg s.board.hw.memHz ≤ gpuVminFor P s.cfg (targetHz s.cfg s.ctx .mem) ∧
      gpuVminFor P s.cfg (nearestTargetHz P s.cfg s.ctx .mem) ≤ gpuVminFor P s.cfg (targetHz s.cfg s.ctx .mem) := by
  constructor
  · intro hmove
    exact (hmove htg hn).1 h
  · intro hcovered _ _
    exact ⟨fun _ => hcovered, fun hgt => absurd hgt h.asymm, fun he => absurd he h.ne'⟩

theorem memMoveCovered_down (htg : targetHz s.cfg s.ctx .mem ≠ 0)
    (hn : nearestTargetHz P s.cfg s.ctx .mem ≠ s.ctx.freqs .mem) (h : targetHz s.cfg s.ctx .mem < s.board.hw.memHz) :
    MemMoveCovered P s ↔
      gpuVminFor P s.cfg (nearestTargetHz P s.cfg s.ctx .mem) ≤ s.board.hw.ramVmin ∧
      gpuVminFor P s.cfg (nearestTargetHz P s.cfg s.ctx .mem) ≤ gpuVminFor P s.cfg (targetHz s.cfg s.ctx .mem) := by
  constructor
  · intro hmove
    exact (hmove htg hn).2.1 h
  · intro hcovered _ _
    exact ⟨fun hlt => absurd hlt h.asymm, fun _ => hcovered, fun he => absurd he h.ne⟩

theorem memMoveCovered_still (htg : targetHz s.cfg s.ctx .mem ≠ 0)
    (hn : nearestTargetHz P s.cfg s.ctx .mem ≠ s.ctx.freqs .mem) (h : targetHz s.cfg s.ctx .mem = s.board.hw.memHz) :
    MemMoveCovered P s ↔ gpuVminFor P s.cfg (nearestTargetHz P s.cfg s.ctx .mem) ≤ s.board.hw.ramVmin := by
  constructor
  · intro hmove
    exact (hmove htg hn).2.2 h
  · intro hcovered _ _
    exact ⟨fun hlt => absurd h hlt.ne', fun hgt => absurd h hgt.ne, fun _ => hcovered⟩

/-- **The memory round keeps the floor exactly under the condition.** -/
theorem memRound_logged_iff {boost : Bool} (h9 : P.hos9 = true) (hj : dvfsHijack s.cfg = true)
    (hok : s.env.hijackOk = true) (hstock : gpuVminFor P s.cfg (stockHz s.env .mem) = 0)
    (ht : Tracked (gpuVminFor P s.cfg) s.board) (h : setClocksModule P boost .mem s = some s') :
    Tracked (gpuVminFor P s.cfg) s'.board ∧
      (Logged (gpuVminFor P s.cfg) s'.board ↔ Logged (gpuVminFor P s.cfg) s.board ∧ MemMoveCovered P s) := by
  rcases setClocksModule_cases h with ⟨ho, -⟩ | ⟨-, htg, hn, rfl⟩ | ⟨-, htg, hn, b, hb, rfl⟩ | ⟨-, htg, b, hb, rfl⟩
  · simp [owned] at ho
  · exact ⟨ht, by simp [MemMoveCovered, hn]⟩
  · rw [writeTarget_mem _ _ _ _ _ htg] at hb
    have hold : s.board.getHz s.env .mem = s.board.hw.memHz := rfl
    rw [hold] at hb
    rcases lt_trichotomy s.board.hw.memHz (targetHz s.cfg s.ctx .mem) with hlt | heq | hgt
    · rw [if_pos ⟨hj, hlt⟩] at hb
      obtain rfl := Option.some.inj hb
      refine ⟨tracked_emit _ _, ?_⟩
      rw [logged_setHz_mem, (logged_rescale _ hok ht).2, rescaleGpu_ramVmin, if_pos hok, memMoveCovered_up htg hn hlt,
        and_assoc]
    · have hnup : ¬ (dvfsHijack s.cfg = true ∧ s.board.hw.memHz < targetHz s.cfg s.ctx .mem) := fun h => h.2.ne heq
      have hndown : ¬ (dvfsHijack s.cfg = true ∧ targetHz s.cfg s.ctx .mem < s.board.hw.memHz) :=
        fun h => h.2.ne heq.symm
      rw [if_neg hnup, if_neg hndown] at hb
      obtain rfl := Option.some.inj hb
      refine ⟨tracked_emit _ _, ?_⟩
      rw [logged_setHz_mem, memMoveCovered_still htg hn heq.symm]
    · have hnup : ¬ (dvfsHijack s.cfg = true ∧ s.board.hw.memHz < targetHz s.cfg s.ctx .mem) := fun h => h.2.asymm hgt
      rw [if_neg hnup, if_pos ⟨hj, hgt⟩] at hb
      obtain rfl := Option.some.inj hb
      have hmem : Tracked (gpuVminFor P s.cfg) (s.board.setHz P .mem (nearestTargetHz P s.cfg s.ctx .mem)) :=
        tracked_emit _ _
      refine ⟨(logged_rescale _ hok hmem).1, ?_⟩
      rw [(logged_rescale _ hok hmem).2, logged_setHz_mem, Board.setHz_mem_memHz, memMoveCovered_down htg hn hgt,
        and_assoc]
  · have hsafe : Safe (gpuVminFor P s.cfg) s.board b := safe_memReset h9 hok hstock hb
    refine ⟨hsafe.tracked ht, ?_⟩
    rw [hsafe.logged ht]
    exact ⟨fun hlog => ⟨hlog, fun hne => absurd htg hne⟩, fun hlog => hlog.1⟩

theorem quiet_release {env : Env} {m : HocClkModule} {new last : Bool} (h9 : P.hos9 = true) (hm : m ≠ .mem)
    (h : releaseModule P env m new last b = some b') : Quiet v b b' := by
  unfold releaseModule at h
  split_ifs at h
  · exact quiet_reset h9 hm h
  · obtain rfl := Option.some.inj h
    exact .refl _

theorem quiet_governor {hz : ℕ} (h9 : P.hos9 = true) (h : handleGovernor P hz s = some s') :
    Quiet v s.board s'.board := by
  obtain ⟨b₁, b₂, h₁, h₂, hb, -⟩ := handleGovernor_some h
  have hq : Quiet v s.board b₂ := (quiet_release h9 (by decide) h₁).trans (quiet_release h9 (by decide) h₂)
  rw [hb]
  split_ifs
  · exact hq.trans (quiet_setHz (by decide) _ _)
  · exact hq

theorem quiet_display {boost : Bool} (h : setClocksDisplay P boost s = some s') : Quiet v s.board s'.board := by
  unfold setClocksDisplay at h
  by_cases hv : s.gov.isVRREnabled = true
  · rw [if_pos hv] at h
    obtain rfl := Option.some.inj h
    exact .refl _
  · rw [if_neg hv] at h
    by_cases ho : s.cfg.getConfigValue .overwriteRefreshRate ≠ 0
    · rw [if_pos ho] at h
      dsimp only at h
      split_ifs at h
      · obtain rfl := Option.some.inj h
        exact quiet_emit _ rfl rfl
      · obtain ⟨b, hb, rfl⟩ := Option.map_eq_some_iff.1 h
        rw [handleFreqReset, if_pos ho] at hb
        obtain rfl := Option.some.inj hb
        exact quiet_emit _ rfl rfl
    · rw [if_neg ho] at h
      obtain rfl := Option.some.inj h
      exact .refl _

theorem quiet_rewriteCpu (s : Sys) : Quiet v s.board (rewriteCpu P s).board := quiet_emit _ rfl rfl

/-- the rounds before the memory round do not touch what its condition reads -/
theorem memMoveCovered_congr (hin : SameInputs s s') (hf : s'.ctx.freqs .mem = s.ctx.freqs .mem)
    (hm : s'.board.hw.memHz = s.board.hw.memHz) (hv : s'.board.hw.ramVmin = s.board.hw.ramVmin) :
    MemMoveCovered P s' ↔ MemMoveCovered P s := by
  unfold MemMoveCovered
  rw [hin.targetHz, hin.nearestTargetHz, hin.cfg, hf, hm, hv]

/-- a call keeps the floor exactly when boost suspends it or its memory change meets the condition -/
theorem setClocks_logged_iff {boost : Bool} (h9 : P.hos9 = true) (hj : dvfsHijack s.cfg = true)
    (hok : s.env.hijackOk = true) (hstock : gpuVminFor P s.cfg (stockHz s.env .mem) = 0)
    (ht : Tracked (gpuVminFor P s.cfg) s.board) (h : setClocks P boost s = some s') :
    Tracked (gpuVminFor P s.cfg) s'.board ∧ (Logged (gpuVminFor P s.cfg) s'.board ↔
      Logged (gpuVminFor P s.cfg) s.board ∧ (boostSuspends s.cfg boost = false → MemMoveCovered P s)) := by
  by_cases hb : boostSuspends s.cfg boost = true
  · rw [setClocks, if_pos hb] at h
    obtain rfl := Option.some.inj h
    have hq : Quiet (gpuVminFor P s.cfg) s.board (rewriteCpu P s).board := quiet_rewriteCpu s
    exact ⟨hq.tracked ht, by rw [hq.logged ht]; simp [hb]⟩
  · have hb' : boostSuspends s.cfg boost = false := Bool.eq_false_iff.2 hb
    obtain ⟨s₁, s₂, s₃, s₄, hr⟩ := setClocks_rounds hb' h
    have q₀ : Quiet (gpuVminFor P s.cfg) s.board (leaveBoost P s).board := by
      unfold leaveBoost
      split_ifs
      · exact quiet_rewriteCpu s
      · exact .refl _
    have q₂ : Quiet (gpuVminFor P s.cfg) s.board s₂.board :=
      (q₀.trans (quiet_cpuGpuRound h9 (Or.inl rfl) hr.cpu)).trans
        (quiet_cpuGpuRound h9 (Or.inr rfl) hr.gpu)
    have hmem := memRound_logged_iff h9 (by rwa [hr.in₂.cfg]) (by rwa [hr.in₂.env])
      (by rwa [hr.in₂.cfg, hr.in₂.env]) (by rw [hr.in₂.cfg]; exact q₂.tracked ht) hr.mem
    rw [hr.in₂.cfg, memMoveCovered_congr hr.in₂ hr.memFreq₂ q₂.memHz q₂.ramVmin, q₂.logged ht] at hmem
    have q₅ : Quiet (gpuVminFor P s.cfg) s₃.board s'.board := (quiet_governor h9 hr.governor).trans
      (quiet_display hr.display)
    refine ⟨q₅.tracked hmem.1, ?_⟩
    rw [q₅.logged hmem.1, hmem.2]
    simp [hb']

/-! ## Over runs -/

/-- the floor covers the memory clock now and behind every operation of the last step -/
def FloorCovers (P : Platform) (s : Sys) : Prop :=
  Covers (gpuVminFor P s.cfg) s.board.hw ∧ Logged (gpuVminFor P s.cfg) s.board

/-- the floor covers the memory clock at every moment of a step -/
def StepCovers (P : Platform) (s : Sys) (e : Event) : Prop := ∀ s', step P s e = some s' → FloorCovers P s'

/-- the setting of a run: the Hijack mode with the voltage offset `offset`, and every write into PCV succeeds -/
def Hijacking (offset : ℕ) (s : Sys) : Prop :=
  dvfsHijack s.cfg = true ∧ s.cfg.getConfigValue .dvfsOffset = offset ∧ s.env.hijackOk = true

/-- a run of the sysmodule in that setting, from a state in which the floor covers the memory clock -/
structure HijackRun (P : Platform) (offset : ℕ) (s : Sys) (es : List Event) : Prop where
  start : Hijacking offset s
  covered : Covers (gpuVminFor P s.cfg) s.board.hw
  steps : AllSteps (step P) (fun s e => ∃ s', step P s e = some s' ∧ Hijacking offset s') s es

/-- the floor covers the memory clock at every moment of every such run in which nobody else moves the memory -/
def FloorAlwaysCovers (P : Platform) : Prop :=
  ∀ offset s es, HijackRun P offset s es →
    AllSteps (step P) (fun s e => ∀ x, e = .external x → x.memHz = s.board.hw.memHz) s es →
    AllSteps (step P) (StepCovers P) s es

/-- the condition on a step: a tick that sets clocks outside a suspending boost moves the memory under `MemMoveCovered`,
and what others do to the memory clock stays under the floor -/
def MovesCovered (P : Platform) (s : Sys) : Event → Prop
  | .tick => ∀ f, tickFront P s.cleared = some f → f.update = true → boostSuspends f.sys.cfg f.isBoost = false →
      MemMoveCovered P f.sys
  | .external x => gpuVminFor P s.cfg x.memHz ≤ s.board.hw.ramVmin
  | .governor => True

theorem gpuVminFor_congr {c c' : Config} (h : c'.getConfigValue .dvfsOffset = c.getConfigValue .dvfsOffset) :
    gpuVminFor P c' = gpuVminFor P c := by
  funext hz
  rw [gpuVminFor, gpuVminFor, h]

theorem stock_needs_no_floor {env : Env} {c : Config} : gpuVminFor P c (stockHz env .mem) = 0 := by
  refine gpuVminFor_low P c ?_
  rw [stockHz]
  cases h : findApmConfiguration env.apmMode with
  | none => simp
  | some apm => exact stock_memHz_le h

theorem setClocks_inputs {boost : Bool} (h : setClocks P boost s = some s') : SameInputs s s' := by
  by_cases hb : boostSuspends s.cfg boost = true
  · rw [setClocks, if_pos hb] at h
    obtain rfl := Option.some.inj h
    exact ⟨rfl, rfl, rfl, rfl⟩
  · obtain ⟨s₁, s₂, s₃, s₄, hr⟩ := setClocks_rounds (Bool.eq_false_iff.2 hb) h
    exact hr.inputs

theorem quiet_drive {m : HocClkModule} (hm : m ≠ .mem) (hz : ℕ) (w : Bool) (th th' : GovernorThread) (s : Sys) :
    Quiet v s.board (drive P m hz w th th' s).board := by
  unfold drive
  split_ifs
  · exact quiet_setHz hm hz _
  · exact .refl _

theorem quiet_vrrCheck (s : Sys) : Quiet v s.board (vrrCheck P s).board := by
  have hreset : Quiet v s.board (s.board.resetToStockDisplay P) := quiet_emit _ rfl rfl
  unfold vrrCheck
  dsimp only
  split_ifs
  all_goals first | exact hreset | exact .refl _

theorem quiet_vrrUpdate (fps : ℕ) (s : Sys) : Quiet v s.board (vrrUpdate P fps s).board := by
  have hshow : ∀ r, Quiet v s.board (showRate P s r).board := by
    intro r
    cases r with
    | none => exact .refl _
    | some hz => exact quiet_emit _ rfl rfl
  have hkick : ∀ (hz : ℕ) (t : Sys), Quiet v t.board (vrrKick P hz t).board := by
    intro hz t
    unfold vrrKick
    split_ifs
    · exact quiet_emit _ rfl rfl
    · exact .refl _
  unfold vrrUpdate
  extract_lets target maxDisplay minDisplay
  by_cases h : maxDisplay = minDisplay
  · rw [if_pos h]
    exact .refl _
  · rw [if_neg h]
    exact (hshow _).trans (hkick _ _)

/-- the governor thread moves neither the memory nor the floor -/
theorem quiet_governorStep (P : Platform) (s : Sys) : Quiet v s.board (governorStep P s).board := by
  unfold governorStep
  cases s.thread.pc with
  | top =>
    dsimp only
    split_ifs <;> exact .refl _
  | cpuUpdate => exact quiet_drive (by decide) _ _ _ _ s
  | gpuCheck =>
    dsimp only
    split_ifs <;> exact .refl _
  | gpuUpdate => exact quiet_drive (by decide) _ _ _ _ s
  | vrrCheck => exact quiet_vrrCheck s
  | vrrUpdate fps => exact quiet_vrrUpdate fps s

/-- the front of a tick keeps the floor: its resets take the memory down before the floor -/
theorem front_covers {f : TickFront} (h9 : P.hos9 = true) (hok : s.env.hijackOk = true)
    (hcov : Covers (gpuVminFor P s.cfg) s.board.hw) (hf : tickFront P s.cleared = some f) :
    Tracked (gpuVminFor P s.cfg) f.sys.board ∧ Logged (gpuVminFor P s.cfg) f.sys.board := by
  obtain ⟨b₀, b, hb₀, hb, rfl⟩ := tickFront_some hf
  have htracked : Tracked (gpuVminFor P s.cfg) s.cleared.board := fun _ => hcov
  have hsafe : Safe (gpuVminFor P s.cfg) s.cleared.board b :=
    (quiet_safety h9 hb₀).toSafe.trans (safe_title h9 hok (fun hz hlow => gpuVminFor_low P s.cfg hlow) hb)
  have hlog : Logged (gpuVminFor P s.cfg) s.cleared.board := by simp [Logged]
  exact ⟨hsafe.tracked htracked, (hsafe.logged htracked).2 hlog⟩

/-- a tick in the Hijack mode keeps the floor exactly under the condition -/
theorem tick_covers_iff {offset : ℕ} (h9 : P.hos9 = true) (hs : Hijacking offset s)
    (hcov : Covers (gpuVminFor P s.cfg) s.board.hw) (hstep : step P s .tick = some s') (hs' : Hijacking offset s') :
    StepCovers P s .tick ↔ MovesCovered P s .tick := by
  have htick : tick P s.cleared = some s' := hstep
  obtain ⟨f, hf, hset⟩ := Option.bind_eq_some_iff.1 htick
  obtain ⟨htracked, hlogged⟩ := front_covers h9 hs.2.2 hcov hf
  have henv : f.sys.env = s.env := by
    obtain ⟨_, _, _, _, rfl⟩ := tickFront_some hf
    rfl
  have hv' : gpuVminFor P s'.cfg = gpuVminFor P s.cfg := gpuVminFor_congr (hs'.2.1.trans hs.2.1.symm)
  have hcovers : StepCovers P s .tick ↔ FloorCovers P s' := by
    constructor
    · exact fun h => h s' hstep
    · intro h t ht
      obtain rfl : s' = t := Option.some.inj (hstep.symm.trans ht)
      exact h
  rw [hcovers, FloorCovers, hv']
  by_cases hu : f.update = true
  · rw [if_pos hu] at hset
    have hin : SameInputs f.sys s' := setClocks_inputs hset
    have hv : gpuVminFor P f.sys.cfg = gpuVminFor P s.cfg := by rw [← hin.cfg, hv']
    obtain ⟨htr, hlog⟩ := setClocks_logged_iff h9 (by rw [← hin.cfg]; exact hs'.1) (by rw [henv]; exact hs.2.2)
      stock_needs_no_floor (by rwa [hv]) hset
    rw [hv] at htr hlog
    constructor
    · rintro ⟨-, h⟩ f' hf' _
      obtain rfl : f = f' := Option.some.inj (hf.symm.trans hf')
      exact (hlog.1 h).2
    · intro h
      have hall := hlog.2 ⟨hlogged, h f hf hu⟩
      exact ⟨htr hall, hall⟩
  · rw [if_neg hu] at hset
    obtain rfl := Option.some.inj hset
    constructor
    · intro _ f' hf' hu'
      obtain rfl : f = f' := Option.some.inj (hf.symm.trans hf')
      exact absurd hu' hu
    · intro _
      exact ⟨htracked hlogged, hlogged⟩

/-- **When the floor covers the memory clock throughout a run**: exactly when every memory change of `SetClocks` meets the
condition and nobody else takes the memory above the floor. -/
theorem floor_covers_iff (P : Platform) (offset : ℕ) (s : Sys) (es : List Event) (h9 : P.hos9 = true)
    (h : HijackRun P offset s es) :
    AllSteps (step P) (StepCovers P) s es ↔ AllSteps (step P) (MovesCovered P) s es := by
  refine h.steps.congr_inv (fun s => Hijacking offset s ∧ Covers (gpuVminFor P s.cfg) s.board.hw) ⟨h.start, h.covered⟩
    ?_ ?_
  · rintro s e ⟨hs, hcov⟩ ⟨s', hstep, hs'⟩
    cases e with
    | tick => exact tick_covers_iff h9 hs hcov hstep hs'
    | governor =>
      have hq : Quiet (gpuVminFor P s.cfg) s.cleared.board (governorStep P s.cleared).board :=
        quiet_governorStep P s.cleared
      have htracked : Tracked (gpuVminFor P s.cfg) s.cleared.board := fun _ => hcov
      have hlog := (hq.logged htracked).2 (by simp [Logged])
      refine ⟨fun _ => trivial, fun _ t ht => ?_⟩
      obtain rfl := Option.some.inj ht
      rw [FloorCovers, (governorStep_frame P s.cleared).cfg]
      exact ⟨hq.tracked htracked hlog, hlog⟩
    | external x =>
      obtain rfl := Option.some.inj hstep
      have hv : gpuVminFor P (s.cleared.move x).cfg = gpuVminFor P s.cfg :=
        gpuVminFor_congr (hs'.2.1.trans hs.2.1.symm)
      constructor
      · intro h
        have hnow := (h _ rfl).1
        rwa [hv] at hnow
      · intro h t ht
        obtain rfl := Option.some.inj ht
        rw [FloorCovers, hv]
        exact ⟨h, by simp [Logged, Sys.move]⟩
  · rintro s e t ⟨-, -⟩ ⟨s', hstep, hs'⟩ hC ht
    obtain rfl : s' = t := Option.some.inj (hstep.symm.trans ht)
    exact ⟨hs', (hC _ ht).1⟩

/-! ## Witnesses -/

/-- the memory is overridden, and nothing else moves; the default mode is Hijack, without an offset -/
def memOverride (hz : ℕ) : External :=
  { sampleStart.world with gOverrideFreqs := fun m => if m = .mem then hz else 0 }

theorem hijackRun_memOverride (hz : ℕ) (ht : ∃ s', step sampleConsole (sampleStart.cleared.move (memOverride hz)) .tick =
    some s' ∧ Hijacking 0 s') : HijackRun sampleConsole 0 sampleStart [.external (memOverride hz), .tick] := by
  refine ⟨⟨rfl, rfl, rfl⟩, by decide, ⟨_, rfl, rfl, rfl, rfl⟩, fun t hmove => ?_⟩
  obtain rfl := Option.some.inj hmove
  exact ⟨ht, fun _ _ => trivial⟩

/-- an override that is an entry of the table keeps the floor: the memory goes up to 1866 MHz behind it -/
theorem entry_override_covered :
    AllSteps (step sampleConsole) (StepCovers sampleConsole) sampleStart [.external (memOverride 1866000000), .tick] := by
  have hrun := hijackRun_memOverride 1866000000 ⟨_, rfl, rfl, rfl, rfl⟩
  rw [floor_covers_iff sampleConsole 0 sampleStart _ rfl hrun]
  have hexternal : gpuVminFor sampleConsole sampleStart.cfg 1600000000 ≤ 0 := by decide
  refine ⟨hexternal, fun t hmove => ⟨fun f hf _ _ => ?_, fun _ _ => trivial⟩⟩
  obtain rfl := Option.some.inj hmove
  obtain rfl := Option.some.inj hf
  decide

/-- **A rounded target outruns its floor.** For an override of 1700 MHz the floor of 1700 MHz, 540 mV, is installed, and
the memory is set to 1733 MHz, which needs 545 mV. -/
theorem rounding_outruns_floor : ¬ FloorAlwaysCovers sampleConsole := by
  intro h
  have hrun := hijackRun_memOverride 1700000000 ⟨_, rfl, rfl, rfl, rfl⟩
  have hstill : AllSteps (step sampleConsole) (fun s e => ∀ x, e = .external x → x.memHz = s.board.hw.memHz) sampleStart
      [.external (memOverride 1700000000), .tick] := by
    refine ⟨?_, fun _ _ => ⟨?_, fun _ _ => trivial⟩⟩
    · intro x hx
      cases hx
      rfl
    · intro x hx
      cases hx
  obtain ⟨-, htick⟩ := h 0 sampleStart _ hrun hstill
  obtain ⟨hlast, -⟩ := htick _ rfl
  exact absurd (hlast _ rfl).1 (by decide)

end RyazhaClk
