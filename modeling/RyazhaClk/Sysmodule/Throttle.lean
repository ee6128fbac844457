/-
The throttle window: from a tick that throttles to stock up to the next tick that does not. Ticks in the window request
stock rates only. The governor thread runs on: nothing it does looks at the power or the temperature, and the flags it
looks at are only written by `SetClocks`, which the window suspends.

- `throttled_tick_requests`: a throttled tick requests stock rates.
- `below_stock_iff`: a window keeps the CPU and the GPU at or below stock exactly when each of its polls that writes
  finds a table entry that does.
- `governors_off_below_stock`: so does every window that starts with both governors off.
- `poll_raises_throttled_cpu`: a poll in the window takes the CPU back up.
-/
import Mathlib.Tactic
import RyazhaClk.Sysmodule.Caps
import RyazhaClk.Sysmodule.LostChange

namespace RyazhaClk

open RyazhaClk.Transition

variable {P : Platform} {s s' : Sys} {m : HocClkModule} {mid : List Event}

/-! ## The property -/

/-- at most the stock rate of the current APM configuration -/
def BelowStock (env : Env) (m : HocClkModule) (x : ℕ) : Prop :=
  ∀ apm, findApmConfiguration env.apmMode = some apm → x ≤ apm.hz m

/-- a step requests no CPU or GPU rate above stock -/
def StepBelowStock (P : Platform) (s : Sys) (e : Event) : Prop :=
  ∀ s', step P s e = some s' → ∀ m, Polled m → ∀ x ∈ s'.board.requests m, BelowStock s.env m x

/-- a tick throttles -/
def Hot (P : Platform) (s : Sys) (e : Event) : Prop := e = Event.tick → shouldThrottle P s.cleared = true

/-- a run of the sysmodule comes to `s`, where a throttled tick starts, and behind it `mid` with throttled ticks only -/
structure Throttled (P : Platform) (s : Sys) (mid : List Event) : Prop where
  reachable : ReachableState P s
  hot : AllSteps (step P) (Hot P) s (.tick :: mid)

/-- no step of a throttle window requests more than stock -/
def ThrottleKeepsStock (P : Platform) : Prop :=
  ∀ s mid, Throttled P s mid → AllSteps (step P) (StepBelowStock P) s (.tick :: mid)

/-- the condition on a step: a poll that writes, not held back on the way down, finds stock rates in the table for what
it asks, the load's share cut at the target and the cap, and for the CPU a minimum up to stock -/
def PollFindsStock (P : Platform) (s : Sys) (e : Event) : Prop :=
  e = .governor → ∀ apm, findApmConfiguration s.env.apmMode = some apm →
    (s.thread.pc = .cpuUpdate → cpuWrites P s = true →
      (P.gFreqTable .cpu).nextEntry (askedHz P s.cfg s.ctx .cpu s.env.cpuLoad) ≤ apm.cpu_hz ∧
        minimumHz s ≤ apm.cpu_hz) ∧
    (s.thread.pc = .gpuUpdate → gpuWrites P s = true →
      (P.gFreqTable .gpu).nextEntry (askedHz P s.cfg s.ctx .gpu s.env.gpuLoad) ≤ apm.gpu_hz)

/-! ## Ticks -/

/-- every rate requested for the module, beyond those of `b`, is its stock rate -/
def AddsStock (env : Env) (b b' : Board) (m : HocClkModule) : Prop :=
  ∀ x ∈ b'.requests m, x ∈ b.requests m ∨ BelowStock env m x

theorem AddsStock.trans {env : Env} {b b₁ b₂ : Board} (h : AddsStock env b b₁ m) (h' : AddsStock env b₁ b₂ m) :
    AddsStock env b b₂ m := by
  intro x hx
  rcases h' x hx with hx | hx
  · exact h x hx
  · exact Or.inr hx

/-- a request of the stock rate of one module adds a stock rate -/
theorem addsStock_setHz {env : Env} {apm : HocClkApmConfiguration} (hapm : findApmConfiguration env.apmMode = some apm)
    (hm : Polled m) (b : Board) (m' : HocClkModule) : AddsStock env b (b.setHz P m' (apm.hz m')) m := by
  intro x hx
  have hgov : m ≠ .governor := by rcases hm with rfl | rfl <;> decide
  by_cases h : m' = m
  · subst h
    rw [Board.requests_setHz_same hgov, List.mem_append, List.mem_singleton] at hx
    rcases hx with hx | rfl
    · exact Or.inl hx
    · right
      intro apm' hapm'
      obtain rfl : apm = apm' := Option.some.inj (hapm.symm.trans hapm')
      exact le_refl _
  · rw [Board.requests_setHz_of_ne h] at hx
    exact Or.inl hx

theorem addsStock_resetToStockModule {env : Env} {b b' : Board} {m' : HocClkModule} (hm : Polled m)
    (h : b.resetToStockModule P env m' = some b') : AddsStock env b b' m := by
  unfold Board.resetToStockModule at h
  split_ifs at h
  · obtain ⟨apm, hapm, rfl⟩ := Option.map_eq_some_iff.1 h
    exact addsStock_setHz hapm hm b m'
  · obtain rfl := Option.some.inj h
    intro x hx
    rw [Board.requests_apmRequest] at hx
    exact Or.inl hx

theorem addsStock_boardAfterTitle {b b' : Board} (hm : Polled m) (h : boardAfterTitle P s b = some b') :
    AddsStock s.env b b' m := by
  unfold boardAfterTitle at h
  split_ifs at h
  · obtain ⟨b₁, hb₁, h⟩ := Option.bind_eq_some_iff.1 h
    have h₁ : AddsStock s.env b b₁ m := by
      unfold Board.resetToStock at hb₁
      split_ifs at hb₁
      · obtain ⟨apm, hapm, rfl⟩ := Option.map_eq_some_iff.1 hb₁
        exact ((addsStock_setHz hapm hm b .cpu).trans (addsStock_setHz hapm hm _ .gpu)).trans
          (addsStock_setHz hapm hm _ .mem)
      · obtain rfl := Option.some.inj hb₁
        intro x hx
        rw [Board.requests_apmRequest] at hx
        exact Or.inl hx
    refine h₁.trans ?_
    split_ifs at h
    · intro x hx
      rcases addsStock_resetToStockModule hm h x hx with hx | hx
      · rw [Board.requests_hijack] at hx
        exact Or.inl hx
      · exact Or.inr hx
    · obtain rfl := Option.some.inj h
      exact fun x hx => Or.inl hx
  · obtain rfl := Option.some.inj h
    exact fun x hx => Or.inl hx

/-- **A throttled tick requests stock rates only.** -/
theorem throttled_tick_requests (hhot : shouldThrottle P s.cleared = true) : StepBelowStock P s .tick := by
  intro s' hstep m hm x hx
  have htick : tick P s.cleared = some s' := hstep
  obtain ⟨f, hf, -⟩ := Option.bind_eq_some_iff.1 htick
  have hskip : f.update = false := by simp [TickFront.update, tickFront_skip hf, hhot]
  obtain rfl := tick_without_update hf hskip htick
  obtain ⟨b₀, b, hb₀, hb, rfl⟩ := tickFront_some hf
  rw [boardAfterSafety, if_pos hhot] at hb₀
  obtain ⟨b₁, hb₁, hb₀⟩ := Option.bind_eq_some_iff.1 hb₀
  have hadds : AddsStock s.env s.cleared.board b m :=
    ((addsStock_resetToStockModule hm hb₁).trans (addsStock_resetToStockModule hm hb₀)).trans
      (addsStock_boardAfterTitle hm hb)
  rcases hadds x hx with h | h
  · simp [Board.requests] at h
  · exact h

/-! ## Polls -/

theorem requests_cleared (s : Sys) (m : HocClkModule) : s.cleared.board.requests m = [] := rfl

theorem vrrCheck_requests (P : Platform) (t : Sys) (hm : Polled m) :
    (vrrCheck P t).board.requests m = t.board.requests m := by
  have hd : HocClkModule.display ≠ m := by rcases hm with rfl | rfl <;> decide
  have hreset : (t.board.resetToStockDisplay P).requests m = t.board.requests m := Board.requests_setHz_of_ne hd 60
  unfold vrrCheck
  dsimp only
  split_ifs
  all_goals first | exact hreset | rfl

theorem vrrUpdate_requests (P : Platform) (fps : ℕ) (t : Sys) (hm : Polled m) :
    (vrrUpdate P fps t).board.requests m = t.board.requests m := by
  have hd : HocClkModule.display ≠ m := by rcases hm with rfl | rfl <;> decide
  have hshow : ∀ r, (showRate P t r).board.requests m = t.board.requests m := by
    intro r
    cases r with
    | none => rfl
    | some hz => exact Board.requests_setHz_of_ne hd hz
  have hkick : ∀ (hz : ℕ) (u : Sys), (vrrKick P hz u).board.requests m = u.board.requests m := by
    intro hz u
    unfold vrrKick
    split_ifs
    · exact Board.requests_setHz_of_ne hd hz
    · rfl
  unfold vrrUpdate
  extract_lets target maxDisplay minDisplay
  by_cases h : maxDisplay = minDisplay
  · rw [if_pos h]
  · rw [if_neg h, hkick, hshow]

/-- what a step of the governor thread requests of the CPU and the GPU -/
theorem governorStep_requests (P : Platform) (s : Sys) (hm : Polled m) :
    (governorStep P s.cleared).board.requests m =
      if s.thread.pc = .cpuUpdate ∧ m = .cpu ∧ cpuWrites P s = true then
        [polledHz P s.cfg s.ctx .cpu s.env.cpuLoad (minimumHz s)]
      else if s.thread.pc = .gpuUpdate ∧ m = .gpu ∧ gpuWrites P s = true then
        [polledHz P s.cfg s.ctx .gpu s.env.gpuLoad 0]
      else [] := by
  have hgoto : ∀ (t : Sys) (pc : GovernorPc), (t.goto pc).board = t.board := fun _ _ => rfl
  have hpc : s.cleared.thread.pc = s.thread.pc := rfl
  have hcpu : cpuWrites P s.cleared = cpuWrites P s := rfl
  have hgpu : gpuWrites P s.cleared = gpuWrites P s := rfl
  have hmin : minimumHz s.cleared = minimumHz s := rfl
  unfold governorStep
  rw [hpc]
  cases h : s.thread.pc with
  | top =>
    simp only [reduceCtorEq, false_and, if_false]
    split_ifs <;> rfl
  | cpuUpdate =>
    simp only [hgoto, cpuUpdate_board, hcpu, hmin, reduceCtorEq, false_and, if_false, true_and]
    rcases hm with rfl | rfl
    · split_ifs <;> simp_all [requests_cleared]
    · split_ifs <;> simp_all [requests_cleared]
  | gpuCheck =>
    simp only [reduceCtorEq, false_and, if_false]
    split_ifs <;> rfl
  | gpuUpdate =>
    simp only [hgoto, gpuUpdate_board, hgpu, reduceCtorEq, false_and, if_false, true_and]
    rcases hm with rfl | rfl
    · split_ifs <;> simp_all [requests_cleared]
    · split_ifs <;> simp_all [requests_cleared]
  | vrrCheck => simp [vrrCheck_requests _ _ hm, requests_cleared]
  | vrrUpdate fps => simp [hgoto, vrrUpdate_requests _ _ _ hm, requests_cleared]

/-- a step of the governor thread keeps to stock exactly under the condition -/
theorem governor_below_stock_iff (P : Platform) (s : Sys) :
    StepBelowStock P s .governor ↔ PollFindsStock P s .governor := by
  have hle : ∀ {m load minHz c}, polledHz P s.cfg s.ctx m load minHz ≤ c ↔
      (P.gFreqTable m).nextEntry (askedHz P s.cfg s.ctx m load) ≤ c ∧ (m = .cpu → minHz ≤ c) := by
    intro m load minHz c
    rw [polledHz_le_iff, tableHz_eq_nextEntry]
  constructor
  · intro h _ apm hapm
    have hstep := h _ rfl
    constructor
    · intro hpc hw
      have hbelow := hstep .cpu (Or.inl rfl) (polledHz P s.cfg s.ctx .cpu s.env.cpuLoad (minimumHz s))
        (by rw [governorStep_requests P s (Or.inl rfl), if_pos ⟨hpc, rfl, hw⟩]; simp) apm hapm
      obtain ⟨hentry, hmin⟩ := hle.1 hbelow
      exact ⟨hentry, hmin rfl⟩
    · intro hpc hw
      have hbelow := hstep .gpu (Or.inr rfl) (polledHz P s.cfg s.ctx .gpu s.env.gpuLoad 0)
        (by rw [governorStep_requests P s (Or.inr rfl), if_neg (by simp), if_pos ⟨hpc, rfl, hw⟩]; simp) apm hapm
      exact (hle.1 hbelow).1
  · intro h s' hstep m hm x hx apm hapm
    obtain rfl := Option.some.inj hstep
    obtain ⟨hcpu, hgpu⟩ := h rfl apm hapm
    rw [governorStep_requests P s hm] at hx
    split_ifs at hx with hc hg
    · obtain ⟨hpc, rfl, hw⟩ := hc
      obtain rfl := List.mem_singleton.1 hx
      obtain ⟨hentry, hmin⟩ := hcpu hpc hw
      exact hle.2 ⟨hentry, fun _ => hmin⟩
    · obtain ⟨hpc, rfl, hw⟩ := hg
      obtain rfl := List.mem_singleton.1 hx
      exact hle.2 ⟨hgpu hpc hw, fun hne => absurd hne (by decide)⟩
    · simp at hx

/-! ## Over runs -/

/-- **When a throttle window keeps to stock**: exactly when each of its polls that writes finds stock rates. -/
theorem below_stock_iff (P : Platform) (s : Sys) (mid : List Event) (h : Throttled P s mid) :
    AllSteps (step P) (StepBelowStock P) s (.tick :: mid) ↔ AllSteps (step P) (PollFindsStock P) s (.tick :: mid) := by
  refine h.hot.congr fun t e hhot => ?_
  cases e with
  | external x =>
    constructor
    · intro _ hne
      simp at hne
    · intro _ t' hstep m _ x hx
      obtain rfl := Option.some.inj hstep
      simp [Sys.move, Board.requests] at hx
  | tick =>
    constructor
    · intro _ hne
      simp at hne
    · intro _
      exact throttled_tick_requests (hhot rfl)
  | governor => exact governor_below_stock_iff P t

/-- no governor is on and the thread is in no update -/
def GovernorsOff (s : Sys) : Prop :=
  s.gov.isCpuGovernorEnabled = false ∧ s.gov.isGpuGovernorEnabled = false ∧ s.thread.pc ≠ .cpuUpdate ∧
    s.thread.pc ≠ .gpuUpdate

theorem vrrCheck_pc (P : Platform) (t : Sys) :
    (vrrCheck P t).thread.pc ≠ .cpuUpdate ∧ (vrrCheck P t).thread.pc ≠ .gpuUpdate := by
  unfold vrrCheck
  dsimp only
  split_ifs <;> simp

/-- the thread enters an update only behind the check of its flag -/
theorem governorStep_pc (P : Platform) (t : Sys) (hcpu : t.gov.isCpuGovernorEnabled = false)
    (hgpu : t.gov.isGpuGovernorEnabled = false) :
    (governorStep P t).thread.pc ≠ .cpuUpdate ∧ (governorStep P t).thread.pc ≠ .gpuUpdate := by
  unfold governorStep
  cases h : t.thread.pc with
  | top =>
    simp only [hcpu, Bool.false_eq_true, if_false]
    split_ifs
    · simp [Sys.forgetCpu, Sys.forgetGpu, h]
    · simp [Sys.goto]
  | cpuUpdate => simp [Sys.goto]
  | gpuCheck =>
    simp only [hgpu, Bool.false_eq_true, if_false]
    simp [Sys.goto]
  | gpuUpdate => simp [Sys.goto]
  | vrrCheck => exact vrrCheck_pc P t
  | vrrUpdate fps => simp [Sys.goto]

/-- in a throttle window a governor that is off stays off: only `SetClocks` writes the flags -/
theorem governorsOff_step {e : Event} (hoff : GovernorsOff s) (hhot : Hot P s e) (h : step P s e = some s') :
    GovernorsOff s' := by
  obtain ⟨hcpu, hgpu, hpc₁, hpc₂⟩ := hoff
  cases e with
  | external x =>
    obtain rfl := Option.some.inj h
    exact ⟨hcpu, hgpu, hpc₁, hpc₂⟩
  | tick =>
    have htick : tick P s.cleared = some s' := h
    obtain ⟨f, hf, -⟩ := Option.bind_eq_some_iff.1 htick
    have hskip : f.update = false := by simp [TickFront.update, tickFront_skip hf, hhot rfl]
    obtain rfl := tick_without_update hf hskip htick
    obtain ⟨_, _, _, _, rfl⟩ := tickFront_some hf
    exact ⟨hcpu, hgpu, hpc₁, hpc₂⟩
  | governor =>
    obtain rfl := Option.some.inj h
    have hgov := (governorStep_frame P s.cleared).gov
    exact ⟨hgov ▸ hcpu, hgov ▸ hgpu, governorStep_pc P s.cleared hcpu hgpu⟩

/-- a window that starts with the governors off keeps to stock -/
theorem governors_off_below_stock (h : Throttled P s mid) (hoff : GovernorsOff s) :
    AllSteps (step P) (StepBelowStock P) s (.tick :: mid) := by
  rw [below_stock_iff P s mid h]
  refine AllSteps.of_inv GovernorsOff (fun _ _ _ hi hhot hstep => governorsOff_step hi hhot hstep) ?_ h.hot hoff
  intro t e hi _ _ apm _
  exact ⟨fun hpc => absurd hpc hi.2.2.1, fun hpc => absurd hpc hi.2.2.2⟩

/-! ## Witnesses -/

/-- the governor word of both components, and a busy CPU -/
def governed : External :=
  { sampleStart.world with
    env := { sampleEnv with cpuLoad := 1000 }
    gOverrideFreqs := fun m => if m = .governor then 0x0202 else 0 }

def governedHot : External :=
  { governed with env := { governed.env with tempSocMilli := 90000 } }

/-- both governors on, with nothing to do -/
def governedIdleHot : External :=
  { governed with env := { sampleEnv with tempSocMilli := 90000 } }

/-- a window of one throttled tick and steps of the governor thread -/
theorem throttled_polls (n : ℕ) (hr : ReachableState sampleConsole s)
    (hhot : shouldThrottle sampleConsole s.cleared = true) :
    Throttled sampleConsole s (List.replicate n .governor) := by
  refine ⟨hr, fun _ => hhot, fun t _ => ?_⟩
  have hgov : AllSteps (step sampleConsole) (fun _ e => e = Event.governor) t (List.replicate n .governor) :=
    allSteps_of_forall fun e he => List.eq_of_mem_replicate he
  refine AllSteps.of_inv (fun _ => True) (fun _ _ _ _ _ _ => trivial) ?_ hgov trivial
  intro _ e _ he htick
  rw [he] at htick
  cases htick

/-- a governor with nothing to do keeps a window to stock: its poll writes the lowest entry of the CPU's table -/
theorem idle_governors_below_stock : ∃ s, Throttled sampleConsole s (List.replicate 2 .governor) ∧
    (AllSteps (step sampleConsole) (StepBelowStock sampleConsole) s (.tick :: List.replicate 2 .governor) ↔
      AllSteps (step sampleConsole) (PollFindsStock sampleConsole) s (.tick :: List.replicate 2 .governor)) ∧
    AllSteps (step sampleConsole) (PollFindsStock sampleConsole) s (.tick :: List.replicate 2 .governor) ∧
    (run (step sampleConsole) s [.tick, .governor, .governor]).map (fun t => t.board.requests .cpu) =
      some [612000000] := by
  have hw : Throttled sampleConsole _ (List.replicate 2 .governor) := throttled_polls 2
    ⟨sampleEnv, sampleConfig, sampleHw, false, [.tick, .external governed, .tick, .external governedIdleHot], rfl⟩ rfl
  refine ⟨_, hw, below_stock_iff _ _ _ hw, ?_, by decide⟩
  have hpoll : ∀ t : Sys, t.env.apmMode = sampleEnv.apmMode →
      (sampleConsole.gFreqTable .cpu).nextEntry (askedHz sampleConsole t.cfg t.ctx .cpu t.env.cpuLoad) ≤ 1020000000 →
      minimumHz t ≤ 1020000000 →
      (sampleConsole.gFreqTable .gpu).nextEntry (askedHz sampleConsole t.cfg t.ctx .gpu t.env.gpuLoad) ≤ 230400000 →
      PollFindsStock sampleConsole t .governor := by
    intro t hmode hcpu hmin hgpu _ apm hapm
    rw [hmode] at hapm
    obtain rfl := Option.some.inj hapm
    exact ⟨fun _ _ => ⟨hcpu, hmin⟩, fun _ _ => hgpu⟩
  refine ⟨fun htick => Event.noConfusion htick, fun t₁ h₁ => ?_⟩
  obtain rfl := Option.some.inj h₁
  refine ⟨hpoll _ rfl (by decide) (by decide) (by decide), fun t₂ h₂ => ?_⟩
  obtain rfl := Option.some.inj h₂
  exact ⟨hpoll _ rfl (by decide) (by decide) (by decide), fun _ _ => trivial⟩

/-- **A poll takes a throttled CPU back up.** The tick resets the CPU to 1020 MHz; the governor thread, still enabled,
polls a busy CPU and requests 1785 MHz at 90 °C. -/
theorem poll_raises_throttled_cpu : ¬ ThrottleKeepsStock sampleConsole := by
  intro h
  have hw : Throttled sampleConsole _ (List.replicate 2 .governor) := throttled_polls 2
    ⟨sampleEnv, sampleConfig, sampleHw, false, [.tick, .external governed, .tick, .external governedHot], rfl⟩ rfl
  obtain ⟨-, htick⟩ := h _ _ hw
  obtain ⟨-, htop⟩ := htick _ rfl
  obtain ⟨hpoll, -⟩ := htop _ rfl
  exact absurd (hpoll _ rfl .cpu (Or.inl rfl) 1785000000 (by decide) _ rfl) (by decide)

end RyazhaClk
