/-
The cap of a module on both paths that program it. `SetClocks` rounds the target to the nearest entry and stops early
at the cap; a governor poll cuts the wanted frequency at the cap, rounds it up to an entry, and raises the CPU to the
configured minimum. Neither order keeps the cap by itself: the cap need not be an entry, so both can round across it,
and the minimum comes last.

- `cap_respected_iff`: the exact condition, for every table, configuration, target, load and minimum.
- `cpuUpdate_board`, `gpuUpdate_board`: what a poll programs is the frequency the condition is about.
- `erista_rounds_over_cap`: with 460.8 MHz deactivated, a handheld Erista runs the GPU at 499.2 MHz.
-/
import Mathlib.Tactic
import RyazhaClk.Sysmodule.System

namespace RyazhaClk

variable {P : Platform} {cfg : Config} {ctx : Context} {m : HocClkModule} {load minHz : ℕ}

/-- the modules a governor polls -/
def Polled (m : HocClkModule) : Prop := m = .cpu ∨ m = .gpu

instance (m : HocClkModule) : Decidable (Polled m) := by unfold Polled; infer_instance

/-- the cap in the current profile -/
def capHz (P : Platform) (cfg : Config) (ctx : Context) (m : HocClkModule) : ℕ :=
  getMaxAllowedHz P.soc cfg m ctx.profile

/-- what a poll asks the table for -/
def askedHz (P : Platform) (cfg : Config) (ctx : Context) (m : HocClkModule) (load : ℕ) : ℕ :=
  governorDesiredHz (P.gFreqTable m) load (resolveHz cfg ctx m false) (capHz P cfg ctx m)

/-- what a poll programs; only the CPU has a configured minimum -/
def polledHz (P : Platform) (cfg : Config) (ctx : Context) (m : HocClkModule) (load minHz : ℕ) : ℕ :=
  let newHz := tableHz (P.gFreqTable m) (askedHz P cfg ctx m load)
  if m = .cpu then clampMinHz minHz newHz else newHz

/-- both paths keep the cap, and a poll keeps the target as rounded to the table, `rounded` -/
structure RespectsCap (P : Platform) (cfg : Config) (ctx : Context) (m : HocClkModule) (load minHz rounded : ℕ) :
    Prop where
  set : nearestTargetHz P cfg ctx m ≤ capHz P cfg ctx m
  poll : Polled m → polledHz P cfg ctx m load minHz ≤ capHz P cfg ctx m
  target : Polled m → resolveHz cfg ctx m false ≠ 0 → polledHz P cfg ctx m load minHz ≤ rounded

/-- the condition on the table, the configuration and the request -/
structure RespectsCapWhen (P : Platform) (cfg : Config) (ctx : Context) (m : HocClkModule) (load minHz rounded : ℕ) :
    Prop where
  /-- the target does not lie above the middle of the step that leads over the cap -/
  step : ∀ l h, [l, h] <:+: (P.gFreqTable m).list → l < capHz P cfg ctx m → capHz P cfg ctx m < h →
    targetHz cfg ctx m ≤ (l + h) / 2
  /-- an entry lies between what is asked and the cap, or the table ends below the cap -/
  entry : Polled m → (∃ e ∈ (P.gFreqTable m).list, askedHz P cfg ctx m load ≤ e ∧ e ≤ capHz P cfg ctx m) ∨
    (P.gFreqTable m).last ≤ capHz P cfg ctx m
  minimum : m = .cpu → minHz ≤ capHz P cfg ctx m
  /-- no more is asked than the rounded target, unless that is the last entry -/
  asked : Polled m → resolveHz cfg ctx m false ≠ 0 →
    askedHz P cfg ctx m load ≤ rounded ∨ (P.gFreqTable m).last ≤ rounded
  minimumTarget : m = .cpu → resolveHz cfg ctx m false ≠ 0 → minHz ≤ rounded

/-- every module with a cap respects it, whatever is asked for; the target is rounded as a poll rounds it -/
def CapsRespected (P : Platform) : Prop :=
  ∀ cfg ctx m load minHz, (P.gFreqTable m).Ascending → 0 < capHz P cfg ctx m →
    (∃ e ∈ (P.gFreqTable m).list, e ≤ capHz P cfg ctx m) →
    RespectsCap P cfg ctx m load minHz (tableHz (P.gFreqTable m) (resolveHz cfg ctx m false))

/-! ## The minimum -/

theorem clampMinHz_le_iff {newHz c : ℕ} : clampMinHz minHz newHz ≤ c ↔ newHz ≤ c ∧ (newHz < minHz → minHz ≤ c) := by
  unfold clampMinHz
  split_ifs with h
  · constructor
    · intro hc
      exact ⟨h.le.trans hc, fun _ => hc⟩
    · rintro ⟨-, hc⟩
      exact hc h
  · constructor
    · intro hc
      exact ⟨hc, fun h' => absurd h' h⟩
    · rintro ⟨hc, -⟩
      exact hc

/-- a poll stays below a bound exactly when its entry and, for the CPU, the minimum do -/
theorem polledHz_le_iff {c : ℕ} : polledHz P cfg ctx m load minHz ≤ c ↔
    tableHz (P.gFreqTable m) (askedHz P cfg ctx m load) ≤ c ∧ (m = .cpu → minHz ≤ c) := by
  rw [polledHz]
  by_cases hm : m = .cpu
  · rw [if_pos hm, clampMinHz_le_iff]
    constructor
    · rintro ⟨hentry, hmin⟩
      refine ⟨hentry, fun _ => ?_⟩
      rcases lt_or_ge (tableHz (P.gFreqTable m) (askedHz P cfg ctx m load)) minHz with hlt | hge
      · exact hmin hlt
      · exact hge.trans hentry
    · rintro ⟨hentry, hmin⟩
      exact ⟨hentry, fun _ => hmin hm⟩
  · simp [hm]

/-- a poll rounds up to at most an entry exactly when it asks for no more, or the entry is the last -/
theorem tableHz_le_entry_iff {t : FreqTable} (ht : t.Ascending) {d r : ℕ} (hr : r ∈ t.list) :
    tableHz t d ≤ r ↔ d ≤ r ∨ t.last ≤ r := by
  rw [tableHz_le_iff ht]
  constructor
  · rintro (⟨e, -, hde, her⟩ | hlast)
    · exact Or.inl (hde.trans her)
    · exact Or.inr hlast
  · rintro (hd | hlast)
    · exact Or.inl ⟨r, hr, hd, le_refl r⟩
    · exact Or.inr hlast

/-! ## Both paths -/

/-- **When the cap is kept on both paths.** For every ascending table with an entry up to the cap, and whatever entry the
target is rounded to. -/
theorem cap_respected_iff (P : Platform) (cfg : Config) (ctx : Context) (m : HocClkModule) (load minHz rounded : ℕ)
    (ht : (P.gFreqTable m).Ascending) (hcap : 0 < capHz P cfg ctx m)
    (hentry : ∃ e ∈ (P.gFreqTable m).list, e ≤ capHz P cfg ctx m) (hr : rounded ∈ (P.gFreqTable m).list) :
    RespectsCap P cfg ctx m load minHz rounded ↔ RespectsCapWhen P cfg ctx m load minHz rounded := by
  have hfirst : (P.gFreqTable m).first ≤ capHz P cfg ctx m := first_le_of_entry ht hentry
  constructor
  · intro h
    exact {
      step := (getNearestHz_le_iff ht hcap hfirst).1 h.set
      entry := fun hm => (tableHz_le_iff ht).1 (polledHz_le_iff.1 (h.poll hm)).1
      minimum := fun hm => (polledHz_le_iff.1 (h.poll (Or.inl hm))).2 hm
      asked := fun hm ht' => (tableHz_le_entry_iff ht hr).1 (polledHz_le_iff.1 (h.target hm ht')).1
      minimumTarget := fun hm ht' => (polledHz_le_iff.1 (h.target (Or.inl hm) ht')).2 hm }
  · intro h
    exact {
      set := (getNearestHz_le_iff ht hcap hfirst).2 h.step
      poll := fun hm => polledHz_le_iff.2 ⟨(tableHz_le_iff ht).2 (h.entry hm), h.minimum⟩
      target := fun hm ht' =>
        polledHz_le_iff.2 ⟨(tableHz_le_entry_iff ht hr).2 (h.asked hm ht'), fun hc => h.minimumTarget hc ht'⟩ }

/-! ## Polls -/

/-- the minimum a CPU poll applies: read again every 50 polls -/
def minimumHz (s : Sys) : ℕ :=
  let refresh : Bool := 50 < s.thread.cpuTick + 1
  if refresh then s.cfg.getConfigValue .cpuGovernorMinimumFreq % 2 ^ 32 else s.thread.minHz

/-- a poll is on its way down from what it wrote last -/
def goingDown (lastHz newHz : ℕ) : Bool := lastHz ≠ 0 ∧ newHz < lastHz

/-- whether a CPU poll writes: not held back on the way down, and assignable -/
def cpuWrites (P : Platform) (s : Sys) : Bool :=
  let down := goingDown s.thread.cpuLastHz (tableHz (P.gFreqTable .cpu) (askedHz P s.cfg s.ctx .cpu s.env.cpuLoad))
  (!down || downHold down s.thread.cpuDownHoldRemaining == 0) &&
    isAssignableHz .cpu (polledHz P s.cfg s.ctx .cpu s.env.cpuLoad (minimumHz s))

def gpuWrites (P : Platform) (s : Sys) : Bool :=
  let down := goingDown s.thread.gpuLastHz (tableHz (P.gFreqTable .gpu) (askedHz P s.cfg s.ctx .gpu s.env.gpuLoad))
  !down || downHold down s.thread.gpuDownHoldRemaining == 0

theorem drive_board (P : Platform) (m : HocClkModule) (hz : ℕ) (w : Bool) (th th' : GovernorThread) (s : Sys) :
    (drive P m hz w th th' s).board = if w = true then s.board.setHz P m hz else s.board := by
  unfold drive
  split_ifs <;> rfl

/-- a CPU poll programs the polled frequency, or nothing -/
theorem cpuUpdate_board (P : Platform) (s : Sys) : (cpuUpdate P s).board =
    if cpuWrites P s = true then s.board.setHz P .cpu (polledHz P s.cfg s.ctx .cpu s.env.cpuLoad (minimumHz s))
    else s.board := by
  have hpolled : polledHz P s.cfg s.ctx .cpu s.env.cpuLoad (minimumHz s) = clampMinHz (minimumHz s)
      (tableHz (P.gFreqTable .cpu) (askedHz P s.cfg s.ctx .cpu s.env.cpuLoad)) := by
    rw [polledHz, if_pos rfl]
  rw [cpuWrites, hpolled]
  exact drive_board _ _ _ _ _ _ _

/-- a GPU poll programs the polled frequency, or nothing -/
theorem gpuUpdate_board (P : Platform) (s : Sys) : (gpuUpdate P s).board =
    if gpuWrites P s = true then s.board.setHz P .gpu (polledHz P s.cfg s.ctx .gpu s.env.gpuLoad 0) else s.board := by
  have hpolled : polledHz P s.cfg s.ctx .gpu s.env.gpuLoad 0 =
      tableHz (P.gFreqTable .gpu) (askedHz P s.cfg s.ctx .gpu s.env.gpuLoad) := by
    rw [polledHz, if_neg (by decide)]
  rw [gpuWrites, hpolled, ← Bool.and_true (_ || _)]
  exact drive_board _ _ _ _ _ _ _

/-! ## Witnesses -/

/-- the rates PCV reports for the GPU of an Erista console -/
def eristaGpuRates : List ℕ := (List.range 19).map fun i => 76800000 + i * 38400000

/-- the voltage of 460.8 MHz is set to the value that deactivates it -/
def deactivatedConfig : Config :=
  { sampleConfig with
    configValues := fun k => if k = .g_volt_e_460800 then 2000 else sampleConfig.configValues k }

/-- an Erista console with the GPU table `RefreshFreqTableRow` builds under that configuration -/
def eristaConsole : Platform :=
  { sampleConsole with
    soc := .erista
    gFreqTable := fun m => match m with
      | .gpu => ⟨76800000, [115200000, 153600000, 192000000, 230400000, 268800000, 307200000, 345600000, 384000000,
          422400000, 499200000, 537600000, 576000000, 614400000, 652800000, 691200000, 729600000, 768000000]⟩
      | _ => sampleConsole.gFreqTable m }

/-- a GPU override in the handheld profile -/
def gpuOverride (hz : ℕ) : Context :=
  { sampleStart.ctx with overrideFreqs := fun m => if m = .gpu then hz else 0 }

/-- an override below the cap keeps it, with the GPU under full load -/
theorem low_override_keeps_cap :
    RespectsCap eristaConsole deactivatedConfig (gpuOverride 384000000) .gpu 1000 0 384000000 ∧
      RespectsCapWhen eristaConsole deactivatedConfig (gpuOverride 384000000) .gpu 1000 0 384000000 := by
  have hkeeps : RespectsCap eristaConsole deactivatedConfig (gpuOverride 384000000) .gpu 1000 0 384000000 :=
    ⟨by decide, fun _ => by decide, fun _ _ => by decide⟩
  exact ⟨hkeeps, (cap_respected_iff _ _ _ _ _ _ _ (by decide) (by decide) ⟨76800000, by decide, by decide⟩
    (by decide)).1 hkeeps⟩

/-- **A deactivated rate at the cap lets the target round over it.** The table is the one the sysmodule builds; the
override of 499.2 MHz lies above the middle of 422.4 and 499.2 MHz, and the cap of 460.8 MHz is no entry. -/
theorem erista_rounds_over_cap :
    refreshFreqTableRow .erista deactivatedConfig .gpu eristaGpuRates 0 = some (eristaConsole.gFreqTable .gpu).list ∧
      ¬ CapsRespected eristaConsole := by
  refine ⟨by decide, fun h => ?_⟩
  have hset := (h deactivatedConfig (gpuOverride 499200000) .gpu 0 0 (by decide) (by decide)
    ⟨76800000, by decide, by decide⟩).set
  exact absurd hset (by decide)

end RyazhaClk
