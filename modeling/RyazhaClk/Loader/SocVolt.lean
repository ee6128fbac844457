/-
The SoC maximum in three patches. `SocVoltLimit` extends the array of voltage limits up to `marikoSocVmax` rounded down
to a step of 25 mV; `SocVoltAsm` encodes `marikoSocVmax` as the cap, and `MemFreqDvbTable` clamps to it, both unrounded.

- `exec_extendSocVoltLimit`, `socLimits_eq`: the limits are the stock ones and a step of 25 mV each up to the rounded
  maximum.
- `socVoltAsm_cap`: the cap in the code is `marikoSocVmax`.
- `socVoltsAgree_iff`: no DVB voltage is over the last limit exactly when the maximum is a whole number of steps, or the
  highest row stays below it.
- `dvb_over_last_limit`: with 1190 mV configured the DVB table asks for 1190 mV, and the limits end at 1175 mV.
-/
import Mathlib.Data.List.GetD
import RyazhaClk.Loader.DvbTable
import RyazhaClk.Loader.EmcSteps
import RyazhaClk.Loader.MarikoPatchers

namespace RyazhaClk.Loader

open Terminated Validated Brackets Mariko

/-! ## The array of limits -/

theorem matchesAt_iff {w : Words} {ptr : ℤ} {values : List (BitVec 32)} :
    matchesAt w ptr values = true ↔ ∀ (i : ℕ) (v : BitVec 32), values[i]? = some v → w (ptr + i) = v := by
  induction values generalizing ptr with
  | nil => simp [matchesAt]
  | cons value values ih =>
    rw [matchesAt, Bool.and_eq_true, decide_eq_true_eq, ih]
    constructor
    · rintro ⟨hhead, htail⟩ i v hv
      rcases i with _ | i
      · simp only [List.getElem?_cons_zero, Option.some.injEq] at hv
        simpa [hv] using hhead
      · rw [List.getElem?_cons_succ] at hv
        have h := htail i v hv
        rwa [show ptr + 1 + (i : ℤ) = ptr + ((i + 1 : ℕ) : ℤ) by push_cast; ring] at h
    · intro h
      refine ⟨by simpa using h 0 value rfl, ?_⟩
      intro i v hv
      have hnext := h (i + 1) v (by rwa [List.getElem?_cons_succ])
      rwa [show ptr + ((i + 1 : ℕ) : ℤ) = ptr + 1 + (i : ℤ) by push_cast; ring] at hnext

/-- `n` words from `start` on hold the voltages behind `volt`, in steps of 25 mV -/
def withSteps (w : Words) (start : ℤ) (n volt : ℕ) : Words := fun p =>
  if start ≤ p ∧ p < start + n then BitVec.ofNat 32 (volt + 25 * ((p - start).toNat + 1)) else w p

@[simp] theorem withSteps_zero (w : Words) (start : ℤ) (volt : ℕ) : withSteps w start 0 volt = w := by
  funext p
  rw [withSteps, if_neg (by omega)]

theorem withSteps_succ (w : Words) (start : ℤ) (n volt : ℕ) :
    withSteps (Function.update w start (BitVec.ofNat 32 (volt + 25))) (start + 1) n (volt + 25) =
      withSteps w start (n + 1) volt := by
  funext p
  unfold withSteps
  by_cases hp : p = start
  · subst hp
    rw [if_neg (by omega), if_pos (by omega), Function.update_self]
    simp
  · rw [Function.update_of_ne hp]
    by_cases hin : start ≤ p ∧ p < start + (n + 1 : ℕ)
    · rw [if_pos (by omega), if_pos hin]
      congr 1
      omega
    · rw [if_neg (by omega), if_neg hin]

/-- the loop writes a step for each 25 mV up to the maximum, until the end of the array -/
theorem exec_extendSocVoltLimit (ptr : ℤ) (maxVolt fuel i volt : ℕ) (s : PcvState) :
    (extendSocVoltLimit ptr maxVolt fuel i volt).exec s =
      (.ok (), { s with words := withSteps s.words (ptr + i) (min fuel ((maxVolt - volt + 24) / 25)) volt }) := by
  induction fuel generalizing i volt s with
  | zero => rw [extendSocVoltLimit, exec_pure, Nat.zero_min, withSteps_zero]
  | succ fuel ih =>
    rw [extendSocVoltLimit]
    by_cases hvolt : volt < maxVolt
    · have hsteps : min (fuel + 1) ((maxVolt - volt + 24) / 25) = min fuel ((maxVolt - (volt + 25) + 24) / 25) + 1 := by
        omega
      have hnext : ptr + ((i + 1 : ℕ) : ℤ) = ptr + i + 1 := by
        push_cast
        ring
      rw [if_pos hvolt, exec_bind, exec_patchOffset]
      dsimp only
      rw [ih, hsteps, hnext, withSteps_succ]
    · rw [if_neg hvolt, exec_pure, show (maxVolt - volt + 24) / 25 = 0 by omega, Nat.min_zero, withSteps_zero]

/-- the 32 words as numbers -/
def limitWords (w : Words) (ptr : ℤ) : List ℕ :=
  (List.range dvfsTableEntryCount).map fun i : ℕ => (w (ptr - socVoltLimitMaxDefaultIndex + (i : ℤ))).toNat

/-- the limits in use: the words up to the first zero -/
def socLimits (w : Words) (ptr : ℤ) : List ℕ := used (fun volt => volt = 0) dvfsTableEntryCount (limitWords w ptr)

def stockLimits : List ℕ :=
  [637, 650, 675, 700, 725, 750, 775, 800, 825, 850, 875, 900, 925, 950, 975, 1000, 1025, 1050]

/-- `n` steps of 25 mV behind the stock maximum -/
def limitSteps (n : ℕ) : List ℕ := (List.range n).map fun k => socVoltLimitOfficial + 25 * (k + 1)

theorem roundSocVmax_eq (vmax : ℕ) : roundSocVmax vmax = vmax / 25 * 25 := by
  unfold roundSocVmax
  by_cases h : vmax % 25 ≠ 0
  · rw [if_pos h]
  · rw [if_neg h]
    omega

variable {C : CustomizeTable}

/-- what `SocVoltLimit` leaves, for a maximum over the stock one -/
theorem socVoltLimit_ok {ptr : ℤ} {s s' : PcvState} (h : (socVoltLimit C ptr).exec s = (.ok (), s'))
    (hvmax : socVoltLimitOfficial < C.marikoSocVmax) :
    matchesAt s.words (ptr - socVoltLimitMaxDefaultIndex) socVoltLimitArray = true ∧
      s'.words = withSteps s.words (ptr + 1) (min 14 ((C.marikoSocVmax - socVoltLimitOfficial) / 25)) socVoltLimitOfficial := by
  unfold socVoltLimit at h
  simp only [exec_bind, exec_image] at h
  rcases hmatch : matchesAt s.words (ptr - socVoltLimitMaxDefaultIndex) socVoltLimitArray with _ | _
  · simp [rUnless, hmatch] at h
  · rw [hmatch, rUnless, if_pos rfl, exec_pure] at h
    dsimp only at h
    rw [if_neg (by omega), exec_extendSocVoltLimit, roundSocVmax_eq] at h
    have hsteps : (C.marikoSocVmax / 25 * 25 - socVoltLimitOfficial + 24) / 25 =
        (C.marikoSocVmax - socVoltLimitOfficial) / 25 := by
      unfold socVoltLimitOfficial
      omega
    obtain rfl := (Prod.mk.inj h).2
    refine ⟨rfl, ?_⟩
    rw [hsteps]
    rfl

theorem socVoltLimitArray_word {w : Words} {ptr : ℤ}
    (h : matchesAt w (ptr - socVoltLimitMaxDefaultIndex) socVoltLimitArray = true) {i : ℕ} (hi : i < dvfsTableEntryCount) :
    (w (ptr - socVoltLimitMaxDefaultIndex + i)).toNat = (stockLimits ++ List.replicate 14 0).getD i 0 := by
  have harray : socVoltLimitArray.map BitVec.toNat = stockLimits ++ List.replicate 14 0 := by decide
  have hin : i < socVoltLimitArray.length := hi
  rw [matchesAt_iff.1 h i _ (List.getElem?_eq_getElem hin), ← harray, List.getD_eq_getElem?_getD, List.getElem?_map,
    List.getElem?_eq_getElem hin]
  rfl

theorem limitWords_withSteps {w : Words} {ptr : ℤ} {n : ℕ}
    (h : matchesAt w (ptr - socVoltLimitMaxDefaultIndex) socVoltLimitArray = true) (hn : n ≤ 14) :
    limitWords (withSteps w (ptr + 1) n socVoltLimitOfficial) ptr =
      (stockLimits ++ limitSteps n) ++ List.replicate (14 - n) 0 := by
  have hstock : stockLimits.length = 18 := rfl
  apply List.ext_getElem
  · simp only [limitWords, limitSteps, List.length_map, List.length_range, List.length_append, List.length_replicate, hstock]
    unfold dvfsTableEntryCount
    omega
  · intro i h1 h2
    have hi : i < dvfsTableEntryCount := by simpa [limitWords] using h1
    have hword := socVoltLimitArray_word h hi
    simp only [limitWords, List.getElem_map, List.getElem_range]
    by_cases hbelow : i < 18
    · -- a stock limit
      rw [withSteps, if_neg (by unfold socVoltLimitMaxDefaultIndex; omega), hword,
        List.getElem_append_left (by simp [hstock]; omega), List.getElem_append_left (by omega)]
      rw [List.getD_eq_getElem?_getD, List.getElem?_append_left (by omega), List.getElem?_eq_getElem (by omega)]
      rfl
    · by_cases hstep : i < 18 + n
      · -- a step
        rw [withSteps, if_pos (by unfold socVoltLimitMaxDefaultIndex; omega),
          List.getElem_append_left (by simp [hstock, limitSteps]; omega), List.getElem_append_right (by omega)]
        simp only [limitSteps, List.getElem_map, List.getElem_range, hstock, BitVec.toNat_ofNat]
        unfold socVoltLimitMaxDefaultIndex socVoltLimitOfficial
        omega
      · -- behind the steps
        have hsplit : (stockLimits ++ limitSteps n).length ≤ i := by
          simp [hstock, limitSteps]
          omega
        rw [withSteps, if_neg (by unfold socVoltLimitMaxDefaultIndex; omega), hword,
          List.getElem_append_right hsplit, List.getElem_replicate, List.getD_append_right _ _ _ _ (by omega),
          List.getD_eq_getElem?_getD, List.getElem?_getD_replicate_default_eq]

theorem socLimits_withSteps {w : Words} {ptr : ℤ} {n : ℕ}
    (h : matchesAt w (ptr - socVoltLimitMaxDefaultIndex) socVoltLimitArray = true) (hn : n ≤ 14) :
    socLimits (withSteps w (ptr + 1) n socVoltLimitOfficial) ptr = stockLimits ++ limitSteps n := by
  rw [socLimits, limitWords_withSteps h hn]
  apply used_append
  · simp only [limitSteps, List.length_append, List.length_map, List.length_range]
    exact Nat.add_le_add_left hn 18
  · intro volt hvolt
    rcases List.mem_append.1 hvolt with hvolt | hvolt
    · have hall : ∀ volt ∈ stockLimits, decide (volt = 0) = false := by decide
      exact hall volt hvolt
    · obtain ⟨k, -, rfl⟩ := List.mem_map.1 hvolt
      simp [socVoltLimitOfficial]
  · intro volt hvolt
    simpa using (List.mem_replicate.1 hvolt).2

/-- from the stock maximum on the limits are known by their index, those in front of it are below it -/
theorem limit_getElem? {n i v : ℕ} (h : (stockLimits ++ limitSteps n)[i]? = some v) :
    (17 ≤ i → v = socVoltLimitOfficial + 25 * (i - 17)) ∧ (i < 17 → v < socVoltLimitOfficial) := by
  have hstock : ∀ i < 18, ∀ v ∈ stockLimits[i]?, (17 ≤ i → v = socVoltLimitOfficial + 25 * (i - 17)) ∧
      (i < 17 → v < socVoltLimitOfficial) := by
    decide
  by_cases hi : i < 18
  · rw [List.getElem?_append_left hi] at h
    exact hstock i hi v h
  · have hlen : stockLimits.length ≤ i := not_lt.1 hi
    rw [List.getElem?_append_right hlen] at h
    have hlen' : stockLimits.length = 18 := rfl
    obtain ⟨_, hv⟩ := List.getElem?_eq_some_iff.1 h
    simp only [limitSteps, List.getElem_map, List.getElem_range, hlen'] at hv
    refine ⟨?_, ?_⟩ <;> intro hi' <;> omega

theorem limits_pairwise (n : ℕ) : (stockLimits ++ limitSteps n).Pairwise (· < ·) := by
  rw [List.pairwise_append]
  refine ⟨by decide, ?_, ?_⟩
  · rw [limitSteps, List.pairwise_map]
    apply List.pairwise_lt_range.imp
    intro k k' hk
    omega
  · intro v hv v' hv'
    have hall : ∀ v ∈ stockLimits, v ≤ socVoltLimitOfficial := by decide
    obtain ⟨k, -, rfl⟩ := List.mem_map.1 hv'
    have hle := hall v hv
    omega

theorem limits_getLast? (n : ℕ) : (stockLimits ++ limitSteps n).getLast? = some (socVoltLimitOfficial + 25 * n) := by
  rcases n with _ | n
  · rfl
  · rw [limitSteps, List.range_succ, List.map_append, ← List.append_assoc, List.getLast?_append]
    rfl

/-! ## The cap in the code -/

variable {env : PcvEnv}

theorem le_of_scanAssembly {w : Words} {ptr p : ℤ} {scanLimit : ℕ} {pattern : BitVec 32}
    {comp : BitVec 32 → BitVec 32 → Bool} (h : scanAssembly w ptr scanLimit pattern comp = some p) : ptr ≤ p := by
  obtain ⟨i, -, rfl⟩ := List.mem_map.1 (List.mem_of_find?_eq_some h)
  omega

/-- an instruction that is found lies at or behind the place the search starts from -/
theorem exec_findInstruction {ptr : ℤ} {scanLimit : ℕ} {pattern : BitVec 32} {comp : BitVec 32 → BitVec 32 → Bool}
    {r : LdrResult} {s s' : PcvState} {p : ℤ}
    (h : (findInstruction ptr scanLimit pattern comp r).exec s = (.ok p, s')) : ptr ≤ p := by
  unfold findInstruction at h
  rw [exec_bind, exec_image] at h
  dsimp only at h
  rcases hscan : scanAssembly s.words ptr scanLimit pattern comp with _ | q
  · rw [hscan] at h
    cases h
  · rw [hscan] at h
    obtain rfl := Except.ok.inj (Prod.mk.inj h).1
    exact le_of_scanAssembly hscan

/-- the branch lies behind the move of the voltage -/
theorem findSocVoltSites_order {compareSpeedos : ℤ} {s s' : PcvState} {sites : SocVoltSites}
    (h : (findSocVoltSites compareSpeedos).exec s = (.ok sites, s')) : sites.writeVoltage < sites.branchToAbort := by
  unfold findSocVoltSites at h
  obtain ⟨w, s1, -, h⟩ := exec_bind_ok h
  obtain ⟨writeProcessId, s2, -, h⟩ := exec_bind_ok h
  obtain ⟨writeVoltage, s3, -, h⟩ := exec_bind_ok h
  obtain ⟨selectVoltage, s4, hselect, h⟩ := exec_bind_ok h
  obtain ⟨multiplier, s5, hmultiplier, h⟩ := exec_bind_ok h
  obtain ⟨-, s6, -, h⟩ := exec_bind_ok h
  obtain ⟨limitValidation, s7, hlimit, h⟩ := exec_bind_ok h
  obtain ⟨-, s8, -, h⟩ := exec_bind_ok h
  obtain rfl := Except.ok.inj (Prod.mk.inj h).1
  calc writeVoltage ≤ selectVoltage := exec_findInstruction hselect
    _ ≤ multiplier := exec_findInstruction hmultiplier
    _ ≤ limitValidation := exec_findInstruction hlimit
    _ < limitValidation + 1 := Int.lt_add_one_of_le le_rfl

/-- the maximum encoded in the move of the voltage -/
theorem socVoltAsm_cap {compareSpeedos : ℤ} {s s' : PcvState}
    (h : (socVoltAsm C env compareSpeedos).exec s = (.ok (), s')) (hmin : 1000 < C.marikoSocVmax)
    (hmax : C.marikoSocVmax ≤ 1200) :
    ∃ sites, (findSocVoltSites compareSpeedos).exec s = (.ok sites, s) ∧
      (asmGetImm16 (s'.words sites.writeVoltage)).toNat = C.marikoSocVmax := by
  unfold socVoltAsm at h
  obtain ⟨w, s1, himage, h⟩ := exec_bind_ok h
  obtain ⟨rfl, rfl⟩ : s.words = w ∧ s = s1 := ⟨Except.ok.inj (Prod.mk.inj himage).1, (Prod.mk.inj himage).2⟩
  obtain ⟨sites, s2, hsites, h⟩ := exec_bind_ok h
  have hsame := ReadOnly.state_eq (x := findSocVoltSites compareSpeedos) s
  rw [hsites] at hsame
  obtain rfl : s2 = s := hsame
  have horder := findSocVoltSites_order hsites
  refine ⟨sites, hsites, ?_⟩
  rw [if_neg (by omega)] at h
  obtain ⟨-, s3, -, h⟩ := exec_bind_ok h
  obtain ⟨socSpeedo, s4, -, h⟩ := exec_bind_ok h
  obtain ⟨-, s5, -, h⟩ := exec_bind_ok h
  obtain ⟨_, s6, hvolt, h⟩ := exec_bind_ok h
  obtain rfl := (Prod.mk.inj hvolt).2
  obtain rfl := (Prod.mk.inj h).2
  dsimp only
  rw [Function.update_of_ne horder.ne, Function.update_self, socVoltMov, asmGetImm16_patch, BitVec.toNat_ofNat]
  omega

/-! ## The DVB voltages -/

theorem safetyCheck_socVmax (h : safetyCheck C = .ok ()) : SocVmaxChecked C := by
  obtain ⟨ec, mc, eg, mg, -, -, -, -, hall⟩ := (safetyCheck_ok_iff C).1 h
  have hv := hall ⟨C.marikoSocVmax, 1000, 1200, Panic.emc, false⟩ (by simp [validators])
  exact optional_of_check Panic.emc (by decide) (by decide) hv

theorem exists_baseVolt (c : Fin 3) {f : ℕ} (hf : firstShifted ≤ f) :
    ∃ r, IsBracket Prod.fst shiftedBrackets f r ∧ ∀ c, baseVolt c f = r.2.get c := by
  have hfirst : (1866000, #v[700, 675, 650]) ∈ shiftedBrackets := by decide
  obtain ⟨r, -, hsearch⟩ := exists_bracketOf hfirst (show Prod.fst (1866000, #v[700, 675, 650]) ≤ f from hf)
  refine ⟨r, (bracketOf_eq_some_iff ((shiftedBrackets_column c).imp And.left)).1 hsearch, ?_⟩
  intro c
  rw [baseVolt, hsearch]
  rfl

/-- the first column has the highest voltages, and they ascend -/
theorem baseVolt_le (c : Fin 3) {f g : ℕ} (hf : firstShifted ≤ f) (hfg : f ≤ g) : baseVolt c f ≤ topVolt g := by
  have hfirst : ∀ c, ∀ r ∈ shiftedBrackets, r.2.get c ≤ r.2.get 0 := by decide
  obtain ⟨r, hr, hrvolt⟩ := exists_baseVolt 0 hf
  obtain ⟨r', hr', hrvolt'⟩ := exists_baseVolt 0 (hf.trans hfg)
  have hcolumn := shiftedBrackets_column 0
  calc baseVolt c f = r.2.get c := hrvolt c
    _ ≤ r.2.get 0 := hfirst c r hr.mem
    _ ≤ r'.2.get 0 := IsBracket.mono (f := fun r : ℕ × Vector ℤ 3 => r.2.get 0) (hcolumn.imp And.left)
        (hcolumn.imp And.right) hr hr' hfg
    _ = topVolt g := (hrvolt' 0).symm

/-- the last bracket -/
theorem baseVolt_top {f : ℕ} (hf : 3200000 ≤ f) : topVolt f = 1050 := by
  have hbracket : IsBracket Prod.fst shiftedBrackets f (3200000, #v[1050, 1025, 960]) := by
    refine ⟨by decide, hf, ?_⟩
    intro r hr _
    exact (shiftedBrackets_between 0 r hr).2.1
  rw [topVolt, baseVolt, (bracketOf_eq_some_iff ((shiftedBrackets_column 0).imp And.left)).2 hbracket]
  rfl

/-- the generated list ascends from the first stock rate to the maximum; without an overclock it is empty -/
theorem generated_range {newEmcList : List ℕ} (hlist : mtcGenerateFreqTables C = some newEmcList)
    (hmax : C.marikoEmcMaxClock ≤ 3500000) :
    newEmcList.Pairwise (· < ·) ∧ ∀ f ∈ newEmcList, 204000 ≤ f ∧ f ≤ C.marikoEmcMaxClock := by
  by_cases hm : emcClkOSLimit < C.marikoEmcMaxClock
  · obtain ⟨list, hgen, hspec⟩ := mtcGenerateFreqTables_spec C hm hmax
    obtain rfl := Option.some.inj (hlist.symm.trans hgen)
    refine ⟨hspec.pairwise, fun f hf => ⟨?_, hspec.le f hf⟩⟩
    obtain ⟨rest, hrest⟩ := hspec.default
    have hpair := hspec.pairwise
    rw [← hrest] at hf hpair
    rcases List.mem_cons.1 hf with rfl | hf
    · exact le_rfl
    · exact ((List.pairwise_cons.1 hpair).1 f hf).le
  · rw [mtcGenerateFreqTables, if_pos (not_lt.1 hm)] at hlist
    obtain rfl := Option.some.inj hlist
    exact ⟨List.Pairwise.nil, by simp⟩

/-- a generated frequency has the bracket of the maximum, also where the maximum was cut off -/
theorem exists_topFreq {newEmcList : List ℕ} (hlist : mtcGenerateFreqTables C = some newEmcList)
    (hm : emcClkOSLimit < C.marikoEmcMaxClock) (hmax : C.marikoEmcMaxClock ≤ 3500000)
    (hshifted : firstShifted ≤ C.marikoEmcMaxClock) :
    ∃ f ∈ newEmcList, firstShifted ≤ f ∧ topVolt f = topVolt C.marikoEmcMaxClock := by
  obtain ⟨list, hgen, hspec⟩ := mtcGenerateFreqTables_spec C hm hmax
  obtain rfl := Option.some.inj (hlist.symm.trans hgen)
  by_cases hfits : EmcListFits C
  · exact ⟨_, List.mem_of_getLast? (hspec.getLast?_iff.2 hfits), hshifted, rfl⟩
  · simp only [EmcListFits, not_or, not_le] at hfits
    obtain ⟨h100, hjedec, h133, hover⟩ := hfits
    have hstep : IsStepFreq C.stepMode 3466000 := by
      rw [IsStepFreq, if_neg hjedec, if_neg h133, stepRateOf, if_neg h100]
      exact ⟨28, by decide⟩
    refine ⟨3466000, mem_of_isStepFreq hm hmax hlist hstep (by decide) hover.le, by decide, ?_⟩
    rw [baseVolt_top (by decide), baseVolt_top (by omega)]

/-- **the highest DVB voltage is that of the maximum in the first column** -/
theorem dvb_le_iff {newEmcList : List ℕ} {rows : List DvbEntry} (limit : ℕ) (hsoc : SocVmaxChecked C)
    (hraised : 1000 < C.marikoSocVmax) (hlist : mtcGenerateFreqTables C = some newEmcList)
    (hmax : C.marikoEmcMaxClock ≤ 3500000) (hwritten : DvbTableWritten C newEmcList rows) (hlimit : 1000 ≤ limit) :
    (∀ row ∈ rows, ∀ c, row.column c ≤ limit) ↔
      C.marikoSocVmax ≤ limit ∨ C.marikoEmcMaxClock < firstShifted ∨
        topVolt C.marikoEmcMaxClock + 25 * C.emcDvbShift ≤ limit := by
  have hcap : ∀ c, columnMax C c = C.marikoSocVmax := by
    intro c
    rw [columnMax, dvbMax, if_pos ⟨by omega, hraised⟩]
  have htop : ∀ row ∈ rows, row.freq ≤ C.marikoEmcMaxClock := by
    intro row hrow
    apply ((generated_range hlist hmax).2 row.freq _).2
    rw [← hwritten.freqs]
    exact List.mem_map_of_mem hrow
  constructor
  · intro hall
    by_cases hbelow : C.marikoEmcMaxClock < firstShifted
    · exact Or.inr (Or.inl hbelow)
    · rw [not_lt] at hbelow
      obtain ⟨f, hf, hshifted, hbase⟩ := exists_topFreq hlist (lt_of_lt_of_le (by decide) hbelow) hmax hbelow
      rw [← hwritten.freqs] at hf
      obtain ⟨row, hrow, rfl⟩ := List.mem_map.1 hf
      obtain ⟨b, hb, hvolt⟩ := hwritten.bracket row hrow
      have hle := hall row hrow 0
      have habove := column_above hsoc hb hshifted ((htop row hrow).trans hmax) 0
      rw [HasBracket.column_eq hvolt] at hle
      rw [shiftedVolt, hcap, ← topVolt, hbase] at habove
      omega
  · intro hcond row hrow c
    obtain ⟨b, hb, hvolt⟩ := hwritten.bracket row hrow
    rw [HasBracket.column_eq hvolt]
    by_cases hf : row.freq < firstShifted
    · have hstock := (stockBrackets_column c).2 b (bracket_below hb hf).mem
      omega
    · rw [not_lt] at hf
      have habove := column_above hsoc hb hf ((htop row hrow).trans hmax) c
      have hbase := baseVolt_le c hf (htop row hrow)
      have hbelow : ¬ C.marikoEmcMaxClock < firstShifted := not_lt.2 (hf.trans (htop row hrow))
      rw [shiftedVolt, hcap] at habove
      omega

/-! ## The three patches together -/

/-- the limits step up to a last one that neither the cap is below nor a DVB voltage above -/
structure SocVoltsAgree (C : CustomizeTable) (newEmcList : List ℕ) (dvb : List DvbEntry) (before after : Words) (ptr : ℤ)
    (cap : ℕ) : Prop where
  ascending : (socLimits after ptr).Pairwise (· < ·)
  step : ∀ i v v', (socLimits after ptr)[i]? = some v → (socLimits after ptr)[i + 1]? = some v' →
    socVoltLimitOfficial ≤ v → v' = v + 25
  inside : ∀ p, p < ptr - socVoltLimitMaxDefaultIndex ∨ ptr - socVoltLimitMaxDefaultIndex + dvfsTableEntryCount ≤ p →
    after p = before p
  last_le_cap : ∀ last ∈ (socLimits after ptr).getLast?, last ≤ cap
  dvb_le_last : ∃ dvb', memFreqDvbTableS32 C newEmcList dvb = some (.ok dvb') ∧
    ∀ row ∈ dvb'.take newEmcList.length, ∀ c, ∀ last ∈ (socLimits after ptr).getLast?, row.column c ≤ last

/-- the limits alone keep their part of the agreement -/
theorem socVoltLimit_limits {ptr : ℤ} {s s' : PcvState} (h : (socVoltLimit C ptr).exec s = (.ok (), s'))
    (hvmax : socVoltLimitOfficial < C.marikoSocVmax) (hmax : C.marikoSocVmax ≤ 1200) :
    ∃ n, socLimits s'.words ptr = stockLimits ++ limitSteps n ∧ socVoltLimitOfficial + 25 * n = C.marikoSocVmax / 25 * 25 ∧
      ∀ p, p < ptr - socVoltLimitMaxDefaultIndex ∨ ptr - socVoltLimitMaxDefaultIndex + dvfsTableEntryCount ≤ p →
        s'.words p = s.words p := by
  obtain ⟨hmatch, hwords⟩ := socVoltLimit_ok h hvmax
  have hsteps : min 14 ((C.marikoSocVmax - socVoltLimitOfficial) / 25) = (C.marikoSocVmax - socVoltLimitOfficial) / 25 := by
    unfold socVoltLimitOfficial
    omega
  rw [hsteps] at hwords
  refine ⟨(C.marikoSocVmax - socVoltLimitOfficial) / 25, ?_, ?_, ?_⟩
  · rw [hwords, socLimits_withSteps hmatch (by unfold socVoltLimitOfficial; omega)]
  · unfold socVoltLimitOfficial at hvmax ⊢
    omega
  · intro p hp
    rw [hwords, withSteps, if_neg]
    unfold socVoltLimitMaxDefaultIndex dvfsTableEntryCount at hp
    unfold socVoltLimitOfficial
    omega

/-- the condition under which every DVB voltage has its limit -/
def DvbUnderLimit (C : CustomizeTable) : Prop :=
  (C.marikoEmcMaxClock ≤ emcClkOSLimit ∨ DvbSumsFit C) ∧
    (C.marikoSocVmax % 25 = 0 ∨ C.marikoEmcMaxClock < firstShifted ∨
      topVolt C.marikoEmcMaxClock + 25 * C.emcDvbShift ≤ (C.marikoSocVmax / 25 * 25 : ℕ))

theorem dvb_le_last_iff {newEmcList : List ℕ} {dvb : List DvbEntry} (hsafe : safetyCheck C = .ok ())
    (hvmax : socVoltLimitOfficial < C.marikoSocVmax) (hlist : mtcGenerateFreqTables C = some newEmcList)
    (hdvb : dvb.take emcDvbTableDefault.length = emcDvbTableDefault) :
    (∃ dvb', memFreqDvbTableS32 C newEmcList dvb = some (.ok dvb') ∧
      ∀ row ∈ dvb'.take newEmcList.length, ∀ c, row.column c ≤ C.marikoSocVmax / 25 * 25) ↔ DvbUnderLimit C := by
  have hsoc := safetyCheck_socVmax hsafe
  have hmax : C.marikoEmcMaxClock ≤ 3500000 := by
    have h := safetyCheck_marikoEmcMaxClock hsafe
    omega
  unfold socVoltLimitOfficial at hvmax
  by_cases hoc : emcClkOSLimit < C.marikoEmcMaxClock
  · by_cases hfit : DvbSumsFit C
    · obtain ⟨hpair, hrange⟩ := generated_range hlist hmax
      have hwritten := emcDvbTableOc_written (hpair.imp le_of_lt)
        (fun f hf => ⟨(hrange f hf).1, (hrange f hf).2.trans hmax⟩) hsoc
      have hlength := congrArg List.length hwritten.freqs
      rw [List.length_map] at hlength
      have hle := dvb_le_iff (C.marikoSocVmax / 25 * 25) hsoc (by omega) hlist hmax hwritten (by omega)
      have hround : C.marikoSocVmax ≤ C.marikoSocVmax / 25 * 25 ↔ C.marikoSocVmax % 25 = 0 := by omega
      rw [hround] at hle
      rw [memFreqDvbTableS32_eq hfit hdvb hoc, DvbUnderLimit, ← hle]
      simp only [Option.some.injEq, Except.ok.injEq, exists_eq_left', hfit, or_true, true_and]
      rw [overlay, List.take_left' hlength]
    · refine iff_of_false ?_ ?_
      · rintro ⟨dvb', h, -⟩
        rw [memFreqDvbTableS32, if_pos ⟨hdvb, hoc, hfit⟩] at h
        cases h
      · rintro ⟨hskip | hfit', -⟩
        · exact absurd hskip (not_le.2 hoc)
        · exact hfit hfit'
  · have hskip := not_lt.1 hoc
    rw [mtcGenerateFreqTables, if_pos hskip] at hlist
    obtain rfl := Option.some.inj hlist
    refine iff_of_true ⟨dvb, ?_, by simp⟩ ⟨Or.inl hskip, Or.inr (Or.inl (hskip.trans_lt (by decide)))⟩
    rw [memFreqDvbTableS32, if_neg (fun h => hoc h.2.1), memFreqDvbTable, if_neg (not_not.2 hdvb), if_pos hskip]

/-- **the three patches agree exactly when the DVB sums fit and no DVB voltage lies between the rounded maximum and the
maximum itself** -/
theorem socVoltsAgree_iff {newEmcList : List ℕ} {dvb : List DvbEntry} {env : PcvEnv} {ptr compareSpeedos : ℤ}
    {s s' t t' : PcvState} (hsafe : safetyCheck C = .ok ()) (hvmax : 1050 < C.marikoSocVmax)
    (hlist : mtcGenerateFreqTables C = some newEmcList) (hdvb : dvb.take emcDvbTableDefault.length = emcDvbTableDefault)
    (hlimit : (socVoltLimit C ptr).exec s = (.ok (), s')) (hasm : (socVoltAsm C env compareSpeedos).exec t = (.ok (), t')) :
    (∃ sites, (findSocVoltSites compareSpeedos).exec t = (.ok sites, t) ∧
      SocVoltsAgree C newEmcList dvb s.words s'.words ptr (asmGetImm16 (t'.words sites.writeVoltage)).toNat) ↔
        DvbUnderLimit C := by
  have hmax : C.marikoSocVmax ≤ 1200 := by
    have h := safetyCheck_socVmax hsafe
    unfold SocVmaxChecked at h
    omega
  obtain ⟨sites, hsites, hcap⟩ := socVoltAsm_cap hasm (by omega) hmax
  obtain ⟨n, hlimits, hn, hinside⟩ := socVoltLimit_limits hlimit hvmax hmax
  have hlast : (socLimits s'.words ptr).getLast? = some (C.marikoSocVmax / 25 * 25) := by
    rw [hlimits, limits_getLast?, hn]
  rw [← dvb_le_last_iff hsafe hvmax hlist hdvb]
  constructor
  · rintro ⟨_, -, hagree⟩
    obtain ⟨dvb', hdvb', hrows⟩ := hagree.dvb_le_last
    exact ⟨dvb', hdvb', fun row hrow c => hrows row hrow c _ hlast⟩
  · rintro ⟨dvb', hdvb', hrows⟩
    refine ⟨sites, hsites, ?_, ?_, hinside, ?_, ?_⟩
    · rw [hlimits]
      exact limits_pairwise n
    · intro i v v' hv hv' hbeyond
      rw [hlimits] at hv hv'
      have hi := limit_getElem? hv
      have hi' := limit_getElem? hv'
      omega
    · intro last h
      rw [hlast] at h
      obtain rfl := Option.some.inj h
      rw [hcap]
      exact Nat.div_mul_le_self _ _
    · refine ⟨dvb', hdvb', ?_⟩
      intro row hrow c last h
      rw [hlast] at h
      obtain rfl := Option.some.inj h
      exact hrows row hrow c

/-- the instructions of the pattern from the start of the NSO on, the limits with the stock maximum in word 100 -/
def socImage : Words := fun p =>
  if p < 83 then
    [socVoltCompareSpeedoAsm, socVoltWriteProcessIdAsm, socVoltWriteVoltageAsm, socVoltSelectRegisterAsm,
      socVoltMultiplyVoltsAsm, socVoltValidateLimitAsm, socVoltBranchToAbortAsm].getD p.toNat 0
  else socVoltLimitArray.getD (p - 83).toNat 0

def socState : PcvState := ⟨socImage, []⟩

/-- the fuses are mapped, and answer a speedo of 1500 -/
def fuseEnv : PcvEnv where
  dramId := 3
  i2cOpenSession := fun _ => none
  i2csessionSendAuto := fun _ _ _ => none
  svcQueryMemoryMapping := fun _ => .ok 0
  readWord := fun _ => 1500
  marikoAdjust := fun _ w => w
  eristaAdjust := fun _ w => w

/-- 1100 mV, a whole number of steps -/
def evenCustomize : CustomizeTable := { sampleCustomize with marikoSocVmax := 1100 }

def evenList : List ℕ :=
  [204000, 1331200, 1600000, 1666000, 1733000, 1800000, 1866000, 1933000, 2000000, 2066000, 2133000]

theorem evenCustomize_agrees :
    ∃ s' t' sites, (socVoltLimit evenCustomize 100).exec socState = (.ok (), s') ∧
      (socVoltAsm evenCustomize fuseEnv 0).exec socState = (.ok (), t') ∧
      (findSocVoltSites 0).exec socState = (.ok sites, socState) ∧
      SocVoltsAgree evenCustomize evenList emcDvbTableDefault socState.words s'.words 100
        (asmGetImm16 (t'.words sites.writeVoltage)).toNat := by
  have hlimit : (socVoltLimit evenCustomize 100).exec socState = (.ok (), _) := rfl
  have hasm : (socVoltAsm evenCustomize fuseEnv 0).exec socState = (.ok (), _) := rfl
  have hunder : DvbUnderLimit evenCustomize := ⟨Or.inr (by decide), Or.inl rfl⟩
  have hlist : mtcGenerateFreqTables evenCustomize = some evenList := by decide +kernel
  have hdvb : emcDvbTableDefault.take emcDvbTableDefault.length = emcDvbTableDefault := rfl
  obtain ⟨sites, hsites, hagree⟩ := (socVoltsAgree_iff rfl (by decide) hlist hdvb hlimit hasm).2 hunder
  exact ⟨_, _, sites, hlimit, hasm, hsites, hagree⟩

/-- 1190 mV, and eight steps up at 3200 MHz -/
def oddCustomize : CustomizeTable :=
  { sampleCustomize with
    stepMode := StepMode_Jedec
    marikoEmcMaxClock := 3200000
    emcDvbShift := 8
    marikoSocVmax := 1190 }

def oddList : List ℕ :=
  [204000, 1331200, 1600000, 1866000, 1996000, 2133000, 2400000, 2666000, 2933000, 3200000]

/-- the first column of 3200 MHz is clamped to 1190 mV, the last limit is 1175 mV -/
theorem dvb_over_last_limit :
    ¬ ∀ (C : CustomizeTable) (newEmcList : List ℕ) (dvb : List DvbEntry) (env : PcvEnv) (ptr compareSpeedos : ℤ)
      (s s' t t' : PcvState), safetyCheck C = .ok () → 1050 < C.marikoSocVmax →
      mtcGenerateFreqTables C = some newEmcList → dvb.take emcDvbTableDefault.length = emcDvbTableDefault →
      (socVoltLimit C ptr).exec s = (.ok (), s') → (socVoltAsm C env compareSpeedos).exec t = (.ok (), t') →
      ∃ sites, (findSocVoltSites compareSpeedos).exec t = (.ok sites, t) ∧
        SocVoltsAgree C newEmcList dvb s.words s'.words ptr (asmGetImm16 (t'.words sites.writeVoltage)).toNat := by
  intro hclaim
  obtain ⟨sites, -, hagree⟩ := hclaim oddCustomize oddList emcDvbTableDefault fuseEnv 100 0 socState _ socState _
    rfl (by decide) rfl rfl rfl rfl
  obtain ⟨dvb', hdvb', hrows⟩ := hagree.dvb_le_last
  have hwritten : memFreqDvbTableS32 oddCustomize oddList emcDvbTableDefault = some (.ok _) :=
    memFreqDvbTableS32_eq (by decide) rfl (by decide)
  obtain rfl := Except.ok.inj (Option.some.inj (hdvb'.symm.trans hwritten))
  have hrow := hrows ⟨3200000, dvbVolt oddCustomize 1050 1025 960⟩ (by decide) 0 1175 (by decide)
  exact absurd hrow (by decide)

end RyazhaClk.Loader
