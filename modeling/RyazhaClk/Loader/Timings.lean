/-
The timing lookups of the memory patch on Mariko (`CalculateTimings` and `MemMtcTableAutoAdjust`): values of the configuration
are indices into arrays of 6 to 11 entries, one of them capped by the write latency, another chosen by the rate.

- `writeLatency_eq_iff`: at which rates the 1333 write latency applies, and with it the cap on tRP.
- `memMtcTableAutoAdjust_isSome_iff`: the lookups of one rate are in bounds exactly when its indices are.
- `lookupsInBounds_iff`: after the safety check, all of them are exactly when the configuration's words are in range.
-/
import Mathlib.Tactic
import RyazhaClk.Loader.MemoryAgreement

namespace RyazhaClk.Loader

/-! ## The arrays -/

namespace Mariko

def tRCD_values : List ℕ := [18, 17, 16, 15, 14, 13, 12, 11]
def tRP_values : List ℕ := [18, 17, 16, 15, 14, 13, 12, 11]
def tRAS_values : List ℕ := [42, 36, 34, 32, 30, 28, 26, 24, 22, 20]
def tRRD_values : List ℚ := [7.5, 6, 5, 4, 3, 2, 1]
def tRFC_values : List ℕ := [140, 130, 120, 110, 100, 90, 80, 70, 60, 50, 40]
def tWTR_values : List ℕ := [10, 9, 8, 7, 6, 5, 4, 3, 2, 1]
def tREFpb_values : List ℕ := [3900, 5850, 7800, 11700, 15600, 99999]

end Mariko

open Mariko Ascending

/-! ## Latencies -/

def RL_1331 : ℕ := 28

def WL_1331 : ℕ := 12

/-- the last latency rate that is set; none is -1 -/
def getMaxLatencyIndex (latencyArray : Vector ℕ 4) : Option ℕ :=
  (List.range 4).foldl (fun maxIndex i => if latencyArray.toList.getD i 0 ≠ 0 then some i else maxIndex) none

/-- `AutoLatency` -/
def autoLatency (latency freq latencyStep : ℕ) : ℕ :=
  if 1600000 < freq ∧ freq ≤ 1866000 then latency + latencyStep * 2 else latency + latencyStep * 3

/-- `HandleLatency` over an array: the first set rate that the frequency does not exceed, else the last -/
def switchLatency (freq latency : ℕ) (latencyArray : Vector ℕ 4) (indexMax latencyStep : ℕ) : ℕ :=
  match (List.range (indexMax + 1)).find? fun i =>
      latencyArray.toList.getD i 0 ≠ 0 ∧ freq ≤ latencyArray.toList.getD i 0 with
  | some i => latency + i * latencyStep
  | none => latency + indexMax * latencyStep

/-- `HandleLatency` of one of the two latencies -/
def handleLatency (freq latency : ℕ) (latencyArray : Vector ℕ 4) (latencyStep : ℕ) : ℕ :=
  match getMaxLatencyIndex latencyArray with
  | none => autoLatency latency freq latencyStep
  | some indexMax => switchLatency freq latency latencyArray indexMax latencyStep

variable (C : CustomizeTable)

/-- `RL` and `WL` of a rate -/
def RL (freq : ℕ) : ℕ := handleLatency freq RL_1331 C.readLatency 4

def WL (freq : ℕ) : ℕ := handleLatency freq WL_1331 C.writeLatency 2

/-! ## The lookups -/

/-- the timings of a rate, up to those that need its clock period -/
structure Timings where
  RL : ℕ
  WL : ℕ
  tRCD : ℕ
  tRPpb : ℕ
  tRAS : ℕ
  tRRD : ℚ
  tRFCpb : ℕ
  tRTW : ℕ
  tWTR : ℕ
  tRC : ℕ
  tRFCab : ℕ

def tRPpbIndex (freq : ℕ) : ℕ := if WL C freq = WL_1331 then min C.t2_tRP_cap C.t2_tRP else C.t2_tRP

/-- the lookups of `CalculateTimings`; `none` is a lookup behind the end of its array -/
def calculateTimings (freq : ℕ) : Option Timings := do
  let tRCD ← tRCD_values[C.t1_tRCD]?
  let tRPpb ← tRP_values[tRPpbIndex C freq]?
  let tRAS ← tRAS_values[C.t3_tRAS]?
  let tRRD ← tRRD_values[C.t4_tRRD]?
  let tRFCpb ← tRFC_values[C.t5_tRFC]?
  let tWTR ← tWTR_values[C.t7_tWTR]?
  let (tRTW, tWTR) ←
    if freq < C.timingEmcTbreak then tWTR_values[C.low_t7_tWTR]?.map fun tWTR => (C.low_t6_tRTW, 10 - tWTR)
    else some (C.t6_tRTW, 10 - tWTR)
  return { RL := RL C freq, WL := WL C freq, tRCD, tRPpb, tRAS, tRRD, tRFCpb, tRTW, tWTR, tRC := tRAS + tRPpb,
           tRFCab := tRFCpb * 2 }

/-- `MemMtcTableAutoAdjust`: the refresh interval, none for index 6, and the timings -/
def memMtcTableAutoAdjust (rateKhz : ℕ) : Option (Option ℕ × Timings) := do
  let tREFpb ← if C.t8_tREFI ≠ 6 then tREFpb_values[C.t8_tREFI]?.map some else some none
  let timings ← calculateTimings C rateKhz
  return (tREFpb, timings)

/-- the rates `MemFreqMtcTable` hands to it -/
def processedRates (newEmcList : List ℕ) : List ℕ := newEmcList.drop mtcTableCountDefault

/-! ## Last entries -/

def allowedCpuMaxFrequencies : List ℕ := [1963500, 2091000, 2193000, 2295000, 2397000, 2499000, 2601000, 2703000]

/-- `CapCpuClock` -/
def capCpuClock : ℕ := (allowedCpuMaxFrequencies.takeWhile (· ≤ C.marikoCpuMaxClock)).getLast?.getD 1963500

/-- the clock `CpuFreqVdd` patches -/
def cpuFreqVdd : Except Abort ℕ :=
  if C.marikoCpuUVHigh ≠ 0 then .ok (capCpuClock C) else dvfsMaxFreq C.marikoCpuDvfsTable.toList

/-- the clock `GpuFreqMaxAsm` patches -/
def gpuFreqMaxAsm (isMariko : Bool) : Except Abort ℕ := dvfsMaxFreq (if isMariko then C.marikoGpuTable else C.eristaGpuTable)

/-- every lookup of the patch is in bounds, and no last entry it reads is missing -/
structure LookupsInBounds (C : CustomizeTable) : Prop where
  timings : ∀ newEmcList, mtcGenerateFreqTables C = some newEmcList → ∀ rateKhz ∈ processedRates newEmcList,
    (memMtcTableAutoAdjust C rateKhz).isSome
  safetyCheck : safetyCheck C ≠ .error .nullDereference
  cpuFreqVdd : cpuFreqVdd C ≠ .error .nullDereference
  gpuFreqMaxAsm : ∀ isMariko, gpuFreqMaxAsm C isMariko ≠ .error .nullDereference

/-- the 1333 write latency at every rate: its own rate is set, and is the only one or not below any of them -/
def Writes1333 (rates : List ℕ) : Prop :=
  C.writeLatency.toList.getD 0 0 ≠ 0 ∧ ((∀ i, 0 < i → C.writeLatency.toList.getD i 0 = 0) ∨
    ∀ rateKhz ∈ rates, rateKhz ≤ C.writeLatency.toList.getD 0 0)

/-- the words of the configuration that are in range for the given rates -/
structure IndicesInRange (rates : List ℕ) : Prop where
  t1_tRCD : C.t1_tRCD < 8
  t2_tRP : C.t2_tRP < 8 ∨ (C.t2_tRP_cap < 8 ∧ Writes1333 C rates)
  t3_tRAS : C.t3_tRAS < 10
  t4_tRRD : C.t4_tRRD < 7
  t5_tRFC : C.t5_tRFC < 11
  t7_tWTR : C.t7_tWTR < 10
  low_t7_tWTR : C.low_t7_tWTR < 10 ∨ ∀ rateKhz ∈ rates, C.timingEmcTbreak ≤ rateKhz
  t8_tREFI : C.t8_tREFI ≤ 6


/-! ## One rate -/

theorem isSome_lookup_bind {α β : Type} {l : List α} {i : ℕ} {f : α → Option β} {p : Prop} (h : ∀ a, (f a).isSome ↔ p) :
    (l[i]? >>= f).isSome ↔ i < l.length ∧ p := by
  cases hl : l[i]? with
  | none =>
    have hout := List.getElem?_eq_none_iff.1 hl
    exact iff_of_false (by simp) (fun hin => absurd hin.1 (not_lt.2 hout))
  | some a =>
    have hin : i < l.length := (List.getElem?_eq_some_iff.1 hl).1
    exact (h a).trans ⟨fun hp => ⟨hin, hp⟩, And.right⟩

theorem isSome_bind_of {α β : Type} {o : Option α} {f : α → Option β} (h : ∀ a, (f a).isSome) :
    (o >>= f).isSome ↔ o.isSome := by
  cases o with
  | none => rfl
  | some a => exact iff_of_true (h a) rfl

theorem isSome_lookup {α β : Type} {l : List α} {i : ℕ} {f : α → β} : (l[i]?.map f).isSome ↔ i < l.length := by
  rw [Option.isSome_map]
  simp

theorem calculateTimings_isSome_iff (freq : ℕ) : (calculateTimings C freq).isSome ↔
    C.t1_tRCD < 8 ∧ tRPpbIndex C freq < 8 ∧ C.t3_tRAS < 10 ∧ C.t4_tRRD < 7 ∧ C.t5_tRFC < 11 ∧ C.t7_tWTR < 10 ∧
      (freq < C.timingEmcTbreak → C.low_t7_tWTR < 10) := by
  unfold calculateTimings
  apply isSome_lookup_bind
  intro tRCD
  apply isSome_lookup_bind
  intro tRPpb
  apply isSome_lookup_bind
  intro tRAS
  apply isSome_lookup_bind
  intro tRRD
  apply isSome_lookup_bind
  intro tRFCpb
  apply isSome_lookup_bind
  intro tWTR
  by_cases hlow : freq < C.timingEmcTbreak
  · rw [if_pos hlow, isSome_bind_of (fun _ => rfl), isSome_lookup]
    exact ⟨fun hin _ => hin, fun hin => hin hlow⟩
  · rw [if_neg hlow]
    exact iff_of_true rfl (fun h => absurd h hlow)

theorem memMtcTableAutoAdjust_isSome_iff (rateKhz : ℕ) : (memMtcTableAutoAdjust C rateKhz).isSome ↔
    C.t8_tREFI ≤ 6 ∧ (calculateTimings C rateKhz).isSome := by
  unfold memMtcTableAutoAdjust
  by_cases h6 : C.t8_tREFI = 6
  · rw [if_neg (not_not.2 h6)]
    exact (isSome_bind_of (o := calculateTimings C rateKhz) fun _ => rfl).trans ⟨fun h => ⟨h6.le, h⟩, And.right⟩
  · rw [if_pos h6]
    cases hl : tREFpb_values[C.t8_tREFI]? with
    | none =>
      have hout : 6 ≤ C.t8_tREFI := List.getElem?_eq_none_iff.1 hl
      exact iff_of_false (by simp) (fun h => h6 (Nat.le_antisymm h.1 hout))
    | some tREFpb =>
      have hin : C.t8_tREFI < 6 := (List.getElem?_eq_some_iff.1 hl).1
      exact (isSome_bind_of (o := calculateTimings C rateKhz) fun _ => rfl).trans ⟨fun h => ⟨hin.le, h⟩, And.right⟩

/-! ## The write latency -/

/-- a scan over the first `n` indices keeps the last that meets `p` -/
theorem foldl_last (p : ℕ → Prop) [DecidablePred p] (n : ℕ) :
    (∀ i < n, ¬ p i) ∧ (List.range n).foldl (fun last i => if p i then some i else last) none = none ∨
    ∃ m < n, p m ∧ (∀ i, m < i → i < n → ¬ p i) ∧
      (List.range n).foldl (fun last i => if p i then some i else last) none = some m := by
  induction n with
  | zero => exact Or.inl ⟨fun i hi => absurd hi (Nat.not_lt_zero i), rfl⟩
  | succ n ih =>
    rw [List.range_succ, List.foldl_append, List.foldl_cons, List.foldl_nil]
    by_cases hn : p n
    · right
      exact ⟨n, Nat.lt_succ_self n, hn, fun i hlo hhi => absurd hhi (by omega), if_pos hn⟩
    · rw [if_neg hn]
      rcases ih with ⟨hall, hfold⟩ | ⟨m, hm, hpm, habove, hfold⟩
      · left
        refine ⟨?_, hfold⟩
        intro i hi
        rcases Nat.lt_succ_iff_lt_or_eq.1 hi with hlt | rfl
        · exact hall i hlt
        · exact hn
      · right
        refine ⟨m, by omega, hpm, ?_, hfold⟩
        intro i hlo hhi
        rcases Nat.lt_succ_iff_lt_or_eq.1 hhi with hlt | rfl
        · exact habove i hlo hlt
        · exact hn

/-- the entries of an array behind its end are 0 -/
theorem getD_of_le (latencyArray : Vector ℕ 4) {i : ℕ} (hi : 4 ≤ i) : latencyArray.toList.getD i 0 = 0 := by
  rw [List.getD_eq_getElem?_getD, List.getElem?_eq_none_iff.2 (by simpa using hi)]
  rfl

theorem autoLatency_ne {latency freq latencyStep : ℕ} (hstep : latencyStep ≠ 0) :
    autoLatency latency freq latencyStep ≠ latency := by
  unfold autoLatency
  split_ifs <;> omega

/-- a switch keeps the base latency exactly where it stays at the first rate -/
theorem switchLatency_eq_iff {freq latency latencyStep m : ℕ} {latencyArray : Vector ℕ 4} (hstep : latencyStep ≠ 0)
    (hset : latencyArray.toList.getD m 0 ≠ 0) (habove : ∀ i, m < i → latencyArray.toList.getD i 0 = 0) :
    switchLatency freq latency latencyArray m latencyStep = latency ↔
      latencyArray.toList.getD 0 0 ≠ 0 ∧
        ((∀ i, 0 < i → latencyArray.toList.getD i 0 = 0) ∨ freq ≤ latencyArray.toList.getD 0 0) := by
  have hzero : ∀ i, latency + i * latencyStep = latency ↔ i = 0 := by
    intro i
    simp [hstep]
  unfold switchLatency
  cases hfind : (List.range (m + 1)).find? fun i =>
      latencyArray.toList.getD i 0 ≠ 0 ∧ freq ≤ latencyArray.toList.getD i 0 with
  | some i =>
    dsimp only
    obtain ⟨hi, -, hbefore⟩ := List.find?_range_eq_some.1 hfind
    rw [decide_eq_true_eq] at hi
    rw [hzero]
    constructor
    · rintro rfl
      exact ⟨hi.1, Or.inr hi.2⟩
    · rintro ⟨h0, hothers | hle⟩
      · by_contra hne
        exact hi.1 (hothers i (Nat.pos_of_ne_zero hne))
      · -- index 0 would have been found first
        by_contra hne
        have hnot := hbefore 0 (Nat.pos_of_ne_zero hne)
        rw [decide_eq_true ⟨h0, hle⟩] at hnot
        exact absurd hnot (by decide)
  | none =>
    dsimp only
    rw [hzero]
    constructor
    · rintro rfl
      exact ⟨hset, Or.inl habove⟩
    · rintro ⟨h0, hothers | hle⟩
      · by_contra hne
        exact hset (hothers m (Nat.pos_of_ne_zero hne))
      · have hnot := List.find?_eq_none.1 hfind 0 (List.mem_range.2 (Nat.succ_pos m))
        exact absurd (decide_eq_true ⟨h0, hle⟩) hnot

/-- the base latency is left exactly where the first rate is set and is the only one or not exceeded -/
theorem handleLatency_eq_iff {freq latency latencyStep : ℕ} {latencyArray : Vector ℕ 4} (hstep : latencyStep ≠ 0) :
    handleLatency freq latency latencyArray latencyStep = latency ↔
      latencyArray.toList.getD 0 0 ≠ 0 ∧
        ((∀ i, 0 < i → latencyArray.toList.getD i 0 = 0) ∨ freq ≤ latencyArray.toList.getD 0 0) := by
  unfold handleLatency getMaxLatencyIndex
  rcases foldl_last (fun i => latencyArray.toList.getD i 0 ≠ 0) 4 with ⟨hall, hfold⟩ | ⟨m, hm, hset, habove, hfold⟩
  · rw [hfold]
    exact iff_of_false (autoLatency_ne hstep) (fun h => hall 0 (by decide) h.1)
  · rw [hfold]
    apply switchLatency_eq_iff hstep hset
    intro i hi
    by_cases h4 : i < 4
    · exact not_not.1 (habove i hi h4)
    · exact getD_of_le latencyArray (not_lt.1 h4)

/-- where the 1333 write latency applies -/
theorem writeLatency_eq_iff (freq : ℕ) : WL C freq = WL_1331 ↔
    C.writeLatency.toList.getD 0 0 ≠ 0 ∧
      ((∀ i, 0 < i → C.writeLatency.toList.getD i 0 = 0) ∨ freq ≤ C.writeLatency.toList.getD 0 0) :=
  handleLatency_eq_iff (by decide)

theorem writes1333_iff {rates : List ℕ} (hrates : rates ≠ []) :
    (∀ rateKhz ∈ rates, WL C rateKhz = WL_1331) ↔ Writes1333 C rates := by
  simp only [writeLatency_eq_iff]
  constructor
  · intro h
    obtain ⟨rate, hrate⟩ := List.exists_mem_of_ne_nil rates hrates
    refine ⟨(h rate hrate).1, ?_⟩
    by_cases hothers : ∀ i, 0 < i → C.writeLatency.toList.getD i 0 = 0
    · exact Or.inl hothers
    · exact Or.inr fun r hr => (h r hr).2.resolve_left hothers
  · rintro ⟨h0, hothers | hle⟩ r hr
    · exact ⟨h0, Or.inl hothers⟩
    · exact ⟨h0, Or.inr (hle r hr)⟩

/-- the index into `tRP_values`, over all rates -/
theorem tRPpbIndex_lt_iff {rates : List ℕ} (hrates : rates ≠ []) :
    (∀ rateKhz ∈ rates, tRPpbIndex C rateKhz < 8) ↔ C.t2_tRP < 8 ∨ (C.t2_tRP_cap < 8 ∧ Writes1333 C rates) := by
  rw [← writes1333_iff C hrates]
  unfold tRPpbIndex
  constructor
  · intro h
    by_cases h8 : C.t2_tRP < 8
    · exact Or.inl h8
    · -- an index too large is capped at every rate
      have hcap : ∀ r ∈ rates, WL C r = WL_1331 ∧ C.t2_tRP_cap < 8 := by
        intro r hr
        have hr8 := h r hr
        split_ifs at hr8 with hwl
        · exact ⟨hwl, by omega⟩
        · exact absurd hr8 h8
      obtain ⟨rate, hrate⟩ := List.exists_mem_of_ne_nil rates hrates
      exact Or.inr ⟨(hcap rate hrate).2, fun r hr => (hcap r hr).1⟩
  · rintro (h8 | ⟨hcap, hwl⟩) r hr
    · split_ifs
      · exact lt_of_le_of_lt (min_le_right _ _) h8
      · exact h8
    · rw [if_pos (hwl r hr)]
      exact lt_of_le_of_lt (min_le_left _ _) hcap

/-! ## All rates -/

/-- the lookups of a list of rates -/
theorem timings_iff {rates : List ℕ} (hrates : rates ≠ []) :
    (∀ rateKhz ∈ rates, (memMtcTableAutoAdjust C rateKhz).isSome) ↔ IndicesInRange C rates := by
  simp only [memMtcTableAutoAdjust_isSome_iff, calculateTimings_isSome_iff]
  constructor
  · intro h
    obtain ⟨rate, hrate⟩ := List.exists_mem_of_ne_nil rates hrates
    obtain ⟨h8, h1, -, h3, h4, h5, h7, -⟩ := h rate hrate
    have h2 := (tRPpbIndex_lt_iff C hrates).1 fun r hr => (h r hr).2.2.1
    refine ⟨h1, h2, h3, h4, h5, h7, ?_, h8⟩
    by_cases hlow : C.low_t7_tWTR < 10
    · exact Or.inl hlow
    · exact Or.inr fun r hr => not_lt.1 fun hlt => hlow ((h r hr).2.2.2.2.2.2.2 hlt)
  · intro h r hr
    refine ⟨h.t8_tREFI, h.t1_tRCD, (tRPpbIndex_lt_iff C hrates).2 h.t2_tRP r hr, h.t3_tRAS, h.t4_tRRD, h.t5_tRFC,
      h.t7_tWTR, ?_⟩
    intro hlt
    rcases h.low_t7_tWTR with hlow | hge
    · exact hlow
    · exact absurd hlt (not_lt.2 (hge r hr))

variable {C}

/-- an overclock has a rate of its own -/
theorem processedRates_ne_nil (hover : emcClkOSLimit < C.marikoEmcMaxClock) {newEmcList : List ℕ}
    (h : EmcListSpec C newEmcList) : processedRates newEmcList ≠ [] := by
  obtain ⟨grown, hgrown, rfl, -⟩ := h
  have hprefix := hgrown.default.trans (prefix_closeAt (m := C.marikoEmcMaxClock))
  intro hnil
  have hlen : ((closeAt C.marikoEmcMaxClock grown).take dvfsTableEntryLimit).length ≤ 3 := List.drop_eq_nil_iff.1 hnil
  rw [List.length_take] at hlen
  have hshort : (closeAt C.marikoEmcMaxClock grown).length ≤ 3 := by
    have hlimit : dvfsTableEntryLimit = 31 := rfl
    omega
  -- a list of the stock rates alone would end at the OS limit
  have hstock : emcListDefault = closeAt C.marikoEmcMaxClock grown := hprefix.eq_of_length_le hshort
  have hlast : emcListDefault.getLast? = some C.marikoEmcMaxClock := by
    rw [hstock]
    exact getLast?_closeAt
  have hmax : 1600000 = C.marikoEmcMaxClock := Option.some.inj hlast
  unfold emcClkOSLimit at hover
  omega

theorem dvfsMaxFreq_ne {table : List CvbEntry} {f : ℕ} (h : dvfsMaxFreq table = .ok f) :
    dvfsMaxFreq table ≠ .error .nullDereference := by
  rw [h]
  intro hne
  cases hne

/-- the patches read the last entries the safety check has read -/
theorem last_entries (hsafe : safetyCheck C = .ok ()) : safetyCheck C ≠ .error .nullDereference ∧
    cpuFreqVdd C ≠ .error .nullDereference ∧ ∀ isMariko, gpuFreqMaxAsm C isMariko ≠ .error .nullDereference := by
  obtain ⟨ec, mc, eg, mg, -, hmc, heg, hmg, -⟩ := (safetyCheck_ok_iff C).1 hsafe
  refine ⟨?_, ?_, ?_⟩
  · rw [hsafe]
    intro hne
    cases hne
  · unfold cpuFreqVdd
    split_ifs with huv
    · intro hne
      cases hne
    · rw [CustomizeTable.marikoCheckedCpuTable, if_neg huv] at hmc
      exact dvfsMaxFreq_ne hmc
  · intro isMariko
    unfold gpuFreqMaxAsm
    cases isMariko with
    | true => exact dvfsMaxFreq_ne hmg
    | false => exact dvfsMaxFreq_ne heg

/-- **Where the lookups are in bounds.** A table that passes the safety check overclocks the memory without leaving an array
exactly when the words the check does not look at are in range; the last entries are always there. -/
theorem lookupsInBounds_iff (hsafe : safetyCheck C = .ok ()) : LookupsInBounds C ↔ C.marikoEmcMaxClock ≤ emcClkOSLimit ∨
    ∃ newEmcList, mtcGenerateFreqTables C = some newEmcList ∧ IndicesInRange C (processedRates newEmcList) := by
  obtain ⟨hcheck, hcpu, hgpu⟩ := last_entries hsafe
  by_cases hstock : C.marikoEmcMaxClock ≤ emcClkOSLimit
  · refine iff_of_true ⟨?_, hcheck, hcpu, hgpu⟩ (Or.inl hstock)
    intro newEmcList hlist rateKhz hrate
    rw [mtcGenerateFreqTables, if_pos hstock] at hlist
    obtain rfl := Option.some.inj hlist
    cases hrate
  · have hover := not_le.1 hstock
    have hmax : C.marikoEmcMaxClock ≤ 3500000 := by
      rcases safetyCheck_marikoEmcMaxClock hsafe with hzero | hrange
      · omega
      · exact hrange.2
    obtain ⟨newEmcList, hlist, hspec⟩ := mtcGenerateFreqTables_spec C hover hmax
    have hrates := timings_iff C (processedRates_ne_nil hover hspec)
    constructor
    · intro h
      exact Or.inr ⟨newEmcList, hlist, hrates.1 (h.timings newEmcList hlist)⟩
    · rintro (hno | ⟨list, hlist', hrange⟩)
      · exact absurd hno hstock
      · refine ⟨?_, hcheck, hcpu, hgpu⟩
        intro list' hlist''
        obtain rfl := Option.some.inj (hlist'.symm.trans hlist'')
        obtain rfl := Option.some.inj (hlist.symm.trans hlist')
        exact hrates.2 hrange

/-! ## Witnesses -/

/-- the shipped configuration -/
theorem sampleCustomize_inBounds : LookupsInBounds sampleCustomize := by
  obtain ⟨newEmcList, hlist, -⟩ := mtcGenerateFreqTables_spec sampleCustomize (by decide) (by decide)
  apply (lookupsInBounds_iff rfl).2
  refine Or.inr ⟨newEmcList, hlist, ?_⟩
  exact
    { t1_tRCD := by decide
      t2_tRP := Or.inl (by decide)
      t3_tRAS := by decide
      t4_tRRD := by decide
      t5_tRFC := by decide
      t7_tWTR := by decide
      low_t7_tWTR := Or.inl (by decide)
      t8_tREFI := by decide }

/-- the shipped configuration with the first tRAS index behind its array -/
def deepTRas : CustomizeTable := { sampleCustomize with t3_tRAS := 10 }

/-- **The safety check does not look at the timing indices.** -/
theorem unchecked_tRAS : safetyCheck deepTRas = .ok () ∧ ¬ LookupsInBounds deepTRas := by
  refine ⟨rfl, ?_⟩
  intro h
  obtain ⟨newEmcList, hlist, hspec⟩ := mtcGenerateFreqTables_spec deepTRas (by decide) (by decide)
  obtain ⟨rate, hrate⟩ := List.exists_mem_of_ne_nil _ (processedRates_ne_nil (by decide) hspec)
  have hsome := h.timings newEmcList hlist rate hrate
  exact absurd ((calculateTimings_isSome_iff deepTRas rate).1
    ((memMtcTableAutoAdjust_isSome_iff deepTRas rate).1 hsome).2).2.2.1 (by decide)

end RyazhaClk.Loader
