/-
The DVFS tables as the patched image is read: with `GetDvfsTableEntryCount`, up to the first empty row. The patches copy
the rows of the selected table over the stock rows and leave what lies behind, so a selected table that is shorter than
the stock table is read back with the last stock rows behind its own.

- `tableInstalled_iff`: a table is read back as it was selected exactly when it is at least as long as the stock table
  and none of its rows is patched to zero.
- `gpuFreqMaxAsm_clock`: the two moves encode the last frequency of the selected GPU table as a 32-bit number.
- `installedExactly_iff`: when both tables and the GPU maximum agree with the selection.
- `stock_rows_remain`: the shipped Mariko GPU table has three rows less than the stock table, which stay in the image.
-/
import RyazhaClk.Loader.GpuVolts
import RyazhaClk.Loader.PcvPatchers

namespace RyazhaClk.Loader

open Terminated Validated

/-! ## One table -/

/-- the stock image has room for 31 entries: zero rows behind the stock table -/
def ZeroBehind (defaultTable image : List CvbEntry) : Prop :=
  ∀ i, getDvfsTableEntryCount defaultTable ≤ i → i < dvfsTableEntryLimit → image[i]? = some {}

/-- the image is read back as the selected table, with nothing behind it -/
structure TableInstalled (selected image' : List CvbEntry) : Prop where
  freqs : (dvfsEntries image').map CvbEntry.freq = (dvfsEntries selected).map CvbEntry.freq
  behind : ∀ i, getDvfsTableEntryCount selected ≤ i → i < dvfsTableEntryLimit → image'[i]? = some {}

theorem isEmpty_eq_false_of_mem {table : List CvbEntry} {e : CvbEntry} (h : e ∈ dvfsEntries table) :
    e.isEmpty = false := by
  simpa using List.mem_takeWhile_imp h

/-- rows with the frequencies of the selected table, over an image that starts with the stock rows -/
theorem tableInstalled_iff {defaultTable selected image rows : List CvbEntry}
    (hstock : image.take (getDvfsTableEntryCount defaultTable) = dvfsEntries defaultTable)
    (hzero : ZeroBehind defaultTable image) (hrows : rows.map CvbEntry.freq = (dvfsEntries selected).map CvbEntry.freq) :
    TableInstalled selected (overlay rows image) ↔
      getDvfsTableEntryCount defaultTable ≤ getDvfsTableEntryCount selected ∧ ∀ r ∈ rows, r.isEmpty = false := by
  have hlen : rows.length = getDvfsTableEntryCount selected := by
    have h := congrArg List.length hrows
    rwa [List.length_map, List.length_map, ← getDvfsTableEntryCount_eq] at h
  have hlimit : rows.length ≤ dvfsTableEntryLimit := hlen ▸ getDvfsTableEntryCount_le selected
  constructor
  · intro h
    have hused : used CvbEntry.isEmpty dvfsTableEntryLimit (overlay rows image) = rows := by
      apply used_overlay_of_length
      have hlength := congrArg List.length (h.freqs.trans hrows.symm)
      rwa [List.length_map, List.length_map] at hlength
    obtain ⟨hempty, hnext⟩ := (used_overlay_iff CvbEntry.isEmpty hlimit).1 hused
    refine ⟨?_, hempty⟩
    by_contra hshort
    rw [not_le, ← hlen] at hshort
    -- the row behind the copied ones is a stock row
    have hrow : image[rows.length]? = (dvfsEntries defaultTable)[rows.length]? := by
      rw [← hstock, List.getElem?_take, if_pos hshort]
    have hin : rows.length < (dvfsEntries defaultTable).length := by rwa [← getDvfsTableEntryCount_eq]
    have hfull := hnext (hshort.trans_le (getDvfsTableEntryCount_le defaultTable)) _
      (by rw [hrow, List.getElem?_eq_getElem hin]; rfl)
    rw [isEmpty_eq_false_of_mem (List.getElem_mem hin)] at hfull
    exact Bool.noConfusion hfull
  · rintro ⟨hle, hempty⟩
    have hused : used CvbEntry.isEmpty dvfsTableEntryLimit (overlay rows image) = rows := by
      refine (used_overlay_iff CvbEntry.isEmpty hlimit).2 ⟨hempty, ?_⟩
      intro hlt r hr
      rw [hzero rows.length (hlen ▸ hle) hlt] at hr
      obtain rfl := Option.some.inj hr
      rfl
    refine ⟨?_, ?_⟩
    · rw [dvfsEntries, hused, hrows]
    · intro i hi hlt
      rw [overlay, List.getElem?_append_right (hlen ▸ hi), List.getElem?_drop, Nat.add_sub_cancel' (hlen ▸ hi)]
      exact hzero i (hle.trans hi) hlt

/-! ## Rows patched to zero -/

variable {isMariko : Bool} {C : CustomizeTable}

theorem isEmpty_of_freq_ne {e : CvbEntry} (h : e.freq ≠ 0) : e.isEmpty = false := by
  rw [CvbEntry.isEmpty, decide_eq_false_iff_not]
  rintro rfl
  exact h rfl

/-- only rows with a frequency get a voltage limit -/
theorem cpuRow_isEmpty {e : CvbEntry} (h : e.isEmpty = false) : (cpuRow isMariko C e).isEmpty = false := by
  unfold cpuRow
  by_cases hvolt : (if isMariko then C.marikoCpuMaxVolt else C.eristaCpuMaxVolt) ≠ 0
  · rw [if_pos hvolt]
    by_cases hfreq : e.freq ≥ cpuFreqThreshold
    · apply isEmpty_of_freq_ne
      rw [cpuMaxVoltEntry_freq]
      exact (Nat.zero_lt_of_lt (lt_of_lt_of_le (by decide : 0 < cpuFreqThreshold) hfreq)).ne'
    · rwa [cpuMaxVoltEntry, if_neg hfreq]
  · rwa [if_neg hvolt]

/-- how often the offset is subtracted behind the first loop -/
def offsetAgainTimes (isMariko : Bool) (C : CustomizeTable) : ℤ := if OffsetAgain isMariko C then 1 else 0

/-- a row without frequency whose voltage comes out as 0: such a row ends the table where it is read -/
def RowVanishes (isMariko : Bool) (C : CustomizeTable) (i : ℕ) (e : CvbEntry) : Prop :=
  e.freq = 0 ∧ e.cvbDfllParam = {} ∧
    if gpuVoltArray isMariko C i ≠ 0 then
      (2 ^ 32 : ℤ) ∣ gpuVoltArray isMariko C i * 1000 - offsetAgainTimes isMariko C * (C.commonGpuVoltOffset * 1000)
    else { e.cvbPllParam with c0 := 0 } = ({} : CvbCoefficients) ∧
      (2 ^ 32 : ℤ) ∣ e.cvbPllParam.c0 - (1 + offsetAgainTimes isMariko C) * (C.commonGpuVoltOffset * 1000)

theorem toS32_eq_zero_iff (n : ℤ) : toS32 n = 0 ↔ (2 ^ 32 : ℤ) ∣ n := by
  have h := toS32_sub_eq_iff 0 (-n)
  rwa [zero_sub, neg_neg, show toS32 0 = 0 from rfl, dvd_neg] at h

/-- the first loop touches the coefficients alone -/
theorem gpuVoltEntry_eq {i : ℕ} {e : CvbEntry} {pll : CvbCoefficients}
    (h : (gpuVoltEntry isMariko C i e).cvbPllParam = pll) : gpuVoltEntry isMariko C i e = { e with cvbPllParam := pll } := by
  subst h
  by_cases hv : gpuVoltArray isMariko C i ≠ 0
  · rw [gpuVoltEntry, if_pos hv, clearCvbPllEntry, setCvbPllC0]
  · rw [gpuVoltEntry, if_neg hv, gpuOffsetEntry, setCvbPllC0]

/-- the coefficient a row ends with, and the row around it -/
theorem gpuRow_eq (i : ℕ) (e : CvbEntry) : gpuRow isMariko C i e =
    if gpuVoltArray isMariko C i ≠ 0 then
      { e with cvbPllParam :=
        { c0 := toS32 (gpuVoltArray isMariko C i * 1000 - offsetAgainTimes isMariko C * (C.commonGpuVoltOffset * 1000)) } }
    else
      { e with cvbPllParam :=
        { e.cvbPllParam with
          c0 := toS32 (e.cvbPllParam.c0 - (1 + offsetAgainTimes isMariko C) * (C.commonGpuVoltOffset * 1000)) } } := by
  have hfirst := @voltRule_gpuVoltEntry isMariko C i e
  unfold gpuRow offsetAgainTimes
  by_cases hv : gpuVoltArray isMariko C i ≠ 0
  · rw [if_pos hv, gpuVoltEntry_eq (hfirst.manual hv)]
    by_cases hagain : OffsetAgain isMariko C
    · rw [if_pos hagain, if_pos hagain, one_mul, ← toS32_toS32_sub, gpuOffsetEntry, setCvbPllC0]
    · rw [if_neg hagain, if_neg hagain, zero_mul, sub_zero]
  · rw [if_neg hv, gpuVoltEntry_eq (hfirst.auto (not_not.1 hv))]
    by_cases hagain : OffsetAgain isMariko C
    · rw [if_pos hagain, if_pos hagain, add_mul, one_mul, ← sub_sub, gpuOffsetEntry, setCvbPllC0]
      dsimp only
      rw [toS32_toS32_sub]
    · rw [if_neg hagain, if_neg hagain, add_zero, one_mul]

theorem gpuRow_isEmpty_iff (i : ℕ) (e : CvbEntry) :
    (gpuRow isMariko C i e).isEmpty = true ↔ RowVanishes isMariko C i e := by
  rw [CvbEntry.isEmpty, decide_eq_true_eq, gpuRow_eq, RowVanishes]
  by_cases hv : gpuVoltArray isMariko C i ≠ 0
  · simp only [if_pos hv, CvbEntry.mk.injEq, CvbCoefficients.mk.injEq, toS32_eq_zero_iff, and_true]
  · simp only [if_neg hv, CvbEntry.mk.injEq, CvbCoefficients.mk.injEq, toS32_eq_zero_iff, true_and]
    tauto

/-! ## The GPU maximum -/

/-- the 32-bit number the two moves build -/
def encodedClock (w : Words) (ptr32 : ℤ) : ℕ :=
  (asmGetImm16 (w ptr32)).toNat + 2 ^ 16 * (asmGetImm16 (w (ptr32 + 1))).toNat

theorem gpuFreqMaxAsm_clock {ptr32 : ℤ} {s s' : PcvState}
    (h : (Pcv.gpuFreqMaxAsm isMariko C ptr32).exec s = (.ok (), s')) :
    ∃ e, (dvfsEntries (gpuCustomizeTable isMariko C)).getLast? = some e ∧
      encodedClock s'.words ptr32 = e.freq % 2 ^ 32 := by
  have hmax : ∃ maxClock, dvfsMaxFreq (gpuCustomizeTable isMariko C) = .ok maxClock ∧
      encodedClock s'.words ptr32 = maxClock % 2 ^ 16 + 2 ^ 16 * (maxClock / 2 ^ 16 % 2 ^ 16) := by
    unfold Pcv.gpuFreqMaxAsm at h
    simp only [exec_bind, exec_image] at h
    rcases hpattern : (asmCompareNoRd (s.words ptr32) Pcv.gpuAsmPattern0 &&
        asmCompareNoRd (s.words (ptr32 + 1)) Pcv.gpuAsmPattern1) with _ | _
    · simp [rUnless, hpattern] at h
    · by_cases hrd : asmGetRd (s.words ptr32) = asmGetRd (s.words (ptr32 + 1))
      · rcases hclock : dvfsMaxFreq (gpuCustomizeTable isMariko C) with a | maxClock
        · simp [rUnless, hpattern, hrd, hclock, orCrash, crash] at h
        · refine ⟨maxClock, rfl, ?_⟩
          simp [rUnless, hpattern, hrd, hclock, orCrash] at h
          subst h
          rw [encodedClock]
          simp [asmGetImm16_patch]
      · simp [rUnless, hpattern, hrd] at h
  obtain ⟨maxClock, hclock, hencoded⟩ := hmax
  obtain ⟨e, hlast, hfreq⟩ := dvfsMaxFreq_eq_ok_iff.1 hclock
  refine ⟨e, hlast, ?_⟩
  omega

/-! ## Both tables -/

structure InstalledExactly (isMariko : Bool) (C : CustomizeTable) (cpuImage gpuImage : List CvbEntry) (w : Words)
    (ptr32 : ℤ) : Prop where
  cpu : TableInstalled (cpuCustomizeTable isMariko C) cpuImage
  gpu : TableInstalled (gpuCustomizeTable isMariko C) gpuImage
  maxClock : (dvfsEntries gpuImage).getLast?.map CvbEntry.freq = some (encodedClock w ptr32)

/-- no CPU row is patched to zero -/
theorem cpuTableInstalled_iff {cpu cpu' : List CvbEntry} (h : cpuFreqCvbTable isMariko C cpu = .ok cpu')
    (hzero : ZeroBehind (cpuCvbTableDefault isMariko) cpu) :
    TableInstalled (cpuCustomizeTable isMariko C) cpu' ↔
      getDvfsTableEntryCount (cpuCvbTableDefault isMariko) ≤ getDvfsTableEntryCount (cpuCustomizeTable isMariko C) := by
  obtain ⟨hstock, rfl⟩ := cpuFreqCvbTable_eq h
  rw [tableInstalled_iff hstock hzero (mapIdx_cpuRow_freq _)]
  apply and_iff_left
  intro r hr
  obtain ⟨i, hi, rfl⟩ := List.mem_mapIdx.1 hr
  exact cpuRow_isEmpty (isEmpty_eq_false_of_mem (List.getElem_mem hi))

theorem gpuTableInstalled_iff {gpu gpu' : List CvbEntry} (h : gpuFreqCvbTable isMariko C gpu = .ok gpu')
    (hzero : ZeroBehind (gpuCvbTableDefault isMariko) gpu) :
    TableInstalled (gpuCustomizeTable isMariko C) gpu' ↔
      getDvfsTableEntryCount (gpuCvbTableDefault isMariko) ≤ getDvfsTableEntryCount (gpuCustomizeTable isMariko C) ∧
      ∀ i e, (dvfsEntries (gpuCustomizeTable isMariko C))[i]? = some e → ¬ RowVanishes isMariko C i e := by
  obtain ⟨hstock, rfl⟩ := gpuFreqCvbTable_eq h
  rw [tableInstalled_iff hstock hzero (mapIdx_gpuRow_freq _)]
  apply and_congr_right
  intro _
  constructor
  · intro h i e he hvanish
    obtain ⟨hi, rfl⟩ := List.getElem?_eq_some_iff.1 he
    have hfull := h _ (List.mem_mapIdx.2 ⟨i, hi, rfl⟩)
    rw [(gpuRow_isEmpty_iff i _).2 hvanish] at hfull
    exact Bool.noConfusion hfull
  · intro h r hr
    obtain ⟨i, hi, rfl⟩ := List.mem_mapIdx.1 hr
    have hnot := h i _ (List.getElem?_eq_getElem hi)
    rw [← gpuRow_isEmpty_iff] at hnot
    exact Bool.eq_false_iff.2 hnot

/-- of an installed table, the two moves encode the last frequency exactly when it has 32 bits -/
theorem maxClock_iff {gpu' : List CvbEntry} {ptr32 : ℤ} {s s' : PcvState}
    (hasm : (Pcv.gpuFreqMaxAsm isMariko C ptr32).exec s = (.ok (), s'))
    (hinstalled : TableInstalled (gpuCustomizeTable isMariko C) gpu') :
    (dvfsEntries gpu').getLast?.map CvbEntry.freq = some (encodedClock s'.words ptr32) ↔
      ∀ e ∈ (dvfsEntries (gpuCustomizeTable isMariko C)).getLast?, e.freq < 2 ^ 32 := by
  obtain ⟨last, hlast, hclock⟩ := gpuFreqMaxAsm_clock hasm
  rw [← List.getLast?_map, hinstalled.freqs, List.getLast?_map, hlast, hclock]
  simp only [Option.map_some, Option.some.injEq, Option.mem_def, forall_eq']
  omega

/-- **the image is read back as it was selected exactly when no selected table is shorter than the stock table it
replaces, no GPU row is patched to zero, and the last GPU frequency has 32 bits** -/
theorem installedExactly_iff {cpu gpu cpu' gpu' : List CvbEntry} {ptr32 : ℤ} {s s' : PcvState}
    (hcpu : cpuFreqCvbTable isMariko C cpu = .ok cpu') (hgpu : gpuFreqCvbTable isMariko C gpu = .ok gpu')
    (hasm : (Pcv.gpuFreqMaxAsm isMariko C ptr32).exec s = (.ok (), s'))
    (hcpuZero : ZeroBehind (cpuCvbTableDefault isMariko) cpu) (hgpuZero : ZeroBehind (gpuCvbTableDefault isMariko) gpu) :
    InstalledExactly isMariko C cpu' gpu' s'.words ptr32 ↔
      getDvfsTableEntryCount (cpuCvbTableDefault isMariko) ≤ getDvfsTableEntryCount (cpuCustomizeTable isMariko C) ∧
      getDvfsTableEntryCount (gpuCvbTableDefault isMariko) ≤ getDvfsTableEntryCount (gpuCustomizeTable isMariko C) ∧
      (∀ i e, (dvfsEntries (gpuCustomizeTable isMariko C))[i]? = some e → ¬ RowVanishes isMariko C i e) ∧
      ∀ e ∈ (dvfsEntries (gpuCustomizeTable isMariko C)).getLast?, e.freq < 2 ^ 32 := by
  have hcpuIff := cpuTableInstalled_iff hcpu hcpuZero
  have hgpuIff := gpuTableInstalled_iff hgpu hgpuZero
  constructor
  · intro h
    obtain ⟨hgpuLen, hvanish⟩ := hgpuIff.1 h.gpu
    exact ⟨hcpuIff.1 h.cpu, hgpuLen, hvanish, (maxClock_iff hasm h.gpu).1 h.maxClock⟩
  · rintro ⟨hcpuLen, hgpuLen, hvanish, hfits⟩
    have hinstalled := hgpuIff.2 ⟨hgpuLen, hvanish⟩
    exact ⟨hcpuIff.2 hcpuLen, hinstalled, (maxClock_iff hasm hinstalled).2 hfits⟩

/-! ## A complete table and a short one -/

/-- the stock tables, selected through the configuration -/
def fullCustomize : CustomizeTable :=
  { sampleCustomize with
    tableConf := DEFAULT_TABLE
    marikoGpuDvfsTable := .ofRows (dvfsEntries Mariko.gpuCvbTableDefault) }

/-- the shipped GPU table: the last three stock rows are commented out -/
def shippedCustomize : CustomizeTable :=
  { fullCustomize with
    marikoGpuDvfsTable := .ofRows
      [⟨76800, {}, ⟨480000, 0, 0, 0, 0, 0⟩⟩,
       ⟨153600, {}, ⟨480000, 0, 0, 0, 0, 0⟩⟩,
       ⟨230400, {}, ⟨480000, 0, 0, 0, 0, 0⟩⟩,
       ⟨307200, {}, ⟨738712, -7304, -552, 119, -3750, -2⟩⟩,
       ⟨384000, {}, ⟨758712, -7304, -552, 119, -3750, -2⟩⟩,
       ⟨460800, {}, ⟨778712, -7304, -552, 119, -3750, -2⟩⟩,
       ⟨537600, {}, ⟨798712, -7304, -552, 119, -3750, -2⟩⟩,
       ⟨614400, {}, ⟨818712, -7304, -552, 119, -3750, -2⟩⟩,
       ⟨691200, {}, ⟨838712, -7304, -552, 119, -3750, -2⟩⟩,
       ⟨768000, {}, ⟨880210, -7955, -584, 0, -2849, 39⟩⟩,
       ⟨844800, {}, ⟨926398, -8892, -602, -60, -384, -93⟩⟩,
       ⟨921600, {}, ⟨970060, -10108, -614, -179, 1508, -13⟩⟩,
       ⟨998400, {}, ⟨1065665, -16075, -497, -179, 3213, 9⟩⟩,
       ⟨1075200, {}, ⟨1132576, -16093, -648, 0, 1077, 40⟩⟩] }

/-- the two moves of the maximum, at the start of the NSO -/
def clockState : PcvState := ⟨fun p => if p = 0 then Pcv.gpuAsmPattern0 else Pcv.gpuAsmPattern1, []⟩

theorem zeroBehind_of_all {defaultTable image : List CvbEntry}
    (h : (List.range dvfsTableEntryLimit).all
      fun i => i < getDvfsTableEntryCount defaultTable || image[i]? = some ({} : CvbEntry)) :
    ZeroBehind defaultTable image := by
  intro i hi hlt
  have hrow := List.all_eq_true.1 h i (List.mem_range.2 hlt)
  simpa [not_lt.2 hi] using hrow

theorem fullCustomize_installedExactly :
    ∃ cpu' gpu' s', cpuFreqCvbTable true fullCustomize (stockImage Mariko.cpuCvbTableDefault) = .ok cpu' ∧
      gpuFreqCvbTable true fullCustomize (stockImage Mariko.gpuCvbTableDefault) = .ok gpu' ∧
      (Pcv.gpuFreqMaxAsm true fullCustomize 0).exec clockState = (.ok (), s') ∧
      InstalledExactly true fullCustomize cpu' gpu' s'.words 0 := by
  have hcpu : cpuFreqCvbTable true fullCustomize (stockImage Mariko.cpuCvbTableDefault) = .ok _ := rfl
  have hgpu : gpuFreqCvbTable true fullCustomize (stockImage Mariko.gpuCvbTableDefault) = .ok _ := rfl
  have hasm : (Pcv.gpuFreqMaxAsm true fullCustomize 0).exec clockState = (.ok (), _) := rfl
  have hfreq : ∀ e ∈ dvfsEntries (gpuCustomizeTable true fullCustomize), e.freq ≠ 0 := by decide
  refine ⟨_, _, _, hcpu, hgpu, hasm, ?_⟩
  refine (installedExactly_iff hcpu hgpu hasm (zeroBehind_of_all (by decide)) (zeroBehind_of_all (by decide))).2 ?_
  refine ⟨by decide, by decide, ?_, by decide⟩
  intro i e he hvanish
  exact hfreq e (List.mem_of_getElem? he) hvanish.1

/-- the shipped rows end at 1075.2 MHz, the image is read up to 1267.2 MHz -/
theorem stock_rows_remain :
    ¬ ∀ (isMariko : Bool) (C : CustomizeTable) (cpu gpu cpu' gpu' : List CvbEntry) (ptr32 : ℤ) (s s' : PcvState),
      cpuFreqCvbTable isMariko C cpu = .ok cpu' → gpuFreqCvbTable isMariko C gpu = .ok gpu' →
      (Pcv.gpuFreqMaxAsm isMariko C ptr32).exec s = (.ok (), s') →
      ZeroBehind (cpuCvbTableDefault isMariko) cpu → ZeroBehind (gpuCvbTableDefault isMariko) gpu →
      InstalledExactly isMariko C cpu' gpu' s'.words ptr32 := by
  intro hclaim
  have h := hclaim true shippedCustomize (stockImage Mariko.cpuCvbTableDefault) (stockImage Mariko.gpuCvbTableDefault)
    _ _ 0 clockState _ rfl rfl rfl (zeroBehind_of_all (by decide)) (zeroBehind_of_all (by decide))
  exact absurd (congrArg List.length h.gpu.freqs) (by decide)

end RyazhaClk.Loader
