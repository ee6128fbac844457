/-
The GPU voltages `GpuFreqCvbTable` leaves in the image, row by row. The shipped configuration documents two kinds of
rows: a manual voltage replaces the curve and gets no offset, an automatic row keeps its curve with the offset applied.

- `getElem?_gpuFreqCvbTable`: every installed row is its selected row, changed by the first loop and, without an
  undervolt level, by the offset once more.
- `gpuVoltsLayered_iff`: the rows follow the two rules exactly when the second loop does not run on a row, or subtracts
  nothing from the 32-bit coefficient.
- `manual_voltage_offset`: with an offset of 50 mV and no undervolt level a manual 800 mV row is set to 750 mV.
-/
import RyazhaClk.Loader.CvbTables

namespace RyazhaClk.Loader

open Terminated

variable (isMariko : Bool) (C : CustomizeTable)

/-! ## The documented rules -/

/-- what the documentation of the voltage arrays says about row `i`; coefficients are stored as `s32` -/
structure VoltRule (i : ℕ) (selected installed : CvbEntry) : Prop where
  /-- a manual voltage, in mV: the offset is not applied -/
  manual : gpuVoltArray isMariko C i ≠ 0 →
    installed.cvbPllParam = { c0 := toS32 (gpuVoltArray isMariko C i * 1000) }
  /-- `AUTO`: the selected curve with the offset applied -/
  auto : gpuVoltArray isMariko C i = 0 →
    installed.cvbPllParam =
      { selected.cvbPllParam with c0 := toS32 (selected.cvbPllParam.c0 - C.commonGpuVoltOffset * 1000) }

def GpuVoltsLayered (image' : List CvbEntry) : Prop :=
  ∀ i e, (dvfsEntries (gpuCustomizeTable isMariko C))[i]? = some e → ∃ e', image'[i]? = some e' ∧ VoltRule isMariko C i e e'

/-! ## One row -/

variable {isMariko C}

/-- the first loop does what the documentation says -/
theorem voltRule_gpuVoltEntry (i : ℕ) (e : CvbEntry) : VoltRule isMariko C i e (gpuVoltEntry isMariko C i e) := by
  refine ⟨?_, ?_⟩
  · intro hmanual
    rw [gpuVoltEntry, if_pos hmanual, clearCvbPllEntry, setCvbPllC0]
  · intro hauto
    rw [gpuVoltEntry, if_neg (not_not.2 hauto), gpuOffsetEntry, setCvbPllC0]

/-- both rules together fix the coefficients -/
theorem VoltRule.eq {i : ℕ} {e e1 e2 : CvbEntry} (h1 : VoltRule isMariko C i e e1) (h2 : VoltRule isMariko C i e e2) :
    e1.cvbPllParam = e2.cvbPllParam := by
  by_cases hv : gpuVoltArray isMariko C i = 0
  · rw [h1.auto hv, h2.auto hv]
  · rw [h1.manual hv, h2.manual hv]

theorem toS32_toS32_sub (n d : ℤ) : toS32 (toS32 n - d) = toS32 (n - d) :=
  Int.bmod_sub_bmod

/-- a 32-bit coefficient survives a subtraction exactly when 2^32 divides what is subtracted -/
theorem toS32_sub_eq_iff (n d : ℤ) : toS32 (n - d) = toS32 n ↔ (2 ^ 32 : ℤ) ∣ d := by
  unfold toS32
  rw [Int.bmod_eq_bmod_iff_bmod_sub_eq_zero, sub_sub_cancel_left, Int.bmod_eq_iff (by decide)]
  constructor
  · rintro ⟨-, -, h⟩
    simpa using h
  · intro h
    exact ⟨by decide, by decide, by simpa using h⟩

/-- every coefficient the first loop leaves has been stored as an `s32` -/
theorem gpuVoltEntry_c0 (i : ℕ) (e : CvbEntry) : ∃ n, (gpuVoltEntry isMariko C i e).cvbPllParam.c0 = toS32 n := by
  by_cases hv : gpuVoltArray isMariko C i = 0
  · exact ⟨_, by rw [(voltRule_gpuVoltEntry i e).auto hv]⟩
  · exact ⟨_, by rw [(voltRule_gpuVoltEntry i e).manual hv]⟩

/-- the second loop leaves a row alone exactly when its subtraction is one of nothing -/
theorem gpuOffsetEntry_eq_iff (i : ℕ) (e : CvbEntry) :
    (gpuOffsetEntry C (gpuVoltEntry isMariko C i e)).cvbPllParam = (gpuVoltEntry isMariko C i e).cvbPllParam ↔
      (2 ^ 32 : ℤ) ∣ C.commonGpuVoltOffset * 1000 := by
  obtain ⟨n, hn⟩ := @gpuVoltEntry_c0 isMariko C i e
  rw [← toS32_sub_eq_iff n, ← toS32_toS32_sub, ← hn]
  constructor
  · intro h
    have hc0 := congrArg CvbCoefficients.c0 h
    rwa [gpuOffsetEntry, setCvbPllC0] at hc0
  · intro h
    rw [gpuOffsetEntry, setCvbPllC0, h]

theorem voltRule_gpuRow_iff (i : ℕ) (e : CvbEntry) :
    VoltRule isMariko C i e (gpuRow isMariko C i e) ↔
      gpuUV isMariko C ≠ 0 ∨ (2 ^ 32 : ℤ) ∣ C.commonGpuVoltOffset * 1000 := by
  have hfirst := @voltRule_gpuVoltEntry isMariko C i e
  unfold gpuRow
  by_cases hagain : OffsetAgain isMariko C
  · rw [if_pos hagain, or_iff_right (not_not.2 hagain.2), ← gpuOffsetEntry_eq_iff i e]
    constructor
    · intro h
      exact h.eq hfirst
    · intro h
      exact ⟨fun hv => h.trans (hfirst.manual hv), fun hv => h.trans (hfirst.auto hv)⟩
  · rw [if_neg hagain]
    refine iff_of_true hfirst ?_
    rcases Nat.eq_zero_or_pos C.commonGpuVoltOffset with hzero | hpos
    · right
      simp [hzero]
    · left
      intro huv
      exact hagain ⟨hpos.ne', huv⟩

/-! ## The whole table -/

theorem getElem?_gpuFreqCvbTable {image image' : List CvbEntry} {i : ℕ} {e : CvbEntry}
    (h : gpuFreqCvbTable isMariko C image = .ok image')
    (he : (dvfsEntries (gpuCustomizeTable isMariko C))[i]? = some e) :
    image'[i]? = some (gpuRow isMariko C i e) := by
  obtain ⟨-, rfl⟩ := gpuFreqCvbTable_eq h
  have hi : i < ((dvfsEntries (gpuCustomizeTable isMariko C)).mapIdx (gpuRow isMariko C)).length := by
    rw [List.length_mapIdx]
    exact (List.getElem?_eq_some_iff.1 he).1
  rw [getElem?_overlay hi, List.getElem?_mapIdx, he, Option.map_some]

/-- **the installed rows follow the documented rules exactly when the second loop changes none of them** -/
theorem gpuVoltsLayered_iff {image image' : List CvbEntry} (h : gpuFreqCvbTable isMariko C image = .ok image') :
    GpuVoltsLayered isMariko C image' ↔
      gpuUV isMariko C ≠ 0 ∨ 2 ^ 32 ∣ C.commonGpuVoltOffset * 1000 ∨ dvfsEntries (gpuCustomizeTable isMariko C) = [] := by
  have hcast : (2 ^ 32 : ℤ) ∣ C.commonGpuVoltOffset * 1000 ↔ 2 ^ 32 ∣ C.commonGpuVoltOffset * 1000 := by
    exact_mod_cast Int.natCast_dvd_natCast
  have hrow : ∀ i e, (dvfsEntries (gpuCustomizeTable isMariko C))[i]? = some e →
      ((∃ e', image'[i]? = some e' ∧ VoltRule isMariko C i e e') ↔
        gpuUV isMariko C ≠ 0 ∨ 2 ^ 32 ∣ C.commonGpuVoltOffset * 1000) := by
    intro i e he
    rw [getElem?_gpuFreqCvbTable h he, ← hcast, ← voltRule_gpuRow_iff i e]
    simp
  rcases heq : dvfsEntries (gpuCustomizeTable isMariko C) with _ | ⟨first, rest⟩
  · refine iff_of_true ?_ (Or.inr (Or.inr rfl))
    intro i e he
    rw [heq] at he
    simp at he
  · have h0 : (dvfsEntries (gpuCustomizeTable isMariko C))[0]? = some first := by
      rw [heq]
      rfl
    constructor
    · intro hall
      rcases (hrow 0 first h0).1 (hall 0 first h0) with huv | hoff
      · exact Or.inl huv
      · exact Or.inr (Or.inl hoff)
    · rintro (huv | hoff | hnil)
      · intro i e he
        exact (hrow i e he).2 (Or.inl huv)
      · intro i e he
        exact (hrow i e he).2 (Or.inr hoff)
      · exact absurd hnil (by simp)

/-- undervolt level 1 with an offset of 50 mV, the first row of the table manual at 590 mV and the second automatic -/
def undervoltedCustomize : CustomizeTable :=
  { sampleCustomize with
    marikoGpuUV := 1
    commonGpuVoltOffset := 50
    marikoGpuVoltArray := (Vector.replicate 24 0).set 0 590
    marikoGpuDvfsTableSLT := .ofRows
      [⟨307200, {}, ⟨738712, -7304, -552, 119, -3750, -2⟩⟩, ⟨1228800, {}, ⟨1238293, -16383, -859, 0, 3722, 313⟩⟩] }

def undervoltedGpuImage : List CvbEntry :=
  overlay [⟨307200, {}, ⟨590000, 0, 0, 0, 0, 0⟩⟩, ⟨1228800, {}, ⟨1188293, -16383, -859, 0, 3722, 313⟩⟩]
    (stockImage Mariko.gpuCvbTableDefault)

/-- the manual row is set to its voltage and the automatic row to its curve less the offset -/
theorem undervolted_voltsLayered : GpuVoltsLayered true undervoltedCustomize undervoltedGpuImage := by
  have hgpu : gpuFreqCvbTable true undervoltedCustomize (stockImage Mariko.gpuCvbTableDefault) =
      .ok undervoltedGpuImage := by
    decide +kernel
  exact (gpuVoltsLayered_iff hgpu).2 (Or.inl (by decide))

/-- every row manual at 800 mV, and an offset of 50 mV -/
def manualCustomize : CustomizeTable :=
  { sampleCustomize with
    commonGpuVoltOffset := 50
    marikoGpuVoltArray := Vector.replicate 24 800 }

/-- the manual row is set to 750 mV -/
theorem manual_voltage_offset :
    ¬ ∀ (isMariko : Bool) (C : CustomizeTable) (image image' : List CvbEntry),
      gpuFreqCvbTable isMariko C image = .ok image' → GpuVoltsLayered isMariko C image' := by
  intro hclaim
  have h := hclaim true manualCustomize (stockImage Mariko.gpuCvbTableDefault) _ rfl
  obtain ⟨e', he', hrule⟩ := h 0 ⟨1075200, {}, ⟨1132576, -16093, -648, 0, 1077, 40⟩⟩ (by decide)
  have hc0 := congrArg CvbCoefficients.c0 (hrule.manual (by decide))
  obtain rfl := Option.some.inj he'
  exact absurd hc0 (by decide)

end RyazhaClk.Loader
