/-
What the memory patches leave behind and when their parts agree.

- `memFreqMtcTable_rates`, `memFreqDvbTable_freqs`: under an overclock the valid MTC tables and the DVB rows are the
  generated list.
- `patchesAgree_iff`: after a full patch the four parts agree exactly when an overclock is requested and its list fits
  into 31 entries.
- `count_cleared_without_overclock`: a maximum of 1600 MHz leaves a table count of 0 in the code.
-/
import RyazhaClk.Loader.MemoryPatches

namespace RyazhaClk.Loader

open Terminated Ascending

variable {P : Type}

/-! ## Reading the patched image -/

/-- the MTC tables from the head up to the first that is not one -/
def validTables (image : MemImage P) : List (MtcTable P) :=
  used (fun table => table.rev != mtcTableRev) (mtcFullTableCount * mtcTableCountDefault) image.mtc

def dvbRows (image : MemImage P) : List DvbEntry :=
  used DvbEntry.isEmpty dvfsTableEntryCount image.dvb

/-- the tables memory runs on: without an overclock the stock ones of the DRAM kind, else all valid ones -/
def tablesInUse (C : CustomizeTable) (dramId : ℕ) (image : MemImage P) : List (MtcTable P) :=
  if C.marikoEmcMaxClock ≤ emcClkOSLimit then
    (mtcTablesFrom ((getMtcDramIndex dramId).getD 0) image.mtc).take mtcTableCountDefault
  else validTables image

/-- count in the code, MTC tables, DVB rows and maximum describe one list of frequencies -/
structure PatchesAgree (C : CustomizeTable) (dramId : ℕ) (image : MemImage P) : Prop where
  count : (asmGetImm16 image.tableAsm.mov).toNat =
    if C.marikoEmcMaxClock ≤ emcClkOSLimit then mtcTableCountDefault else (validTables image).length
  dvb : ∀ table ∈ tablesInUse C dramId image, ((dvbRows image).map DvbEntry.freq).count table.rateKhz = 1
  max : ∀ clock ∈ image.emcMax, (tablesInUse C dramId image).getLast?.map MtcTable.rateKhz = some clock

/-! ## MTC tables -/

theorem mtcValidateAllTables_iff (tables : List (MtcTable P)) (freqs : List ℕ) :
    mtcValidateAllTables tables freqs = true ↔
      (tables.take freqs.length).map MtcTable.rateKhz = freqs ∧
        ∀ table ∈ tables.take freqs.length, table.rev = mtcTableRev := by
  induction freqs generalizing tables with
  | nil => simp [mtcValidateAllTables]
  | cons freq freqs ih =>
    cases tables with
    | nil => simp [mtcValidateAllTables]
    | cons table tables =>
      simp only [mtcValidateAllTables, verifyMtcTable, Bool.and_eq_true, decide_eq_true_eq, ih, List.length_cons,
        List.take_succ_cons, List.map_cons, List.cons.injEq, List.forall_mem_cons]
      tauto

theorem length_copyTables (previous : MtcTable P) (rates : List ℕ) :
    (copyTables previous rates).length = rates.length := by
  induction rates generalizing previous with
  | nil => rfl
  | cons rate rates ih => rw [copyTables, List.length_cons, List.length_cons, ih]

section Adjust

variable (adjust : CustomizeTable → ℕ → P → P) (C : CustomizeTable)

theorem adjustTable_rateKhz (i : ℕ) (table : MtcTable P) : (adjustTable adjust C i table).rateKhz = table.rateKhz := by
  unfold adjustTable
  by_cases h : i < mtcTableCountDefault
  · rw [if_pos h]
  · rw [if_neg h]

theorem adjustTable_rev (i : ℕ) (table : MtcTable P) : (adjustTable adjust C i table).rev = table.rev := by
  unfold adjustTable
  by_cases h : i < mtcTableCountDefault
  · rw [if_pos h]
  · rw [if_neg h]

end Adjust

section Mtc

variable [Zero P] {adjust : CustomizeTable → ℕ → P → P} {C : CustomizeTable} {dramId : ℕ} {newEmcList : List ℕ}

/-- behind the list's tables the cleared region is left as it was -/
theorem drop_mtcExtendTables (index : ℕ) (mtc : List (MtcTable P)) (hlen : mtcTableCountDefault ≤ newEmcList.length) :
    (mtcExtendTables newEmcList (prepareMtcMemoryRegion index mtc)).drop newEmcList.length
      = (prepareMtcMemoryRegion index mtc).drop newEmcList.length := by
  unfold mtcExtendTables
  cases hlast : (prepareMtcMemoryRegion index mtc)[mtcTableCountDefault - 1]? with
  | none => rfl
  | some last =>
    have hlong : mtcTableCountDefault ≤ (prepareMtcMemoryRegion index mtc).length := by
      rw [prepareMtcMemoryRegion, List.length_append, List.length_replicate]
      exact le_add_left (by decide)
    have hnew : ((prepareMtcMemoryRegion index mtc).take mtcTableCountDefault ++
        copyTables last (newEmcList.drop mtcTableCountDefault)).length = newEmcList.length := by
      rw [List.length_append, List.length_take, min_eq_left hlong, length_copyTables, List.length_drop]
      exact Nat.add_sub_cancel' hlen
    simp only [overlay]
    rw [hnew, List.drop_left' hnew]

theorem prepared_cleared (index : ℕ) (mtc : List (MtcTable P)) (hlen : mtcTableCountDefault ≤ newEmcList.length) :
    ∀ table ∈ (prepareMtcMemoryRegion index mtc).drop newEmcList.length, table.rev = 0 := by
  intro table htable
  rw [prepareMtcMemoryRegion, List.drop_append] at htable
  rcases List.mem_append.1 htable with h | h
  · have hshort : ((mtcTablesFrom index mtc).take mtcTableCountDefault).length ≤ newEmcList.length :=
      (List.length_take_le _ _).trans hlen
    rw [List.drop_of_length_le hshort] at h
    cases h
  · rw [List.eq_of_mem_replicate (List.mem_of_mem_drop h)]

/-- what a successful patch has validated, and what it returns -/
theorem memFreqMtcTable_ok {mtc mtc' : List (MtcTable P)} (hover : emcClkOSLimit < C.marikoEmcMaxClock)
    (h : memFreqMtcTable adjust C dramId newEmcList mtc = .ok mtc') :
    ∃ index, mtcValidateAllTables (mtcExtendTables newEmcList (prepareMtcMemoryRegion index mtc)) newEmcList = true ∧
      mtc' = mapHead newEmcList.length (adjustTable adjust C)
        (mtcExtendTables newEmcList (prepareMtcMemoryRegion index mtc)) := by
  unfold memFreqMtcTable at h
  cases hindex : getMtcDramIndex dramId with
  | none =>
    rw [hindex] at h
    cases h
  | some index =>
    rw [hindex] at h
    simp only at h
    by_cases hstock : mtcValidateAllTables (mtcTablesFrom index mtc) emcListDefault = false
    · rw [if_pos hstock] at h
      cases h
    · rw [if_neg hstock, if_neg (not_le.2 hover)] at h
      by_cases hprep : mtcValidateAllTables (prepareMtcMemoryRegion index mtc) emcListDefault = false
      · rw [if_pos hprep] at h
        cases h
      · rw [if_neg hprep] at h
        by_cases hext : mtcValidateAllTables (mtcExtendTables newEmcList (prepareMtcMemoryRegion index mtc)) newEmcList
            = false
        · rw [if_pos hext] at h
          cases h
        · rw [if_neg hext] at h
          cases h
          exact ⟨index, by simpa using hext, rfl⟩

theorem memFreqMtcTable_rates {mtc mtc' : List (MtcTable P)} (hover : emcClkOSLimit < C.marikoEmcMaxClock)
    (hlo : mtcTableCountDefault ≤ newEmcList.length)
    (hhi : newEmcList.length ≤ mtcFullTableCount * mtcTableCountDefault)
    (h : memFreqMtcTable adjust C dramId newEmcList mtc = .ok mtc') :
    (used (fun table => table.rev != mtcTableRev) (mtcFullTableCount * mtcTableCountDefault) mtc').map MtcTable.rateKhz
      = newEmcList := by
  obtain ⟨index, hvalid, rfl⟩ := memFreqMtcTable_ok hover h
  obtain ⟨hrates, hrev⟩ := (mtcValidateAllTables_iff _ _).1 hvalid
  have hcleared := prepared_cleared index mtc hlo
  rw [← drop_mtcExtendTables index mtc hlo] at hcleared
  generalize mtcExtendTables newEmcList (prepareMtcMemoryRegion index mtc) = extended at *
  have hrows : ∀ table ∈ (extended.take newEmcList.length).mapIdx (adjustTable adjust C), table.rev = mtcTableRev := by
    intro table htable
    have hmem := List.mem_map_of_mem (f := MtcTable.rev) htable
    rw [map_mapIdx (adjustTable_rev adjust C)] at hmem
    obtain ⟨table', htable', hrev'⟩ := List.mem_map.1 hmem
    rw [← hrev', hrev table' htable']
  have hshort : ((extended.take newEmcList.length).mapIdx (adjustTable adjust C)).length
      ≤ mtcFullTableCount * mtcTableCountDefault := by
    rw [List.length_mapIdx]
    exact (List.length_take_le _ _).trans hhi
  rw [mapHead, used_append _ hshort, map_mapIdx (adjustTable_rateKhz adjust C), hrates]
  · intro table htable
    simp [hrows table htable]
  · intro table htable
    simp [hcleared table htable, mtcTableRev]

end Mtc

/-! ## DVB rows -/

theorem emcDvbTableOc_freqs (freqs : List ℕ) (brackets : List DvbEntry) :
    (emcDvbTableOc freqs brackets).map DvbEntry.freq = freqs := by
  induction freqs generalizing brackets with
  | nil => rfl
  | cons freq freqs ih => rw [emcDvbTableOc, List.map_cons, ih]

theorem memFreqDvbTable_freqs {C : CustomizeTable} {newEmcList : List ℕ} {dvb dvb' : List DvbEntry}
    (hover : emcClkOSLimit < C.marikoEmcMaxClock) (hlen : newEmcList.length ≤ dvfsTableEntryCount)
    (hpos : ∀ freq ∈ newEmcList, 0 < freq)
    (hfree : ∀ r ∈ dvb.drop emcDvbTableDefault.length, r.isEmpty = true)
    (h : memFreqDvbTable C newEmcList dvb = .ok dvb') :
    (used DvbEntry.isEmpty dvfsTableEntryCount dvb').map DvbEntry.freq = newEmcList := by
  unfold memFreqDvbTable at h
  by_cases hstock : dvb.take emcDvbTableDefault.length ≠ emcDvbTableDefault
  · rw [if_pos hstock] at h
    cases h
  · rw [if_neg hstock, if_neg (not_le.2 hover)] at h
    cases h
    have hfreqs := emcDvbTableOc_freqs newEmcList (emcDvbOcTableBrackets C)
    generalize emcDvbTableOc newEmcList (emcDvbOcTableBrackets C) = rows at *
    have hrowsLen : rows.length = newEmcList.length := by
      rw [← hfreqs, List.length_map]
    rw [used_overlay, hfreqs]
    · exact hrowsLen.trans_le hlen
    · intro row hrow
      have hrowPos := hpos row.freq (by rw [← hfreqs]; exact List.mem_map_of_mem hrow)
      simp only [DvbEntry.isEmpty, decide_eq_false_iff_not]
      intro hzero
      rw [hzero] at hrowPos
      exact Nat.lt_irrefl 0 hrowPos
    · intro row hrow
      have hmem := List.mem_of_mem_drop hrow
      rw [overlay, List.length_replicate] at hmem
      rcases List.mem_append.1 hmem with hzero | hrest
      · rw [List.eq_of_mem_replicate hzero]
        rfl
      · exact hfree row hrest

/-! ## The patch as a whole -/

theorem requirePatched_eq_ok_iff {β : Type} {description : String} {x : Except PatchFailure β} {b : β} :
    requirePatched description x = .ok b ↔ x = .ok b := by
  cases x with
  | error e => cases e <;> simp [requirePatched]
  | ok a => simp [requirePatched]

section Patch

variable [Zero P] {adjust : CustomizeTable → ℕ → P → P} {C : CustomizeTable} {dramId : ℕ} {image : StockImage P}
  {image' : MemImage P}

/-- a completed patch has applied every part -/
theorem marikoPatchMemory_ok (h : marikoPatchMemory adjust C dramId image = some (.ok image')) :
    ∃ newEmcList, mtcGenerateFreqTables C = some newEmcList ∧
      memFreqMtcTable adjust C dramId newEmcList image.mtc = .ok image'.mtc ∧
      memFreqDvbTable C newEmcList image.dvb = .ok image'.dvb ∧
      memFreqMax C image.emcMax = .ok image'.emcMax ∧
      memMtcTableAsm newEmcList image.tableAsm = .ok image'.tableAsm := by
  unfold marikoPatchMemory at h
  obtain ⟨newEmcList, hlist, h⟩ := Option.map_eq_some_iff.1 h
  refine ⟨newEmcList, hlist, ?_⟩
  cases hmtc : requirePatched "MEM Freq Mtc" (memFreqMtcTable adjust C dramId newEmcList image.mtc) with
  | error a => simp [hmtc, bind, Except.bind] at h
  | ok mtc =>
    cases hdvb : requirePatched "MEM Freq Dvb" (memFreqDvbTable C newEmcList image.dvb) with
    | error a => simp [hmtc, hdvb, bind, Except.bind] at h
    | ok dvb =>
      cases hmax : requirePatched "MEM Freq Max" (memFreqMax C image.emcMax) with
      | error a => simp [hmtc, hdvb, hmax, bind, Except.bind] at h
      | ok emcMax =>
        cases hasm : requirePatched "MEM Table Asm" (memMtcTableAsm newEmcList image.tableAsm) with
        | error a => simp [hmtc, hdvb, hmax, hasm, bind, Except.bind] at h
        | ok tableAsm =>
          simp only [hmtc, hdvb, hmax, hasm, bind, Except.bind, pure, Except.pure, Except.ok.injEq] at h
          subst h
          exact ⟨requirePatched_eq_ok_iff.1 hmtc, requirePatched_eq_ok_iff.1 hdvb, requirePatched_eq_ok_iff.1 hmax,
            requirePatched_eq_ok_iff.1 hasm⟩

/-- the count in the code is the length of the list -/
theorem memMtcTableAsm_count {newEmcList : List ℕ} {a a' : TableAsm} (hlen : newEmcList.length < 2 ^ 16)
    (h : memMtcTableAsm newEmcList a = .ok a') : (asmGetImm16 a'.mov).toNat = newEmcList.length := by
  unfold memMtcTableAsm at h
  split_ifs at h
  cases h
  rw [asmGetImm16_patch, BitVec.toNat_ofNat, Nat.mod_eq_of_lt hlen]

theorem memFreqMax_ok {emcMax emcMax' : List ℕ} (hover : emcClkOSLimit < C.marikoEmcMaxClock)
    (h : memFreqMax C emcMax = .ok emcMax') :
    emcMax' ≠ [] ∧ ∀ clock ∈ emcMax', clock = C.marikoEmcMaxClock := by
  unfold memFreqMax at h
  by_cases hnil : emcMax = []
  · rw [if_pos hnil] at h
    cases h
  · rw [if_neg hnil, if_neg (not_le.2 hover)] at h
    cases h
    constructor
    · rwa [Ne, List.map_eq_nil_iff]
    · intro clock hclock
      obtain ⟨_, -, rfl⟩ := List.mem_map.1 hclock
      rfl

/-- a maximum of at most 1600 MHz leaves the list empty, and its length is written all the same -/
theorem count_cleared_without_overclock (hstock : C.marikoEmcMaxClock ≤ emcClkOSLimit)
    (h : marikoPatchMemory adjust C dramId image = some (.ok image')) :
    (asmGetImm16 image'.tableAsm.mov).toNat = 0 := by
  obtain ⟨newEmcList, hlist, -, -, -, hasm⟩ := marikoPatchMemory_ok h
  rw [mtcGenerateFreqTables, if_pos hstock] at hlist
  cases hlist
  exact memMtcTableAsm_count (by decide) hasm

/-- under an overclock the patched image is the list, but for the maximum -/
theorem patchesAgree_overclock (hover : emcClkOSLimit < C.marikoEmcMaxClock) (hmax : C.marikoEmcMaxClock ≤ 3500000)
    (h : marikoPatchMemory adjust C dramId image = some (.ok image')) :
    PatchesAgree C dramId image' ↔ EmcListFits C := by
  obtain ⟨newEmcList, hlist, hmtc, hdvb, hclock, hasm⟩ := marikoPatchMemory_ok h
  obtain ⟨list, hgen, hspec⟩ := mtcGenerateFreqTables_spec C hover hmax
  rw [hlist] at hgen
  cases hgen
  have hlen := hspec.length_le
  have hlimit : dvfsTableEntryLimit = 31 := rfl
  have hlo : mtcTableCountDefault ≤ newEmcList.length := hspec.default.length_le
  have hpos : ∀ freq ∈ newEmcList, 0 < freq := by
    intro freq hfreq
    obtain ⟨rest, rfl⟩ := hspec.default
    have hpair := hspec.pairwise
    rcases List.mem_cons.1 hfreq with rfl | hmem
    · decide
    · exact Nat.lt_of_le_of_lt (Nat.zero_le _) ((List.pairwise_cons.1 hpair).1 freq hmem)
  have hrates : (validTables image').map MtcTable.rateKhz = newEmcList :=
    memFreqMtcTable_rates hover hlo (hlen.trans (by decide)) hmtc
  have hrows : (dvbRows image').map DvbEntry.freq = newEmcList :=
    memFreqDvbTable_freqs hover (hlen.trans (by decide)) hpos image.dvb_free hdvb
  have huse : tablesInUse C dramId image' = validTables image' := if_neg (not_le.2 hover)
  have hlast : (validTables image').getLast?.map MtcTable.rateKhz = newEmcList.getLast? := by
    rw [← List.getLast?_map, hrates]
  obtain ⟨hwords, hword⟩ := memFreqMax_ok hover hclock
  rw [← hspec.getLast?_iff]
  constructor
  · intro hagree
    obtain ⟨clock, hmem⟩ := List.exists_mem_of_ne_nil _ hwords
    have hagreed := hagree.max clock hmem
    rwa [huse, hlast, hword clock hmem] at hagreed
  · intro htop
    refine ⟨?_, ?_, ?_⟩
    · rw [memMtcTableAsm_count (by omega) hasm, if_neg (not_le.2 hover), ← hrates, List.length_map]
    · intro table htable
      rw [huse] at htable
      rw [hrows]
      apply count_eq_one hspec.pairwise
      rw [← hrates]
      exact List.mem_map_of_mem htable
    · intro clock hmem
      rw [huse, hlast, hword clock hmem, htop]

/-- **the parts agree exactly under an overclock whose list fits** -/
theorem patchesAgree_iff (hsafe : safetyCheck C = .ok ())
    (h : marikoPatchMemory adjust C dramId image = some (.ok image')) :
    PatchesAgree C dramId image' ↔ emcClkOSLimit < C.marikoEmcMaxClock ∧ EmcListFits C := by
  rcases le_or_gt C.marikoEmcMaxClock emcClkOSLimit with hstock | hover
  · apply iff_of_false
    · intro hagree
      have hcount := hagree.count
      rw [count_cleared_without_overclock hstock h, if_pos hstock] at hcount
      exact absurd hcount (by decide)
    · intro hcond
      exact absurd hcond.1 (not_lt.2 hstock)
  · have hmax : C.marikoEmcMaxClock ≤ 3500000 := by
      rcases safetyCheck_marikoEmcMaxClock hsafe with hzero | hrange
      · omega
      · exact hrange.2
    rw [patchesAgree_overclock hover hmax h]
    exact ⟨fun hfits => ⟨hover, hfits⟩, fun hcond => hcond.2⟩

end Patch

/-! ## A stock image -/

/-- the tables of one DRAM kind, with `emc_wext` for their payload -/
def stockTables : List (MtcTable ℕ) := [⟨3, 204000, 0x16⟩, ⟨3, 1331200, 0x16⟩, ⟨3, 1600000, 0x16⟩]

def sampleImage : StockImage ℕ where
  mtc := (List.replicate mtcFullTableCount stockTables).flatten
  dvb := emcDvbTableDefault ++ List.replicate (dvfsTableEntryCount - emcDvbTableDefault.length) DvbEntry.zero
  emcMax := [1600000]
  tableAsm := ⟨true, mtcBrAsm, mtcMovAsm, mtcAdrpAsm, mtcAddAsm⟩
  mtc_length := by decide
  dvb_length := by decide
  dvb_free := by decide

/-- what `MemMtcTableAutoAdjust` writes to `emc_wext` -/
def adjustWext (_ : CustomizeTable) (rateKhz : ℕ) (_ : ℕ) : ℕ := if rateKhz ≥ 2533000 then 0x19 else 0x16

/-- the shipped 2133 MHz overclock agrees -/
theorem sampleImage_agrees :
    ∃ image' : MemImage ℕ, marikoPatchMemory adjustWext sampleCustomize 8 sampleImage = some (.ok image') ∧
      PatchesAgree sampleCustomize 8 image' := by
  refine ⟨_, rfl, ?_⟩
  have hpatch : marikoPatchMemory adjustWext sampleCustomize 8 sampleImage = some (.ok _) := rfl
  exact (patchesAgree_iff rfl hpatch).2 ⟨by decide, Or.inr (Or.inr (Or.inr (by decide)))⟩

/-- with a maximum of 1600 MHz the stock tables stay and the code counts none of them -/
theorem stock_count_written_as_zero :
    ¬ ∀ (C : CustomizeTable) (dramId : ℕ) (image : StockImage ℕ) (image' : MemImage ℕ), safetyCheck C = .ok () →
      marikoPatchMemory adjustWext C dramId image = some (.ok image') → PatchesAgree C dramId image' := by
  intro hclaim
  have h := hclaim { sampleCustomize with marikoEmcMaxClock := 1600000 } 8 sampleImage _ rfl rfl
  exact absurd h.count (by decide)

end RyazhaClk.Loader
