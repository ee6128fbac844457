/-
The sysmodule's declaration of the KIP table against the loader's (`customize.hpp`), which is built into the KIP file. The
loader's has two clocks, two burst latencies and the speedo more, no boot voltage, and other names for some fields.

- `loader_kip_never_agrees`: `SetKipData` refuses every KIP that carries the loader's revision and version.
- `loader_reads_iff`: behind the gate, the loader would read three of the fields as they were stored.
- `custWriteTable_behind`: a write leaves everything behind the loader's header alone.
-/
import Mathlib.Tactic
import RyazhaClk.Sysmodule.Kip

namespace RyazhaClk

open Layout WordBytes

/-! ## The loader's declaration -/

/-- the loader's `CustomizeTable`, up to the DVFS tables -/
def loaderLayout : List (CustField × ℕ) :=
  [(.cust, 1), (.custRev, 1), (.kipVersion, 1), (.hpMode, 1), (.commonEmcMemVolt, 1), (.eristaEmcMaxClock, 1),
   (.eristaEmcMaxClock1, 1), (.eristaEmcMaxClock2, 1), (.stepMode, 1), (.marikoEmcMaxClock, 1), (.marikoEmcVddqVolt, 1),
   (.emcDvbShift, 1), (.marikoSocVmax, 1), (.t1_tRCD, 1), (.t2_tRP, 1), (.t3_tRAS, 1), (.t4_tRRD, 1), (.t5_tRFC, 1),
   (.t6_tRTW, 1), (.t7_tWTR, 1), (.t8_tREFI, 1), (.t2_tRP_cap, 1), (.timingEmcTbreak, 1), (.low_t6_tRTW, 1),
   (.low_t7_tWTR, 1), (.readLatency, 4), (.writeLatency, 4), (.mem_burst_read_latency, 1), (.mem_burst_write_latency, 1),
   (.eristaCpuUV, 1), (.eristaCpuVmin, 1), (.eristaCpuMaxVolt, 1), (.eristaCpuUnlock, 1), (.marikoCpuUVLow, 1),
   (.marikoCpuUVHigh, 1), (.tableConf, 1), (.marikoCpuLowVmin, 1), (.marikoCpuHighVmin, 1), (.marikoCpuMaxVolt, 1),
   (.marikoCpuMaxClock, 1), (.eristaCpuBoostClock, 1), (.marikoCpuBoostClock, 1), (.eristaGpuUV, 1),
   (.eristaGpuVmin, 1), (.marikoGpuUV, 1), (.marikoGpuVmin, 1), (.marikoGpuVmax, 1), (.commonGpuVoltOffset, 1),
   (.gpuSpeedo, 1), (.eristaGpuVoltArray, 27), (.marikoGpuVoltArray, 24), (.fineTune_t6_tRTW, 1),
   (.fineTune_t7_tWTR, 1), (.reserved, 60)]

/-- the offset of its first DVFS table -/
def loaderHeaderBytes : ℕ := 4 * size loaderLayout

/-- the revision and version the loader is built with -/
def LOADER_CUST_REV : ℕ := 3

def LOADER_KIP_VERSION : ℕ := 231

/-- the header at an offset of a file, as the loader has it -/
def loaderWords (bytes : List UInt8) (off : ℕ) : List ℕ := toWords ((bytes.drop off).take loaderHeaderBytes)

/-- a KIP file that carries the loader's table -/
structure LoaderKip where
  bytes : List UInt8
  off : ℕ
  found : custFindOffset bytes = some off
  fits : off + loaderHeaderBytes ≤ bytes.length
  custRev : read loaderLayout (loaderWords bytes off) (.custRev, 0) = LOADER_CUST_REV
  kipVersion : read loaderLayout (loaderWords bytes off) (.kipVersion, 0) = LOADER_KIP_VERSION

/-- the declarations agree on a KIP file: `SetKipData` takes it, the loader reads every shared field as it was stored, and
the DVFS tables are untouched -/
structure CodecAgrees (k : LoaderKip) (s : KipState) (w : IniWriter) (io : KipIo) : Prop where
  accepted : ∃ table, custReadTable k.bytes = some table ∧ kipGate table = .accepted
  shared : ∀ bytes', (s.setKipData w io).kip = some bytes' → ∀ r ∈ kipStores, (slot loaderLayout r.1).isSome →
    read loaderLayout (loaderWords bytes' k.off) r.1 = s.values r.2 % 2 ^ 32
  behind : ∀ bytes', (s.setKipData w io).kip = some bytes' →
    bytes'.drop (k.off + loaderHeaderBytes) = k.bytes.drop (k.off + loaderHeaderBytes)

/-! ## The gate -/

/-- the sysmodule's table is in front of the loader's end -/
theorem kipTableBytes_le : kipTableBytes ≤ loaderHeaderBytes := by decide

theorem toWords_take {n : ℕ} {bs : List UInt8} (h : 4 * n ≤ bs.length) : toWords (bs.take (4 * n)) = (toWords bs).take n := by
  induction n generalizing bs with
  | zero => rfl
  | succ n ih =>
    match bs, h with
    | a :: b :: c :: d :: bs, h =>
      have hlen : 4 * n ≤ bs.length := by
        simp only [List.length_cons] at h
        omega
      have htake : (a :: b :: c :: d :: bs).take (4 * (n + 1)) = a :: b :: c :: d :: bs.take (4 * n) := rfl
      rw [htake, toWords, toWords, ih hlen, List.take_succ_cons]

/-- the sysmodule reads the front of what the loader has -/
theorem custReadTable_loader (k : LoaderKip) :
    custReadTable k.bytes = some ((loaderWords k.bytes k.off).take (size kipLayout)) := by
  have hfits := k.fits
  have hle := kipTableBytes_le
  refine custReadTable_eq_some_iff.2 ⟨k.off, k.found, by omega, ?_⟩
  have hlen : 4 * size kipLayout ≤ ((k.bytes.drop k.off).take loaderHeaderBytes).length := by
    rw [List.length_take, List.length_drop]
    unfold kipTableBytes at hle
    omega
  rw [loaderWords, ← toWords_take hlen, List.take_take]
  exact congrArg (fun n => toWords ((k.bytes.drop k.off).take n)) (min_eq_left hle).symm

/-- the revision is in the same place on both sides -/
theorem read_custRev_loader (k : LoaderKip) :
    read kipLayout ((loaderWords k.bytes k.off).take (size kipLayout)) (.custRev, 0) = LOADER_CUST_REV := by
  have hrev := k.custRev
  have hkip : slot kipLayout (.custRev, 0) = some 1 := by decide
  have hloader : slot loaderLayout (.custRev, 0) = some 1 := by decide
  rw [read_eq hloader] at hrev
  rw [read_eq hkip, List.getElem?_take_of_lt (by rw [size_kipLayout]; decide)]
  exact hrev

/-- **The sysmodule refuses every KIP of this repository**: its revision and version are older than the ones the sysmodule
is built with, for every configuration and whatever becomes of the writes. -/
theorem loader_kip_never_agrees (k : LoaderKip) (s : KipState) (w : IniWriter) (io : KipIo) : ¬ CodecAgrees k s w io := by
  intro h
  obtain ⟨table, hread, hgate⟩ := h.accepted
  obtain rfl := Option.some.inj ((custReadTable_loader k).symm.trans hread)
  have hrev := (KipState.kipGate_eq_accepted_iff.1 hgate).1
  rw [read_custRev_loader] at hrev
  exact absurd hrev (by decide)

/-! ## The fields -/

/-- the stored fields the loader has in the same place -/
theorem slot_agrees : ∀ r ∈ kipStores, slot loaderLayout r.1 = slot kipLayout r.1 ↔
    r.1.1 = .hpMode ∨ r.1.1 = .commonEmcMemVolt ∨ r.1.1 = .eristaEmcMaxClock := by decide +kernel

/-- a key shows in no other place than its own -/
theorem storeFields_congr {fi : CustField × ℕ} {kval : HocClkConfigValue} (h : (fi, kval) ∈ kipStores) {k l : ℕ}
    (hk : slot kipLayout fi = some k) (hl : l ≠ k) {values values' : HocClkConfigValue → ℕ}
    (hvalues : ∀ kval', kval' ≠ kval → values kval' = values' kval') (table : List ℕ) :
    (storeFields values table)[l]? = (storeFields values' table)[l]? := by
  have hws : ∀ r ∈ kipStores, r.1 ≠ fi → values r.2 % 2 ^ 32 = values' r.2 % 2 ^ 32 := by
    intro r hr hne
    have hrk : r.2 ≠ kval := fun hrk => hne (kipStores_key_injective hr h hrk)
    rw [hvalues r.2 hrk]
  unfold storeFields
  exact getElem?_store_congr hk hl hws rfl rfl

/-- the loader sees nothing of a key whose slot it has in another place, or not at all -/
theorem read_loader_congr {fi : CustField × ℕ} {kval : HocClkConfigValue} (h : (fi, kval) ∈ kipStores)
    (hne : slot loaderLayout fi ≠ slot kipLayout fi) {values values' : HocClkConfigValue → ℕ}
    (hvalues : ∀ kval', kval' ≠ kval → values kval' = values' kval') (table : List ℕ) :
    read loaderLayout (storeFields values table) fi = read loaderLayout (storeFields values' table) fi := by
  obtain ⟨k, hk⟩ := exists_place h
  unfold Layout.read
  cases hl : slot loaderLayout fi with
  | none => rw [Option.bind_none, Option.bind_none]
  | some l =>
    have hlk : l ≠ k := by
      rintro rfl
      exact hne (hl.trans hk.symm)
    rw [Option.bind_some, Option.bind_some, storeFields_congr h hk hlk hvalues table]

/-- **Behind the gate the layouts part after the sixth word.** Whatever the settings, the loader reads a field as
`SetKipData` stored it exactly for the three fields in front of the loader's further clocks. -/
theorem loader_reads_iff {table : List ℕ} (hlen : table.length = size kipLayout) {fi : CustField × ℕ}
    {kval : HocClkConfigValue} (h : (fi, kval) ∈ kipStores) :
    (∀ values, read loaderLayout (storeFields values table) fi = values kval % 2 ^ 32) ↔
      fi.1 = .hpMode ∨ fi.1 = .commonEmcMemVolt ∨ fi.1 = .eristaEmcMaxClock := by
  have hkey : kval ∈ kipKeys := List.mem_map_of_mem h
  rw [← slot_agrees (fi, kval) h]
  constructor
  · intro hall
    by_contra hne
    -- two settings of the key look alike to the loader
    have hvalues : ∀ kval', kval' ≠ kval → (fun _ => 0 : HocClkConfigValue → ℕ) kval' =
        Function.update (fun _ => 0) kval 1 kval' := by
      intro kval' hk
      rw [Function.update_of_ne hk]
    have hsame := read_loader_congr h hne hvalues table
    rw [hall, hall, Function.update_self] at hsame
    exact absurd hsame (by decide)
  · intro hslot values
    have hfield : read kipLayout (storeFields values table) fi = values kval % 2 ^ 32 := by
      rw [← fieldOf_storeFields hlen values hkey, fieldOf, loadFields_of_mem (kipStores_loads (fi, kval) h)]
    rw [← hfield]
    unfold Layout.read
    rw [hslot]

/-! ## The bytes behind -/

/-- **The DVFS tables are untouched**, whatever becomes of the write. -/
theorem custWriteTable_behind (io : KipIo) {bytes : List UInt8} {off : ℕ} (hoff : custFindOffset bytes = some off)
    {t : List ℕ} (hlen : t.length = size kipLayout) :
    (custWriteTable io bytes t).2.drop (off + loaderHeaderBytes) = bytes.drop (off + loaderHeaderBytes) := by
  have hle := kipTableBytes_le
  have hwords : (ofWords t).length = kipTableBytes := by
    rw [length_ofWords, hlen, kipTableBytes]
  unfold custWriteTable
  rw [hoff]
  dsimp only
  split_ifs with hopen hsize
  · rfl
  · rfl
  · have hn : min io.stored kipTableBytes ≤ kipTableBytes := min_le_right _ _
    have hfront : (bytes.take off ++ (ofWords t).take (min io.stored kipTableBytes)).length =
        off + min io.stored kipTableBytes := by
      rw [List.length_append, List.length_take, List.length_take, hwords]
      omega
    rw [List.drop_append, List.drop_of_length_le (by omega), List.nil_append, hfront, List.drop_drop]
    exact congrArg (bytes.drop ·) (by omega)

/-! ## Witness -/

/-- a KIP file that is the loader's header, every setting 0 -/
def sampleLoaderKip : LoaderKip where
  bytes := ofWords ([0x54535543, LOADER_CUST_REV, LOADER_KIP_VERSION] ++ List.replicate 165 0)
  off := 0
  found := custFindOffset_eq_some_iff.2 ⟨rfl, fun j hj => absurd hj (Nat.not_lt_zero j)⟩
  fits := by decide +kernel
  custRev := by decide +kernel
  kipVersion := by decide +kernel

/-- the gate on that file: its revision is 3 where the sysmodule has 4 -/
theorem sample_loader_kip_refused : kipGate ((loaderWords sampleLoaderKip.bytes 0).take (size kipLayout)) = .outdatedKip ∧
    ¬ CodecAgrees sampleLoaderKip (sampleKipState sampleLoaderKip.bytes []) .appending ⟨true, 656⟩ := by
  have hgate : kipGate ((loaderWords sampleLoaderKip.bytes 0).take (size kipLayout)) = .outdatedKip := by decide +kernel
  refine ⟨hgate, ?_⟩
  intro h
  obtain ⟨table, hread, haccepted⟩ := h.accepted
  obtain rfl := Option.some.inj ((custReadTable_loader sampleLoaderKip).symm.trans hread)
  exact absurd (hgate.symm.trans haccepted) (by decide)

end RyazhaClk
