/-
A KIP write that fails. `SetKipData` stores the checksum of the file behind a failed write as behind a successful one, so
the next `GetKipData` takes the old file for its own and loads it over the settings that were not written.

- `keeps_iff`: every run from a state keeps the settings exactly when the file already has them, in memory and in the
  configuration file, and no migration is due.
- `failed_write_keeps_iff`: the same from the state in front of the failed write.
-/
import Mathlib.Tactic
import RyazhaClk.Lib.Transition
import RyazhaClk.Sysmodule.Kip

namespace RyazhaClk

open Layout Transition

/-- what may follow a failed write: reloads of the configuration, and the two KIP functions with any outcome of their
writes -/
inductive KipEvent where
  | refresh
  | boot
  | getKipData (w : IniWriter) (io : KipIo)
  | setKipData (w : IniWriter) (io : KipIo)

namespace KipState

def step (s : KipState) : KipEvent → Option KipState
  | .refresh => some s.refresh
  | .boot => some s.boot
  | .getKipData w io => some (s.getKipData w io)
  | .setKipData w io => some (s.setKipData w io)

/-- a setting of `s` has become the one in the table `old` -/
def Overwritten (old : List ℕ) (s t : KipState) : Prop :=
  ∃ kval ∈ kipKeys, t.values kval ≠ s.values kval ∧ t.values kval = fieldOf old kval

/-- no run from `s` overwrites a setting with the one in `old` -/
def KeepsSettings (old : List ℕ) (s : KipState) : Prop :=
  ∀ es, AllSteps step (fun u e => ∀ t, step u e = some t → ¬ Overwritten old u t) s es

/-- the file has the settings already, and `GetKipData` has none to migrate -/
structure Settled (bytes : List UInt8) (table : List ℕ) (values : HocClkConfigValue → ℕ) : Prop where
  inFile : ∀ kval ∈ kipKeys, values kval = fieldOf table kval
  migrated : Foreign values bytes → values .kipVersion % 2 ^ 32 < 240 → values .marikoGpuBootVolt = 800

variable {s t : KipState} {w : IniWriter} {io : KipIo} {bytes : List UInt8} {table : List ℕ} {e : KipEvent}
  {values : HocClkConfigValue → ℕ}

theorem Settled.congr (h : Settled bytes table values) {values' : HocClkConfigValue → ℕ}
    (hkeys : ∀ kval ∈ kipKeys, values' kval = values kval) (hcrc : values' .kipCrc32 = checksumFile bytes) :
    Settled bytes table values' := by
  constructor
  · intro kval hk
    rw [hkeys kval hk]
    exact h.inFile kval hk
  · intro hforeign
    exact absurd hcrc.symm hforeign.1

/-- with the file's checksum stored, nothing is foreign -/
theorem settled_update_iff : Settled bytes table (Function.update values .kipCrc32 (checksumFile bytes)) ↔
    ∀ kval ∈ kipKeys, values kval = fieldOf table kval := by
  have hkeys : ∀ kval ∈ kipKeys, Function.update values .kipCrc32 (checksumFile bytes) kval = values kval := by
    intro kval hk
    exact Function.update_of_ne (kipKeys_ne hk).1 _ _
  constructor
  · intro h kval hk
    rw [← hkeys kval hk]
    exact h.inFile kval hk
  · intro h
    constructor
    · intro kval hk
      rw [hkeys kval hk]
      exact h kval hk
    · intro hforeign
      have hself : Function.update values .kipCrc32 (checksumFile bytes) .kipCrc32 = checksumFile bytes := by simp
      exact absurd hself.symm hforeign.1

/-! ## Runs from a settled state -/

/-- the file is the accepted one that was not written, and neither copy of the settings differs from it -/
structure SettledState (bytes : List UInt8) (table : List ℕ) (s : KipState) : Prop where
  kip : s.kip = some bytes
  valid : ValidValues s.values
  memory : Settled bytes table s.values
  file : Settled bytes table s.stored

theorem SettledState.of_holds (hkip : t.kip = some bytes) (hv : ValidValues values) (hset : Settled bytes table values)
    (h : t.Holds values) : SettledState bytes table t :=
  ⟨hkip, h.memory ▸ hv, h.memory ▸ hset, h.file ▸ hset⟩

theorem SettledState.of_same (h : SettledState bytes table s) (hkip : t.kip = some bytes) (hst : SameConfig s t) :
    SettledState bytes table t :=
  ⟨hkip, hst.values_eq ▸ h.valid, hst.values_eq ▸ h.memory, hst.stored_eq ▸ h.file⟩

theorem SettledState.of_outcome (h : SettledState bytes table s) (hkip : t.kip = some bytes) (hv : ValidValues values)
    (hset : Settled bytes table values) (hout : SaveOutcome w values s t) : SettledState bytes table t := by
  rcases hout.cases with hheld | hsame
  · exact .of_holds hkip hv hset hheld
  · exact h.of_same hkip hsame

/-- a write of settled settings leaves the file alone, whatever becomes of it -/
theorem SettledState.setKipData (h : SettledState bytes table s) (hread : custReadTable bytes = some table)
    (hgate : kipGate table = .accepted) (w : IniWriter) (io : KipIo) : SettledState bytes table (s.setKipData w io) := by
  obtain ⟨hkip, hout⟩ := setKipData_accepted h.kip hread hgate h.valid w io
  rw [storeFields_same (lt_of_custReadTable hread) h.memory.inFile, custWriteTable_same hread] at hkip hout
  exact h.of_outcome hkip (h.valid.update_crc bytes) (settled_update_iff.2 h.memory.inFile) hout

theorem SettledState.getKipData (h : SettledState bytes table s) (hread : custReadTable bytes = some table)
    (hgate : kipGate table = .accepted) (w : IniWriter) (io : KipIo) : SettledState bytes table (s.getKipData w io) := by
  by_cases hforeign : Foreign s.values bytes
  · obtain ⟨m, hmkip, hmsave, htkip, hsame⟩ := getKipData_foreign h.kip hread hforeign h.valid w io
    -- the migration finds its value in place
    have hlist : migratedValues s.values (read kipLayout table (.kipVersion, 0)) = s.values := by
      unfold migratedValues
      split_ifs with hmig
      · rw [← h.memory.migrated hforeign hmig.1, Function.update_eq_self]
      · rfl
    rw [hlist] at hmsave
    have hm := h.of_outcome hmkip h.valid h.memory hmsave
    have ht := hm.setKipData hread hgate w io
    exact ht.of_same (htkip.trans ht.kip) hsame
  · obtain ⟨hkip, hout⟩ := getKipData_loads h.kip hread hforeign hgate h.valid w io
    refine h.of_outcome hkip (h.valid.loadedValues bytes (lt_of_custReadTable hread)) ?_ hout
    apply h.memory.congr
    · intro kval hk
      rw [loadedValues_of_mem hk, h.memory.inFile kval hk]
    · exact loadedValues_kipCrc32 _ _ _

theorem SettledState.step (h : SettledState bytes table s) (hread : custReadTable bytes = some table)
    (hgate : kipGate table = .accepted) (hstep : step s e = some t) : SettledState bytes table t := by
  cases e with
  | refresh =>
    obtain rfl := Option.some.inj hstep
    rcases refresh_values s with hvalues | hvalues
    · exact ⟨h.kip, hvalues ▸ h.valid, hvalues ▸ h.memory, h.file⟩
    · exact ⟨h.kip, hvalues ▸ validValues_stored s, hvalues ▸ h.file, h.file⟩
  | boot =>
    obtain rfl := Option.some.inj hstep
    exact ⟨h.kip, validValues_stored s, h.file, h.file⟩
  | getKipData w io =>
    obtain rfl := Option.some.inj hstep
    exact h.getKipData hread hgate w io
  | setKipData w io =>
    obtain rfl := Option.some.inj hstep
    exact h.setKipData hread hgate w io

/-- every step leads from settled settings to the same ones -/
theorem SettledState.keepsSettings (h : SettledState bytes table s) (hread : custReadTable bytes = some table)
    (hgate : kipGate table = .accepted) : KeepsSettings table s := by
  intro es
  apply AllSteps.of_inv (SettledState bytes table) (fun u e t hu _ ht => hu.step hread hgate ht) ?_ allSteps_true h
  rintro u e hu - t ht ⟨kval, hk, hne, -⟩
  exact hne (((hu.step hread hgate ht).memory.inFile kval hk).trans (hu.memory.inFile kval hk).symm)

/-! ## Runs that lose a setting -/

/-- a write that cannot open the file -/
def brokenIo : KipIo := ⟨false, 0⟩

theorem KeepsSettings.tail (h : KeepsSettings table s) (hstep : s.step e = some t) : KeepsSettings table t := by
  intro es
  exact (h (e :: es)).2 t hstep

/-- where the stored checksum is the file's, `GetKipData` loads the file's settings -/
theorem KeepsSettings.inFile (h : KeepsSettings table s) (hkip : s.kip = some bytes)
    (hread : custReadTable bytes = some table) (hgate : kipGate table = .accepted) (hv : ValidValues s.values)
    (hcrc : s.values .kipCrc32 = checksumFile bytes) : ∀ kval ∈ kipKeys, s.values kval = fieldOf table kval := by
  intro kval hk
  by_contra hne
  have hknown : ¬ Foreign s.values bytes := fun hf => hf.1 hcrc.symm
  have hloaded := (getKipData_loads hkip hread hknown hgate hv .appending brokenIo).2.of_some rfl
  have hfield : (s.getKipData .appending brokenIo).values kval = fieldOf table kval := by
    rw [hloaded.memory, loadedValues_of_mem hk]
  apply (h [.getKipData .appending brokenIo]).1 _ rfl
  refine ⟨kval, hk, ?_, hfield⟩
  rw [hfield]
  exact Ne.symm hne

/-- settings that no run loses are in the file: a failing write stores the checksum of the file as it is -/
theorem KeepsSettings.inTable (h : KeepsSettings table s) (hkip : s.kip = some bytes)
    (hread : custReadTable bytes = some table) (hgate : kipGate table = .accepted) (hv : ValidValues s.values) :
    ∀ kval ∈ kipKeys, s.values kval = fieldOf table kval := by
  obtain ⟨htkip, htsave⟩ := setKipData_accepted hkip hread hgate hv .appending brokenIo
  have hheld := htsave.of_some rfl
  have hbroken : (custWriteTable brokenIo bytes (storeFields s.values table)).2 = bytes := rfl
  rw [hbroken] at htkip hheld
  have ht : KeepsSettings table (s.setKipData .appending brokenIo) := h.tail (e := .setKipData .appending brokenIo) rfl
  have hfile := ht.inFile htkip hread hgate (by rw [hheld.memory]; exact hv.update_crc bytes)
    (by rw [hheld.memory, Function.update_self])
  rw [hheld.memory] at hfile
  intro kval hk
  rw [← hfile kval hk, Function.update_of_ne (kipKeys_ne hk).1]

/-- settings that no run loses are settled in memory: the migration comes behind the failing write of a boot, and the next
boot loads the old voltage over it -/
theorem KeepsSettings.settled (h : KeepsSettings table s) (hkip : s.kip = some bytes)
    (hread : custReadTable bytes = some table) (hgate : kipGate table = .accepted) (hv : ValidValues s.values) :
    Settled bytes table s.values := by
  have hin := h.inTable hkip hread hgate hv
  refine ⟨hin, ?_⟩
  intro hforeign hprev
  obtain ⟨m, hmkip, hmsave, htkip, hsame⟩ := getKipData_foreign hkip hread hforeign hv .appending brokenIo
  have hm := (hmsave.of_some rfl).memory
  have hmv : ValidValues m.values := by
    rw [hm]
    exact hv.migratedValues _
  obtain ⟨hkip', hsave'⟩ := setKipData_accepted hmkip hread hgate hmv .appending brokenIo
  have hheld := (hsave'.of_some rfl).congr hsame
  have hbroken : (custWriteTable brokenIo bytes (storeFields m.values table)).2 = bytes := rfl
  rw [hbroken] at hkip' hheld
  have ht : KeepsSettings table (s.getKipData .appending brokenIo) :=
    h.tail (e := .getKipData .appending brokenIo) rfl
  have hfile := ht.inFile (htkip.trans hkip') hread hgate (by rw [hheld.memory]; exact hmv.update_crc bytes)
    (by rw [hheld.memory, Function.update_self])
  have hkey : HocClkConfigValue.marikoGpuBootVolt ∈ kipKeys := by decide +kernel
  have hver := (kipGate_eq_accepted_iff.1 hgate).2
  have h800 := hfile .marikoGpuBootVolt hkey
  rw [hheld.memory, hm, migratedValues, if_pos ⟨hprev, by rw [hver]; decide⟩] at h800
  rw [hin .marikoGpuBootVolt hkey, ← h800]
  simp

/-- **What keeps the settings.** From a state whose KIP file passes the gate, no run of reloads, loads and writes
overwrites a setting exactly when the settings in memory and those in the configuration file are settled. -/
theorem keeps_iff (hkip : s.kip = some bytes) (hread : custReadTable bytes = some table)
    (hgate : kipGate table = .accepted) (hv : ValidValues s.values) :
    KeepsSettings table s ↔ Settled bytes table s.values ∧ Settled bytes table s.stored := by
  constructor
  · intro h
    have hboot : KeepsSettings table s.boot := h.tail (e := .boot) rfl
    exact ⟨h.settled hkip hread hgate hv, hboot.settled hkip hread hgate (validValues_stored s)⟩
  · rintro ⟨hmemory, hfile⟩
    exact SettledState.keepsSettings ⟨hkip, hv, hmemory, hfile⟩ hread hgate

/-! ## The failed write -/

/-- nothing is pending in front of `SetKipData`: the file has the settings in memory, and, where the configuration is not
saved either, both copies are settled -/
def NothingPending (w : IniWriter) (s : KipState) (bytes : List UInt8) (table : List ℕ) : Prop :=
  if (w.putsection (configValueKeys (Function.update s.values .kipCrc32 (checksumFile bytes))) s.ini).isSome then
    ∀ kval ∈ kipKeys, s.values kval = fieldOf table kval
  else Settled bytes table s.values ∧ Settled bytes table s.stored

/-- **A failed write loses every setting it was to write.** For every configuration and KIP file that passes the gate, and
every write that leaves the file as it was: the settings survive all runs behind `SetKipData` exactly when none of them
was pending. -/
theorem failed_write_keeps_iff (hkip : s.kip = some bytes) (hread : custReadTable bytes = some table)
    (hgate : kipGate table = .accepted) (hv : ValidValues s.values)
    (hsame : (custWriteTable io bytes (storeFields s.values table)).2 = bytes) (w : IniWriter) :
    KeepsSettings table (s.setKipData w io) ↔ NothingPending w s bytes table := by
  obtain ⟨htkip, htsave⟩ := setKipData_accepted hkip hread hgate hv w io
  rw [hsame] at htkip htsave
  unfold SaveOutcome at htsave
  unfold NothingPending
  split_ifs at htsave ⊢ with hput
  · have hvt : ValidValues (s.setKipData w io).values := by
      rw [htsave.memory]
      exact hv.update_crc bytes
    rw [keeps_iff htkip hread hgate hvt, htsave.memory, htsave.file, settled_update_iff, and_self]
  · have hvt : ValidValues (s.setKipData w io).values := by
      rw [htsave.values_eq]
      exact hv
    rw [keeps_iff htkip hread hgate hvt, htsave.values_eq, htsave.stored_eq]

/-! ## Witnesses -/

/-- a system whose boost clock is not in its KIP file -/
def pendingState : KipState := sampleKipState (sampleKip 4 240) [("mariko_cpu_boost_clock", "1785000")]

/-- the table of a KIP file its settings have been written to -/
def tunedTable : List ℕ := storeFields pendingState.values (sampleTable 4 240)

/-- a system whose boost clock is in its KIP file too -/
def tunedState : KipState := sampleKipState (WordBytes.ofWords tunedTable) [("mariko_cpu_boost_clock", "1785000")]

/-- settings that are all in the file, one of them not a default, survive a write that stores nothing -/
theorem tuned_failed_write_keeps : tunedState.values .marikoCpuBoostClock = 1785000 ∧
    KeepsSettings tunedTable (tunedState.setKipData .appending brokenIo) := by
  have hread : custReadTable (WordBytes.ofWords tunedTable) = some tunedTable := by decide +kernel
  refine ⟨by decide +kernel, (failed_write_keeps_iff rfl hread (by decide +kernel) (sampleKipState_valid _ _) rfl
    .appending).2 ?_⟩
  rw [NothingPending, if_pos (IniWriter.appending_succeeds _ _)]
  decide +kernel

/-- a write that opens the file and stores nothing -/
def fullIo : KipIo := ⟨true, 0⟩

/-- **The boost clock that was not written is lost.** The write stores nothing, the checksum of the old file is stored, and
the next boot loads the old clock. -/
theorem failed_write_loses :
    custWriteTable fullIo (sampleKip 4 240) (storeFields pendingState.values (sampleTable 4 240)) =
      (false, sampleKip 4 240) ∧
    pendingState.values .marikoCpuBoostClock = 1785000 ∧
    ((pendingState.setKipData .appending fullIo).boot.getKipData .appending fullIo).values .marikoCpuBoostClock = 0 ∧
    ¬ KeepsSettings (sampleTable 4 240) (pendingState.setKipData .appending fullIo) := by
  obtain ⟨hzero, hpending⟩ : ((pendingState.setKipData .appending fullIo).boot.getKipData .appending fullIo).values
        .marikoCpuBoostClock = 0 ∧
      (pendingState.setKipData .appending fullIo).boot.values .marikoCpuBoostClock ≠ 0 := by decide +kernel
  have hold : fieldOf (sampleTable 4 240) .marikoCpuBoostClock = 0 := by decide +kernel
  refine ⟨by decide +kernel, by decide, hzero, ?_⟩
  intro h
  have hlost := ((h [.boot, .getKipData .appending fullIo]).2 _ rfl).1 _ rfl
  exact hlost ⟨.marikoCpuBoostClock, by decide, fun heq => hpending (heq.symm.trans hzero), hzero.trans hold.symm⟩

end KipState

end RyazhaClk
