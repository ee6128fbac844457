/-
A KIP update. A boot that finds another KIP file than the one it knows writes the user's settings into it; the next boot
loads them back.

- `update_kept`: behind both boots every setting is the one before the update, but for the migrated boot voltage.
- `survivesUpdate_iff`: a file that fails the gate changes nothing, except by the migration, which comes before the gate.
-/
import Mathlib.Tactic
import RyazhaClk.Sysmodule.Kip

namespace RyazhaClk

open Layout

/-- a write that opens the file and stores the whole table -/
def KipIo.Complete (io : KipIo) : Prop := io.opens = true ∧ kipTableBytes ≤ io.stored

theorem KipIo.Complete.write_ok {io : KipIo} {bytes : List UInt8} {table : List ℕ} (hio : io.Complete)
    (hread : custReadTable bytes = some table) (t : List ℕ) : (custWriteTable io bytes t).1 = true := by
  obtain ⟨off, hoff, hsize, -⟩ := custReadTable_eq_some_iff.1 hread
  unfold custWriteTable
  rw [hoff, hio.1]
  dsimp only
  rw [if_neg (by decide), if_neg (by omega), min_eq_right hio.2]
  simp

namespace KipState

variable {s : KipState} {bytes : List UInt8} {table : List ℕ} {w w' : IniWriter} {io io' : KipIo}

/-- what an update is to leave: `w` and `io` are the writers of this boot, `w'` and `io'` those of the next -/
structure SurvivesUpdate (s : KipState) (bytes : List UInt8) (table : List ℕ) (w w' : IniWriter) (io io' : KipIo) :
    Prop where
  kept : kipGate table = .accepted → Foreign s.values bytes → ∀ kval ∈ kipKeys,
    ((s.getKipData w io).boot.getKipData w' io').values kval =
      if kval = .marikoGpuBootVolt ∧ s.values .kipVersion % 2 ^ 32 < 240 then 800 else s.values kval
  refused : kipGate table ≠ .accepted → ∀ kval, (s.getKipData w io).values kval = s.values kval ∧
    ((s.getKipData w io).stored kval = s.stored kval ∨ (s.getKipData w io).stored kval = s.values kval)

/-- the migration that a file outside the gate sets off: it saves a boot voltage of its own -/
def MigratesOutsideGate (values : HocClkConfigValue → ℕ) (bytes : List UInt8) (table : List ℕ) : Prop :=
  kipGate table ≠ .accepted ∧ Foreign values bytes ∧ values .kipVersion % 2 ^ 32 < 240 ∧
    240 ≤ read kipLayout table (.kipVersion, 0) ∧ values .marikoGpuBootVolt ≠ 800

theorem migratedValues_accepted (hgate : kipGate table = .accepted) (values : HocClkConfigValue → ℕ)
    (kval : HocClkConfigValue) : migratedValues values (read kipLayout table (.kipVersion, 0)) kval =
      if kval = .marikoGpuBootVolt ∧ values .kipVersion % 2 ^ 32 < 240 then 800 else values kval := by
  have hver := (kipGate_eq_accepted_iff.1 hgate).2
  unfold migratedValues
  rw [hver]
  by_cases hprev : values .kipVersion % 2 ^ 32 < 240
  · rw [if_pos ⟨hprev, by decide⟩]
    by_cases hk : kval = .marikoGpuBootVolt
    · subst hk
      rw [Function.update_self, if_pos ⟨rfl, hprev⟩]
    · rw [Function.update_of_ne hk, if_neg (fun h => hk h.1)]
  · rw [if_neg (fun h => hprev h.1), if_neg (fun h => hprev h.2)]

/-- **The settings survive.** This boot writes the migrated settings into the file and stores its new checksum, so the
next one knows the file and loads them. -/
theorem update_kept (hkip : s.kip = some bytes) (hread : custReadTable bytes = some table)
    (hgate : kipGate table = .accepted) (hforeign : Foreign s.values bytes) (hv : ValidValues s.values)
    (h32 : ∀ kval ∈ kipKeys, s.values kval < 2 ^ 32) (hw : w.Succeeds) (hio : io.Complete) (w' : IniWriter)
    (io' : KipIo) {kval : HocClkConfigValue} (hk : kval ∈ kipKeys) :
    ((s.getKipData w io).boot.getKipData w' io').values kval =
      if kval = .marikoGpuBootVolt ∧ s.values .kipVersion % 2 ^ 32 < 240 then 800 else s.values kval := by
  obtain ⟨m, hmkip, hmsave, hskip, hsame⟩ := getKipData_foreign hkip hread hforeign hv w io
  have hmvalues := (hmsave.of_some (hw _ _)).memory
  have hmvalid : ValidValues m.values := by
    rw [hmvalues]
    exact hv.migratedValues _
  obtain ⟨htkip, htsave⟩ := setKipData_accepted hmkip hread hgate hmvalid w io
  -- the boot in between finds the list with the checksum of the written file
  have hheld := (htsave.of_some (hw _ _)).congr hsame
  set bytes' := (custWriteTable io bytes (storeFields m.values table)).2 with hbytes'
  set u := (s.getKipData w io).boot with hu
  have hukip : u.kip = some bytes' := hskip.trans htkip
  have huvalues : u.values = Function.update m.values .kipCrc32 (checksumFile bytes') := hheld.file
  have huread : custReadTable bytes' = some (storeFields m.values table) :=
    custReadTable_storeFields hread m.values (hio.write_ok hread _)
  have hknown : ¬ Foreign u.values bytes' := by
    intro hf
    apply hf.1
    rw [huvalues, Function.update_self]
  have huvalid : ValidValues u.values := by
    rw [huvalues]
    exact hmvalid.update_crc bytes'
  have hgate' : kipGate (storeFields m.values table) = .accepted := (kipGate_storeFields _ _).trans hgate
  have hm32 : m.values kval < 2 ^ 32 := by
    rw [hmvalues, migratedValues_accepted hgate]
    split_ifs
    · decide
    · exact h32 kval hk
  have hfinal : (u.getKipData w' io').values kval = m.values kval := by
    rcases (getKipData_loads hukip huread hknown hgate' huvalid w' io').2.cases with hloaded | hkept
    · rw [hloaded.memory, loadedValues_of_mem hk, fieldOf_storeFields (length_of_custReadTable hread) _ hk,
        Nat.mod_eq_of_lt hm32]
    · rw [hkept.values_eq, huvalues, Function.update_of_ne (kipKeys_ne hk).1]
  rw [hfinal, hmvalues, migratedValues_accepted hgate]

/-- outside the gate memory is left as it was exactly when no migration comes first -/
theorem refused_iff (hkip : s.kip = some bytes) (hread : custReadTable bytes = some table)
    (hgate : kipGate table ≠ .accepted) (hv : ValidValues s.values) (hw : w.Succeeds) (io : KipIo) :
    (∀ kval, (s.getKipData w io).values kval = s.values kval ∧
      ((s.getKipData w io).stored kval = s.stored kval ∨ (s.getKipData w io).stored kval = s.values kval)) ↔
    ¬ MigratesOutsideGate s.values bytes table := by
  by_cases hforeign : Foreign s.values bytes
  · obtain ⟨m, hmkip, hmsave, -, hsame⟩ := getKipData_foreign hkip hread hforeign hv w io
    have hrefuse : ∀ b t, m.kip = some b → custReadTable b = some t → kipGate t ≠ .accepted := by
      intro b t hb ht
      obtain rfl := Option.some.inj (hmkip.symm.trans hb)
      obtain rfl := Option.some.inj (hread.symm.trans ht)
      exact hgate
    have hheld := (hmsave.of_some (hw _ _)).congr ((setKipData_refused hrefuse w io).2.trans hsame)
    rw [hheld.memory, hheld.file]
    unfold migratedValues MigratesOutsideGate
    by_cases hmig : s.values .kipVersion % 2 ^ 32 < 240 ∧ 240 ≤ read kipLayout table (.kipVersion, 0)
    · rw [if_pos hmig]
      constructor
      · rintro hall ⟨-, -, -, -, hne⟩
        exact hne ((Function.update_self (f := s.values) _ _).symm.trans (hall .marikoGpuBootVolt).1).symm
      · intro hno
        have h800 : s.values .marikoGpuBootVolt = 800 := by
          by_contra hne
          exact hno ⟨hgate, hforeign, hmig.1, hmig.2, hne⟩
        rw [← h800, Function.update_eq_self]
        exact fun kval => ⟨rfl, .inr rfl⟩
    · rw [if_neg hmig]
      constructor
      · rintro - ⟨-, -, hprev, hver, -⟩
        exact hmig ⟨hprev, hver⟩
      · intro _ kval
        exact ⟨rfl, .inr rfl⟩
  · obtain ⟨-, hsame⟩ := getKipData_refused hkip hread hforeign hgate w io
    constructor
    · rintro - ⟨-, hf, -⟩
      exact hforeign hf
    · intro _ kval
      rw [hsame.values_eq, hsame.stored_eq]
      exact ⟨rfl, .inl rfl⟩

/-- **A KIP update keeps the settings, unless a file outside the gate migrates them.** For every loaded configuration
behind its first load and every KIP file, with writes that succeed. -/
theorem survivesUpdate_iff (hkip : s.kip = some bytes) (hread : custReadTable bytes = some table)
    (hv : ValidValues s.values) (h32 : ∀ kval ∈ kipKeys, s.values kval < 2 ^ 32) (hw : w.Succeeds) (hio : io.Complete)
    (w' : IniWriter) (io' : KipIo) :
    SurvivesUpdate s bytes table w w' io io' ↔ ¬ MigratesOutsideGate s.values bytes table := by
  constructor
  · intro h hmig
    exact (refused_iff hkip hread hmig.1 hv hw io).1 (h.refused hmig.1) hmig
  · intro hno
    constructor
    · intro hgate hforeign kval hk
      exact update_kept hkip hread hgate hforeign hv h32 hw hio w' io' hk
    · intro hgate
      exact (refused_iff hkip hread hgate hv hw io).2 hno

/-! ## Witnesses -/

def completeIo : KipIo := ⟨true, kipTableBytes⟩

theorem completeIo_complete : completeIo.Complete := ⟨rfl, le_rfl⟩

/-- the settings of a system updated from version 231, with a boost clock of its own -/
def settings231 : List (String × String) := [("kip_version", "231"), ("mariko_cpu_boost_clock", "1785000")]

/-- a new file that passes the gate: the settings survive -/
theorem sample_survivesUpdate :
    SurvivesUpdate (sampleKipState (sampleKip 4 240) settings231) (sampleKip 4 240) (sampleTable 4 240) .appending
      .appending completeIo completeIo := by
  refine (survivesUpdate_iff rfl (sampleKip_read (by decide) (by decide)) (sampleKipState_valid _ _) ?_
    IniWriter.appending_succeeds completeIo_complete .appending completeIo).2 ?_
  · decide +kernel
  · rintro ⟨hgate, -⟩
    exact hgate (by decide +kernel)

/-- **A file of a newer version changes the boot voltage before it is refused.** -/
theorem newer_kip_migrates : ¬ SurvivesUpdate (sampleKipState (sampleKip 4 241) settings231) (sampleKip 4 241)
    (sampleTable 4 241) .appending .appending completeIo completeIo := by
  intro h
  exact absurd (h.refused (by decide +kernel) .marikoGpuBootVolt).1 (by decide +kernel)

end KipState

end RyazhaClk
