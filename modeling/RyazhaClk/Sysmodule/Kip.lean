/-
`SetKipData`, `GetKipData` and `MigrateKipData` (`kip.cpp`): the settings in memory, in the configuration file, and in the
KIP file. A boot loads the configuration and calls `GetKipData`; a client calls `SetKipData`.

- `saveConfig_cases`: a save leaves memory and file with the same values, or changes nothing.
- `setKipData_accepted`, `setKipData_refused`: what a write into the KIP leaves, by the gate on revision and version.
- `getKipData_foreign`, `getKipData_loads`: a KIP whose checksum is not the stored one is overwritten, any other is loaded.
-/
import Mathlib.Tactic
import RyazhaClk.Sysmodule.KipTable

namespace RyazhaClk

open Layout

/-! ## The state -/

/-- what the KIP functions read and change; `kip` is the content of `hoc.kip`, if there is one -/
structure KipState where
  config : Config
  ini : ConfigFile
  kip : Option (List UInt8)
  kipAvailable : Bool
  contextCustRev : ℕ
  contextKipVersion : ℕ
  notifications : List String

/-- `ini_putsection` on the value section: the file it leaves, none where it gives up -/
structure IniWriter where
  putsection : List (String × String) → ConfigFile → Option ConfigFile
  replaces : ∀ {kvs f f'}, putsection kvs f = some f' → Replaced CONFIG_VAL_SECTION kvs f f'

namespace IniWriter

/-- a writer that never gives up -/
def Succeeds (w : IniWriter) : Prop := ∀ kvs f, (w.putsection kvs f).isSome

/-- one that puts the section behind everything else -/
def appending : IniWriter where
  putsection kvs f := some ⟨f.mtime + 1, f.contents.filter (fun e => !sameSection e.sect CONFIG_VAL_SECTION) ++
    sectionEntries CONFIG_VAL_SECTION kvs⟩
  replaces := by
    intro kvs f f' h
    obtain rfl := Option.some.inj h
    exact ⟨Nat.succ_ne_zero f.mtime, _, [], (List.append_nil _).symm, (List.append_nil _).symm⟩

theorem appending_succeeds : appending.Succeeds := fun _ _ => rfl

end IniWriter

namespace KipState

/-- the values in memory -/
def values (s : KipState) : HocClkConfigValue → ℕ := s.config.configValues

/-- the values a load of the configuration file finds -/
def stored (s : KipState) : HocClkConfigValue → ℕ := (Config.initial.load s.ini).configValues

/-- `writeNotification` -/
def writeNotification (s : KipState) (message : String) : KipState :=
  { s with notifications := s.notifications ++ [message] }

/-- `config::SetConfigValues(&configValues, true)` -/
def setConfigValues (s : KipState) (w : IniWriter) (values : HocClkConfigValue → ℕ) : Bool × KipState :=
  match w.putsection (configValueKeys values) s.ini with
  | some ini => (true, { s with config := (s.config.setConfigValues true values true).2, ini })
  | none => (false, s)

end KipState

/-! ## The gate -/

inductive KipGate where
  | accepted
  | outdatedKip
  | outdatedSysmodule
deriving DecidableEq

/-- the comparison of the table's revision and version with the sysmodule's -/
def kipGate (table : List ℕ) : KipGate :=
  let custRev := read kipLayout table (.custRev, 0)
  let kipVersion := read kipLayout table (.kipVersion, 0)
  if custRev < CUST_REV ∨ kipVersion < KIP_VERSION then .outdatedKip
  else if CUST_REV < custRev ∨ KIP_VERSION < kipVersion then .outdatedSysmodule
  else .accepted

def outdatedKipMessage : String := "Horizon OC\nOutdated kip detected!\nPlease update Horizon OC"

def outdatedSysmoduleMessage : String := "Horizon OC\nOutdated sysmodule detected!\nPlease update Horizon OC"

namespace KipState

/-! ## The KIP functions -/

/-- `SetKipData` behind the gate: a failed write is reported, and the checksum is stored all the same -/
def storeKip (s : KipState) (w : IniWriter) (io : KipIo) (bytes : List UInt8) (table : List ℕ) : KipState :=
  let written := custWriteTable io bytes (storeFields s.values table)
  let s := { s with kip := some written.2 }
  let s := if written.1 then s else s.writeNotification "Horizon OC\nKip write failed"
  let saved := s.setConfigValues w (Function.update s.values .kipCrc32 (checksumFile written.2))
  if saved.1 then saved.2 else saved.2.writeNotification "Horizon OC\nKip config set failed"

/-- `SetKipData` -/
def setKipData (s : KipState) (w : IniWriter) (io : KipIo) : KipState :=
  match s.kip with
  | none => { s with kipAvailable := false }.writeNotification "Horizon OC\nKip opening failed"
  | some bytes =>
    let s := { s with kipAvailable := true }
    match custReadTable bytes with
    | none => s.writeNotification "Horizon OC\nKip read failed"
    | some table =>
      match kipGate table with
      | .outdatedKip => s.writeNotification outdatedKipMessage
      | .outdatedSysmodule => s.writeNotification outdatedSysmoduleMessage
      | .accepted => s.storeKip w io bytes table

/-- the list `MigrateKipData` saves; the previous version is read into 32 bits -/
def migratedValues (values : HocClkConfigValue → ℕ) (version : ℕ) : HocClkConfigValue → ℕ :=
  if values .kipVersion % 2 ^ 32 < 240 ∧ 240 ≤ version then Function.update values .marikoGpuBootVolt 800 else values

/-- `MigrateKipData` -/
def migrateKipData (s : KipState) (w : IniWriter) (version : ℕ) : KipState :=
  (s.setConfigValues w (migratedValues s.values version)).2

/-- the list `GetKipData` has in front of its gate -/
def checkedValues (values : HocClkConfigValue → ℕ) (bytes : List UInt8) : HocClkConfigValue → ℕ :=
  let values := if values .isFirstLoad = 1 then Function.update values .isFirstLoad 0 else values
  Function.update values .kipCrc32 (checksumFile bytes)

/-- the list it saves behind the gate -/
def loadedValues (values : HocClkConfigValue → ℕ) (bytes : List UInt8) (table : List ℕ) : HocClkConfigValue → ℕ :=
  loadFields table
    (Function.update (Function.update (checkedValues values bytes) .custRev (read kipLayout table (.custRev, 0)))
      .kipVersion (read kipLayout table (.kipVersion, 0)))

/-- `GetKipData` where the KIP is loaded -/
def loadKip (s : KipState) (w : IniWriter) (bytes : List UInt8) (table : List ℕ) : KipState :=
  let s := if s.values .isFirstLoad = 1 then s.writeNotification "Horizon OC has been installed" else s
  let s := { s with contextCustRev := read kipLayout table (.custRev, 0) }
  match kipGate table with
  | .outdatedKip => s.writeNotification outdatedKipMessage
  | .outdatedSysmodule => s.writeNotification outdatedSysmoduleMessage
  | .accepted =>
    let s := { s with contextKipVersion := read kipLayout table (.kipVersion, 0) }
    let saved := s.setConfigValues w (loadedValues s.values bytes table)
    if saved.1 then saved.2 else saved.2.writeNotification "Horizon OC\nKip config set failed"

/-- the test by which `GetKipData` takes the KIP for a new one -/
def Foreign (values : HocClkConfigValue → ℕ) (bytes : List UInt8) : Prop :=
  checksumFile bytes ≠ values .kipCrc32 ∧ values .isFirstLoad = 0

instance (values : HocClkConfigValue → ℕ) (bytes : List UInt8) : Decidable (Foreign values bytes) :=
  inferInstanceAs (Decidable (_ ∧ _))

/-- `GetKipData` -/
def getKipData (s : KipState) (w : IniWriter) (io : KipIo) : KipState :=
  match s.kip with
  | none => { s with kipAvailable := false }.writeNotification "Horizon OC\nKip opening failed"
  | some bytes =>
    let s := { s with kipAvailable := true }
    match custReadTable bytes with
    | none => s.writeNotification "Horizon OC\nKip read failed"
    | some table =>
      if Foreign s.values bytes then
        ((s.migrateKipData w (read kipLayout table (.kipVersion, 0))).setKipData w io).writeNotification
          "Horizon OC\nKIP has been updated\nPlease reboot your console"
      else s.loadKip w bytes table

/-- `config::Refresh` in a running system -/
def refresh (s : KipState) : KipState := { s with config := (s.config.refresh s.ini).2 }

/-- the configuration of a new boot, in front of `GetKipData` -/
def boot (s : KipState) : KipState :=
  { s with config := (Config.initial.refresh s.ini).2, kipAvailable := false, contextCustRev := 0, contextKipVersion := 0 }

end KipState

/-! ## Valid values -/

/-- values as every writer of the store leaves them -/
structure ValidValues (values : HocClkConfigValue → ℕ) : Prop where
  valid : ∀ kval, hocclkValidConfigValue kval (values kval) = true
  lt : ∀ kval, values kval < 2 ^ 64

theorem strtoul_lt (str : String) (base : ℕ) : strtoul str base < 2 ^ 64 := by
  unfold strtoul
  dsimp only
  split_ifs
  · decide
  · exact Nat.mod_lt _ (by decide)
  · omega

theorem hocclkDefaultConfigValue_lt (kval : HocClkConfigValue) : hocclkDefaultConfigValue kval < 2 ^ 64 := by
  cases kval <;> decide

theorem ValidValues.normValue_eq {values : HocClkConfigValue → ℕ} (h : ValidValues values) (kval : HocClkConfigValue) :
    normValue kval (values kval) = values kval := if_pos (h.valid kval)

theorem validValues_normValue {values : HocClkConfigValue → ℕ} (h64 : ∀ kval, values kval < 2 ^ 64) :
    ValidValues fun kval => normValue kval (values kval) := by
  constructor
  · intro kval
    unfold normValue
    split_ifs with h
    · exact h
    · exact hocclkDefaultConfigValue_valid kval
  · intro kval
    unfold normValue
    split_ifs
    · exact h64 kval
    · exact hocclkDefaultConfigValue_lt kval

theorem lastValue_lt {es : List IniEntry} {kval : HocClkConfigValue} {n : ℕ} (h : lastValue es kval = some n) : n < 2 ^ 64 := by
  obtain ⟨kv, hfind, rfl⟩ := Option.map_eq_some_iff.1 h
  obtain ⟨e, -, he⟩ := List.mem_filterMap.1 (List.mem_reverse.1 (List.mem_of_find?_eq_some hfind))
  unfold valueEntry at he
  split_ifs at he
  obtain ⟨l, -, rfl⟩ := Option.map_eq_some_iff.1 he
  exact strtoul_lt e.value 0

theorem validValues_load (c : Config) (f : ConfigFile) : ValidValues (c.load f).configValues := by
  have hload : (c.load f).configValues =
      fun kval => normValue kval ((lastValue f.contents kval).getD (hocclkDefaultConfigValue kval)) := by
    funext kval
    rw [Config.load_configValues]
    cases lastValue f.contents kval with
    | none => exact (if_pos (hocclkDefaultConfigValue_valid kval)).symm
    | some n => rfl
  rw [hload]
  apply validValues_normValue
  intro kval
  cases h : lastValue f.contents kval with
  | none => exact hocclkDefaultConfigValue_lt kval
  | some n => exact lastValue_lt h

namespace ValidValues

variable {values : HocClkConfigValue → ℕ}

theorem update (h : ValidValues values) (kval : HocClkConfigValue) {n : ℕ} (hv : hocclkValidConfigValue kval n = true)
    (hn : n < 2 ^ 64) : ValidValues (Function.update values kval n) := by
  constructor
  · intro k
    by_cases hk : k = kval
    · subst hk
      simpa using hv
    · rw [Function.update_of_ne hk]
      exact h.valid k
  · intro k
    by_cases hk : k = kval
    · subst hk
      simpa using hn
    · rw [Function.update_of_ne hk]
      exact h.lt k

theorem update_crc (h : ValidValues values) (bytes : List UInt8) :
    ValidValues (Function.update values .kipCrc32 (checksumFile bytes)) := by
  apply h.update .kipCrc32 rfl
  exact lt_trans (UInt32.toNat_lt _) (by decide)

theorem migratedValues (h : ValidValues values) (version : ℕ) : ValidValues (KipState.migratedValues values version) := by
  unfold KipState.migratedValues
  split_ifs
  · exact h.update .marikoGpuBootVolt rfl (by decide)
  · exact h

theorem checkedValues (h : ValidValues values) (bytes : List UInt8) : ValidValues (KipState.checkedValues values bytes) := by
  apply update_crc
  split_ifs
  · exact h.update .isFirstLoad rfl (by decide)
  · exact h

theorem loadedValues (h : ValidValues values) (bytes : List UInt8) {table : List ℕ} (hlt : ∀ w ∈ table, w < 2 ^ 32) :
    ValidValues (KipState.loadedValues values bytes table) := by
  have hword : ∀ fi, read kipLayout table fi < 2 ^ 64 := by
    intro fi
    exact lt_trans (read_lt (by decide) hlt fi) (by decide)
  have hlist := ((h.checkedValues bytes).update .custRev rfl (hword (.custRev, 0))).update .kipVersion rfl
    (hword (.kipVersion, 0))
  constructor
  · intro kval
    rw [KipState.loadedValues, loadFields_eq]
    split_ifs with hk
    · exact kipKeys_valid hk _
    · exact hlist.valid kval
  · intro kval
    rw [KipState.loadedValues, loadFields_eq]
    split_ifs with hk
    · exact lt_trans (fieldOf_lt hlt kval) (by decide)
    · exact hlist.lt kval

end ValidValues

/-! ## What a save leaves -/

namespace KipState

variable {s t : KipState} {w : IniWriter} {io : KipIo} {bytes : List UInt8} {table : List ℕ}
  {values : HocClkConfigValue → ℕ}

/-- memory and configuration file hold these values -/
structure Holds (s : KipState) (values : HocClkConfigValue → ℕ) : Prop where
  memory : s.values = values
  file : s.stored = values

/-- neither copy of the configuration has changed -/
structure SameConfig (s t : KipState) : Prop where
  config : t.config = s.config
  ini : t.ini = s.ini

/-- what a save of the list `values` makes of `s` -/
def SaveOutcome (w : IniWriter) (values : HocClkConfigValue → ℕ) (s t : KipState) : Prop :=
  if (w.putsection (configValueKeys values) s.ini).isSome then t.Holds values else SameConfig s t

theorem SameConfig.values_eq (h : SameConfig s t) : t.values = s.values := congrArg Config.configValues h.config

theorem SameConfig.stored_eq (h : SameConfig s t) : t.stored = s.stored := by
  unfold stored
  rw [h.ini]

theorem SameConfig.trans {u : KipState} (h : SameConfig s t) (h' : SameConfig t u) : SameConfig s u :=
  ⟨h'.config.trans h.config, h'.ini.trans h.ini⟩

theorem Holds.congr (h : s.Holds values) (hst : SameConfig s t) : t.Holds values :=
  ⟨hst.values_eq.trans h.memory, hst.stored_eq.trans h.file⟩

theorem SaveOutcome.congr {s' t' : KipState} (h : SaveOutcome w values s t) (hs : SameConfig s' s) (ht : SameConfig t t') :
    SaveOutcome w values s' t' := by
  unfold SaveOutcome at h ⊢
  rw [← hs.ini]
  split_ifs at h ⊢
  · exact h.congr ht
  · exact (hs.trans h).trans ht

/-- either way both copies hold the list or what they held before -/
theorem SaveOutcome.cases (h : SaveOutcome w values s t) : t.Holds values ∨ SameConfig s t := by
  unfold SaveOutcome at h
  split_ifs at h
  · exact .inl h
  · exact .inr h

theorem SaveOutcome.of_some (h : SaveOutcome w values s t)
    (hw : (w.putsection (configValueKeys values) s.ini).isSome) : t.Holds values := by
  rwa [SaveOutcome, if_pos hw] at h

@[simp] theorem sameConfig_writeNotification (s : KipState) (message : String) :
    SameConfig s (s.writeNotification message) := ⟨rfl, rfl⟩

theorem stored_eq_load (s : KipState) (c : Config) : s.stored = (c.load s.ini).configValues := by
  funext kval
  rw [stored, Config.load_configValues, Config.load_configValues]

theorem setConfigValues_holds (h64 : ∀ kval, values kval < 2 ^ 64)
    (hw : (w.putsection (configValueKeys values) s.ini).isSome) :
    (s.setConfigValues w values).2.Holds fun kval => normValue kval (values kval) := by
  obtain ⟨ini, hput⟩ := Option.isSome_iff_exists.1 hw
  unfold setConfigValues
  rw [hput]
  constructor
  · rfl
  · funext kval
    exact normValue_reload h64 (w.replaces hput) _ kval

theorem setConfigValues_same (hw : ¬ (w.putsection (configValueKeys values) s.ini).isSome) :
    (s.setConfigValues w values).2 = s := by
  unfold setConfigValues
  rw [Option.not_isSome_iff_eq_none.1 hw]

theorem setConfigValues_outcome (h : ValidValues values) (s : KipState) (w : IniWriter) :
    SaveOutcome w values s (s.setConfigValues w values).2 := by
  have hnorm : (fun kval => normValue kval (values kval)) = values := funext h.normValue_eq
  unfold SaveOutcome
  split_ifs with hw
  · have hheld := setConfigValues_holds h.lt hw
    rwa [hnorm] at hheld
  · rw [setConfigValues_same hw]
    exact ⟨rfl, rfl⟩

@[simp] theorem setConfigValues_kip (s : KipState) (w : IniWriter) (values : HocClkConfigValue → ℕ) :
    (s.setConfigValues w values).2.kip = s.kip := by
  unfold setConfigValues
  split <;> rfl

/-! ## `SetKipData` -/

theorem kipGate_eq_accepted_iff : kipGate table = .accepted ↔
    read kipLayout table (.custRev, 0) = CUST_REV ∧ read kipLayout table (.kipVersion, 0) = KIP_VERSION := by
  unfold kipGate
  dsimp only
  split_ifs with h1 h2
  · constructor
    · intro h
      cases h
    · rintro ⟨hr, hv⟩
      omega
  · constructor
    · intro h
      cases h
    · rintro ⟨hr, hv⟩
      omega
  · constructor
    · intro _
      omega
    · intro _
      rfl

/-- the gate reads what a store does not write -/
theorem kipGate_storeFields (values : HocClkConfigValue → ℕ) (table : List ℕ) :
    kipGate (storeFields values table) = kipGate table := by
  unfold kipGate
  rw [read_storeFields_header (.inr (.inl rfl)), read_storeFields_header (.inr (.inr rfl))]

theorem storeKip_outcome (hv : ValidValues s.values) (w : IniWriter) (io : KipIo) (bytes : List UInt8) (table : List ℕ) :
    (s.storeKip w io bytes table).kip = some (custWriteTable io bytes (storeFields s.values table)).2 ∧
    SaveOutcome w (Function.update s.values .kipCrc32
      (checksumFile (custWriteTable io bytes (storeFields s.values table)).2)) s (s.storeKip w io bytes table) := by
  unfold storeKip
  extract_lets written s1 s2 saved
  have h1 : SameConfig s s1 := ⟨rfl, rfl⟩
  have h2 : SameConfig s1 s2 := by
    unfold s2
    split_ifs
    · exact ⟨rfl, rfl⟩
    · exact sameConfig_writeNotification _ _
  have hkip : saved.2.kip = some written.2 := by
    rw [setConfigValues_kip]
    unfold s2
    split_ifs <;> rfl
  have hout : SaveOutcome w (Function.update s.values .kipCrc32 (checksumFile written.2)) s saved.2 := by
    have hvalues : s2.values = s.values := (h1.trans h2).values_eq
    have h := setConfigValues_outcome (hv.update_crc written.2) s2 w
    rw [← hvalues] at h ⊢
    exact h.congr (h1.trans h2) ⟨rfl, rfl⟩
  split_ifs
  · exact ⟨hkip, hout⟩
  · exact ⟨hkip, hout.congr ⟨rfl, rfl⟩ (sameConfig_writeNotification _ _)⟩

theorem setKipData_accepted (hkip : s.kip = some bytes) (hread : custReadTable bytes = some table)
    (hgate : kipGate table = .accepted) (hv : ValidValues s.values) (w : IniWriter) (io : KipIo) :
    (s.setKipData w io).kip = some (custWriteTable io bytes (storeFields s.values table)).2 ∧
    SaveOutcome w (Function.update s.values .kipCrc32
      (checksumFile (custWriteTable io bytes (storeFields s.values table)).2)) s (s.setKipData w io) := by
  have heq : s.setKipData w io = { s with kipAvailable := true }.storeKip w io bytes table := by
    unfold setKipData
    simp only [hkip, hread, hgate]
  rw [heq]
  obtain ⟨hk, hout⟩ := storeKip_outcome (s := { s with kipAvailable := true }) hv w io bytes table
  exact ⟨hk, hout.congr ⟨rfl, rfl⟩ ⟨rfl, rfl⟩⟩

/-- without a table that passes the gate nothing is written -/
theorem setKipData_refused (h : ∀ bytes table, s.kip = some bytes → custReadTable bytes = some table →
    kipGate table ≠ .accepted) (w : IniWriter) (io : KipIo) :
    (s.setKipData w io).kip = s.kip ∧ SameConfig s (s.setKipData w io) := by
  unfold setKipData
  cases hkip : s.kip with
  | none => exact ⟨rfl, ⟨rfl, rfl⟩⟩
  | some bytes =>
    dsimp only
    cases hread : custReadTable bytes with
    | none => exact ⟨rfl, ⟨rfl, rfl⟩⟩
    | some table =>
      dsimp only
      cases hgate : kipGate table with
      | outdatedKip => exact ⟨rfl, ⟨rfl, rfl⟩⟩
      | outdatedSysmodule => exact ⟨rfl, ⟨rfl, rfl⟩⟩
      | accepted => exact absurd hgate (h bytes table hkip hread)

/-! ## `GetKipData` -/

theorem migrateKipData_outcome (hv : ValidValues s.values) (w : IniWriter) (version : ℕ) :
    (s.migrateKipData w version).kip = s.kip ∧
    SaveOutcome w (migratedValues s.values version) s (s.migrateKipData w version) :=
  ⟨setConfigValues_kip s w _, setConfigValues_outcome (hv.migratedValues version) s w⟩

/-- a foreign KIP is migrated, then overwritten where it passes the gate -/
theorem getKipData_foreign (hkip : s.kip = some bytes) (hread : custReadTable bytes = some table)
    (hforeign : Foreign s.values bytes) (hv : ValidValues s.values) (w : IniWriter) (io : KipIo) :
    ∃ m : KipState, m.kip = some bytes ∧
      SaveOutcome w (migratedValues s.values (read kipLayout table (.kipVersion, 0))) s m ∧
      (s.getKipData w io).kip = (m.setKipData w io).kip ∧ SameConfig (m.setKipData w io) (s.getKipData w io) := by
  have hm := migrateKipData_outcome (s := { s with kipAvailable := true }) hv w (read kipLayout table (.kipVersion, 0))
  refine ⟨_, hm.1.trans hkip, hm.2.congr ⟨rfl, rfl⟩ ⟨rfl, rfl⟩, ?_⟩
  have heq : s.getKipData w io = (({ s with kipAvailable := true }.migrateKipData w
      (read kipLayout table (.kipVersion, 0))).setKipData w io).writeNotification
        "Horizon OC\nKIP has been updated\nPlease reboot your console" := by
    unfold getKipData
    simp only [hkip, hread]
    exact if_pos hforeign
  rw [heq]
  exact ⟨rfl, sameConfig_writeNotification _ _⟩

/-- a known KIP that passes the gate is loaded -/
theorem getKipData_loads (hkip : s.kip = some bytes) (hread : custReadTable bytes = some table)
    (hknown : ¬ Foreign s.values bytes) (hgate : kipGate table = .accepted) (hv : ValidValues s.values) (w : IniWriter)
    (io : KipIo) :
    (s.getKipData w io).kip = some bytes ∧ SaveOutcome w (loadedValues s.values bytes table) s (s.getKipData w io) := by
  have heq : s.getKipData w io = { s with kipAvailable := true }.loadKip w bytes table := by
    unfold getKipData
    simp only [hkip, hread]
    exact if_neg hknown
  rw [heq]
  unfold loadKip
  extract_lets s1 s2 s3 saved
  have h1 : SameConfig s s1 ∧ s1.kip = some bytes := by
    unfold s1
    split_ifs
    · exact ⟨⟨rfl, rfl⟩, hkip⟩
    · exact ⟨⟨rfl, rfl⟩, hkip⟩
  have h3 : SameConfig s s3 := h1.1.trans ⟨rfl, rfl⟩
  have hout := setConfigValues_outcome (hv.loadedValues bytes (lt_of_custReadTable hread)) s3 w
  have hkip' : saved.2.kip = some bytes := (setConfigValues_kip s3 w _).trans h1.2
  have hvalues : s3.values = s.values := h3.values_eq
  rw [← hvalues] at hout ⊢
  have hsaved := hout.congr h3 ⟨rfl, rfl⟩
  rw [hgate]
  dsimp only
  split_ifs
  · exact ⟨hkip', hsaved⟩
  · exact ⟨hkip', hsaved.congr ⟨rfl, rfl⟩ (sameConfig_writeNotification _ _)⟩

/-- a known KIP that does not pass the gate changes nothing -/
theorem getKipData_refused (hkip : s.kip = some bytes) (hread : custReadTable bytes = some table)
    (hknown : ¬ Foreign s.values bytes) (hgate : kipGate table ≠ .accepted) (w : IniWriter) (io : KipIo) :
    (s.getKipData w io).kip = some bytes ∧ SameConfig s (s.getKipData w io) := by
  have heq : s.getKipData w io = { s with kipAvailable := true }.loadKip w bytes table := by
    unfold getKipData
    simp only [hkip, hread]
    exact if_neg hknown
  rw [heq]
  unfold loadKip
  extract_lets s1 s2
  have h1 : SameConfig s s1 ∧ s1.kip = some bytes := by
    unfold s1
    split_ifs
    · exact ⟨⟨rfl, rfl⟩, hkip⟩
    · exact ⟨⟨rfl, rfl⟩, hkip⟩
  cases hg : kipGate table with
  | outdatedKip => exact ⟨h1.2, h1.1.trans ⟨rfl, rfl⟩⟩
  | outdatedSysmodule => exact ⟨h1.2, h1.1.trans ⟨rfl, rfl⟩⟩
  | accepted => exact absurd hg hgate

/-! ## Reloads -/

/-- a refresh keeps the values in memory or takes those of the file -/
theorem refresh_values (s : KipState) : s.refresh.values = s.values ∨ s.refresh.values = s.stored := by
  unfold refresh Config.refresh
  split_ifs
  · right
    rw [stored_eq_load s s.config]
    rfl
  · left
    rfl

theorem validValues_stored (s : KipState) : ValidValues s.stored := validValues_load _ _

/-! ## The lists -/

theorem loadedValues_of_mem {kval : HocClkConfigValue} (h : kval ∈ kipKeys) (values : HocClkConfigValue → ℕ)
    (bytes : List UInt8) (table : List ℕ) : loadedValues values bytes table kval = fieldOf table kval := by
  rw [loadedValues, loadFields_eq, if_pos h]

theorem loadedValues_kipCrc32 (values : HocClkConfigValue → ℕ) (bytes : List UInt8) (table : List ℕ) :
    loadedValues values bytes table .kipCrc32 = checksumFile bytes := by
  have hnot : HocClkConfigValue.kipCrc32 ∉ kipKeys := fun h => (kipKeys_ne h).1 rfl
  rw [loadedValues, loadFields_eq, if_neg hnot]
  simp [checkedValues]

end KipState

/-! ## A sample file -/

open WordBytes

def sampleTable (custRev kipVersion : ℕ) : List ℕ := [0x54535543, custRev, kipVersion] ++ List.replicate 161 0

/-- a KIP file that is its table, every setting 0 -/
def sampleKip (custRev kipVersion : ℕ) : List UInt8 := ofWords (sampleTable custRev kipVersion)

theorem length_sampleTable (custRev kipVersion : ℕ) : (sampleTable custRev kipVersion).length = size kipLayout := by
  rw [size_kipLayout, sampleTable, List.length_append, List.length_replicate]
  rfl

theorem sampleKip_read {custRev kipVersion : ℕ} (hr : custRev < 2 ^ 32) (hv : kipVersion < 2 ^ 32) :
    custReadTable (sampleKip custRev kipVersion) = some (sampleTable custRev kipVersion) := by
  have hlen : (sampleKip custRev kipVersion).length = kipTableBytes := by
    rw [sampleKip, length_ofWords, length_sampleTable, kipTableBytes]
  have hlt : ∀ x ∈ sampleTable custRev kipVersion, x < 2 ^ 32 := by
    intro x hx
    unfold sampleTable at hx
    rcases List.mem_append.1 hx with hx | hx
    · rcases List.mem_cons.1 hx with rfl | hx
      · decide
      · rcases List.mem_cons.1 hx with rfl | hx
        · exact hr
        · exact List.mem_singleton.1 hx ▸ hv
    · rw [List.eq_of_mem_replicate hx]
      decide
  have hfind : custFindOffset (sampleKip custRev kipVersion) = some 0 :=
    custFindOffset_eq_some_iff.2 ⟨rfl, fun j hj => absurd hj (Nat.not_lt_zero j)⟩
  refine custReadTable_eq_some_iff.2 ⟨0, hfind, by omega, ?_⟩
  rw [List.drop_zero, List.take_of_length_le hlen.le, sampleKip, toWords_ofWords hlt]

/-- a system behind its first load, with the given KIP file and further settings -/
def sampleKipState (kip : List UInt8) (settings : List (String × String)) : KipState :=
  let ini : ConfigFile := ⟨1, sectionEntries CONFIG_VAL_SECTION (("is_first_load", "0") :: settings)⟩
  { config := Config.initial.load ini, ini, kip := some kip, kipAvailable := true, contextCustRev := 0,
    contextKipVersion := 0, notifications := [] }

theorem sampleKipState_valid (kip : List UInt8) (settings : List (String × String)) :
    ValidValues (sampleKipState kip settings).values := validValues_load _ _

end RyazhaClk
