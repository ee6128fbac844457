/-
The stored checksum under the requests of several clients (`ipc_service.cpp`). A client reads the list of values, the stored
checksum among them, edits its settings, and sends the whole list back; `SetKipData` stores a new checksum in between.

- `checksum_fresh_iff`: in every run, the stored checksum is that of the KIP file as `SetKipData` last wrote it exactly when
  every list that is saved carries the checksum stored at that moment.
- `old_list_rolls_back`: a list read before a `SetKipData` and saved behind it brings the old checksum back.
-/
import Mathlib.Tactic
import RyazhaClk.Lib.Transition
import RyazhaClk.Sysmodule.Kip

namespace RyazhaClk

open Transition

/-- a list of 64-bit values -/
structure HocClkConfigValueList where
  values : HocClkConfigValue → ℕ
  lt : ∀ kval, values kval < 2 ^ 64

inductive IpcRequest (C : Type*) where
  | getConfigValues (client : C)
  | setConfigValues (client : C) (w : IniWriter) (list : HocClkConfigValueList)
  | setKipData (w : IniWriter) (io : KipIo)

/-- the sysmodule, the lists each client has read, and the KIP file as `SetKipData` last left it, if it has been called -/
structure IpcState (C : Type*) where
  sys : KipState
  read : C → List (HocClkConfigValue → ℕ)
  lastWritten : Option (List UInt8)

/-- the file a `SetKipData` leaves, where it comes to writing one -/
def KipState.written (s : KipState) (io : KipIo) : Option (List UInt8) :=
  s.kip.bind fun bytes => (custReadTable bytes).bind fun table =>
    if kipGate table = .accepted then some (custWriteTable io bytes (storeFields s.values table)).2 else none

namespace IpcState

variable {C : Type*}

/-- the list is derived from one the client has read: its settings are the client's, its checksum the one read -/
def Derived (s : IpcState C) (client : C) (list : HocClkConfigValueList) : Prop :=
  ∃ l ∈ s.read client, list.values .kipCrc32 = l .kipCrc32

instance (s : IpcState C) (client : C) (list : HocClkConfigValueList) : Decidable (s.Derived client list) :=
  inferInstanceAs (Decidable (∃ l ∈ s.read client, _))

/-- `SetConfigValuesHandler` -/
def setConfigValuesHandler (s : IpcState C) (w : IniWriter) (list : HocClkConfigValueList) : IpcState C :=
  if s.sys.config.gLoaded then { s with sys := (s.sys.setConfigValues w list.values).2 } else s

/-- the stored checksum, in memory and in the configuration file, is that of the KIP file as last written -/
structure Fresh (s : IpcState C) : Prop where
  memory : ∀ bytes, s.lastWritten = some bytes → s.sys.values .kipCrc32 = checksumFile bytes
  file : ∀ bytes, s.lastWritten = some bytes → s.sys.stored .kipCrc32 = checksumFile bytes

theorem fresh_of_start {s : IpcState C} (hstart : s.lastWritten = none) : Fresh s := by
  constructor
  · intro bytes hbytes
    rw [hstart] at hbytes
    cases hbytes
  · intro bytes hbytes
    rw [hstart] at hbytes
    cases hbytes

/-- a list that is saved carries the checksum stored at that moment; and a `SetKipData` that cannot save the new checksum
has left the file's checksum as it is stored -/
def Timely (s : IpcState C) : IpcRequest C → Prop
  | .getConfigValues _ => True
  | .setConfigValues client w list => s.Derived client list → s.lastWritten.isSome → s.sys.config.gLoaded = true →
      (w.putsection (configValueKeys list.values) s.sys.ini).isSome →
        list.values .kipCrc32 = s.sys.values .kipCrc32
  | .setKipData w io => ∀ bytes, s.sys.written io = some bytes →
      ¬ (w.putsection (configValueKeys (Function.update s.sys.values .kipCrc32 (checksumFile bytes))) s.sys.ini).isSome →
        s.sys.values .kipCrc32 = checksumFile bytes ∧ s.sys.stored .kipCrc32 = checksumFile bytes

theorem setConfigValuesHandler_lastWritten (s : IpcState C) (w : IniWriter) (list : HocClkConfigValueList) :
    (s.setConfigValuesHandler w list).lastWritten = s.lastWritten := by
  unfold setConfigValuesHandler
  split_ifs <;> rfl

variable [DecidableEq C]

/-- `GetConfigValuesHandler` -/
def getConfigValuesHandler (s : IpcState C) (client : C) : IpcState C :=
  if s.sys.config.gLoaded then { s with read := Function.update s.read client (s.sys.values :: s.read client) } else s

/-- one request of `ServiceHandlerFunc`; a list that is not derived from one that was read is not sent -/
def step (s : IpcState C) : IpcRequest C → Option (IpcState C)
  | .getConfigValues client => some (s.getConfigValuesHandler client)
  | .setConfigValues client w list => if s.Derived client list then some (s.setConfigValuesHandler w list) else none
  | .setKipData w io =>
    some { s with sys := s.sys.setKipData w io, lastWritten := (s.sys.written io).or s.lastWritten }

variable {s t : IpcState C} {e : IpcRequest C}

/-! ## One request -/

theorem getConfigValuesHandler_sys (s : IpcState C) (client : C) : (s.getConfigValuesHandler client).sys = s.sys := by
  unfold getConfigValuesHandler
  split_ifs <;> rfl

theorem step_setConfigValues {client : C} {list : HocClkConfigValueList} (h : s.Derived client list) (w : IniWriter) :
    step s (.setConfigValues client w list) = some (s.setConfigValuesHandler w list) := if_pos h

theorem written_eq_some_iff {s : KipState} {io : KipIo} {file : List UInt8} : s.written io = some file ↔
    ∃ bytes table, s.kip = some bytes ∧ custReadTable bytes = some table ∧ kipGate table = .accepted ∧
      (custWriteTable io bytes (storeFields s.values table)).2 = file := by
  unfold KipState.written
  constructor
  · intro h
    obtain ⟨bytes, hkip, h⟩ := Option.bind_eq_some_iff.1 h
    obtain ⟨table, hread, h⟩ := Option.bind_eq_some_iff.1 h
    split_ifs at h with hgate
    exact ⟨bytes, table, hkip, hread, hgate, Option.some.inj h⟩
  · rintro ⟨bytes, table, hkip, hread, hgate, rfl⟩
    rw [hkip, Option.bind_some, hread, Option.bind_some, if_pos hgate]

/-- the ghost file is the one on the card -/
theorem setKipData_written {s : KipState} {io : KipIo} {file : List UInt8} (h : s.written io = some file)
    (hv : ValidValues s.values) (w : IniWriter) : (s.setKipData w io).kip = some file ∧
      KipState.SaveOutcome w (Function.update s.values .kipCrc32 (checksumFile file)) s (s.setKipData w io) := by
  obtain ⟨bytes, table, hkip, hread, hgate, rfl⟩ := written_eq_some_iff.1 h
  exact KipState.setKipData_accepted hkip hread hgate hv w io

theorem setKipData_unwritten {s : KipState} {io : KipIo} (h : s.written io = none) (w : IniWriter) :
    KipState.SameConfig s (s.setKipData w io) := by
  apply (KipState.setKipData_refused ?_ w io).2
  intro bytes table hkip hread hgate
  have hsome : s.written io = some (custWriteTable io bytes (storeFields s.values table)).2 :=
    written_eq_some_iff.2 ⟨bytes, table, hkip, hread, hgate, rfl⟩
  rw [h] at hsome
  cases hsome

/-- a request that changes nothing keeps the checksum fresh -/
theorem fresh_iff_of_same (h : Fresh s) (hstep : step s e = some s) (htimely : Timely s e) :
    (∀ t, step s e = some t → Fresh t) ↔ Timely s e := by
  refine iff_of_true ?_ htimely
  intro t ht
  obtain rfl := Option.some.inj (hstep.symm.trans ht)
  exact h

/-- a list that is saved brings its checksum, which has no check of its own, into memory and into the file -/
theorem setConfigValues_crc {u : KipState} {w : IniWriter} {list : HocClkConfigValueList}
    (hw : (w.putsection (configValueKeys list.values) u.ini).isSome) :
    (u.setConfigValues w list.values).2.values .kipCrc32 = list.values .kipCrc32 ∧
      (u.setConfigValues w list.values).2.stored .kipCrc32 = list.values .kipCrc32 := by
  have hheld := KipState.setConfigValues_holds list.lt hw
  rw [hheld.memory, hheld.file]
  exact ⟨rfl, rfl⟩

/-- saving a list keeps the checksum fresh exactly when the list carries it -/
theorem setConfigValues_fresh_iff (h : Fresh s) (client : C) (w : IniWriter) (list : HocClkConfigValueList) :
    (∀ t, step s (.setConfigValues client w list) = some t → Fresh t) ↔ Timely s (.setConfigValues client w list) := by
  by_cases hd : s.Derived client list
  · by_cases hl : s.sys.config.gLoaded = true
    · have hstep : step s (.setConfigValues client w list) =
          some { s with sys := (s.sys.setConfigValues w list.values).2 } := by
        rw [step_setConfigValues hd, setConfigValuesHandler, if_pos hl]
      by_cases hw : (w.putsection (configValueKeys list.values) s.sys.ini).isSome
      · obtain ⟨hmemory, hfile⟩ := setConfigValues_crc hw
        constructor
        · intro hfresh _ hsome _ _
          obtain ⟨bytes, hbytes⟩ := Option.isSome_iff_exists.1 hsome
          have hnew := (hfresh _ hstep).memory bytes hbytes
          rw [← hmemory, hnew, h.memory bytes hbytes]
        · intro htimely t ht
          obtain rfl := Option.some.inj (hstep.symm.trans ht)
          have hcrc : ∀ bytes, s.lastWritten = some bytes → list.values .kipCrc32 = checksumFile bytes := by
            intro bytes hbytes
            rw [htimely hd (by rw [hbytes]; rfl) hl hw, h.memory bytes hbytes]
          exact ⟨fun bytes hbytes => hmemory.trans (hcrc bytes hbytes), fun bytes hbytes => hfile.trans (hcrc bytes hbytes)⟩
      · rw [KipState.setConfigValues_same hw] at hstep
        exact fresh_iff_of_same h hstep fun _ _ _ hsome => absurd hsome hw
    · apply fresh_iff_of_same h
      · rw [step_setConfigValues hd, setConfigValuesHandler, if_neg hl]
      · exact fun _ _ hloaded => absurd hloaded hl
  · have hstep : step s (.setConfigValues client w list) = none := if_neg hd
    refine iff_of_true ?_ fun hderived => absurd hderived hd
    intro t ht
    rw [hstep] at ht
    cases ht

/-- `SetKipData` keeps it fresh exactly when it saves it or need not -/
theorem setKipData_fresh_iff (h : Fresh s) (hv : ValidValues s.sys.values) (w : IniWriter) (io : KipIo) :
    (∀ t, step s (.setKipData w io) = some t → Fresh t) ↔ Timely s (.setKipData w io) := by
  have hstep : step s (.setKipData w io) =
      some { s with sys := s.sys.setKipData w io, lastWritten := (s.sys.written io).or s.lastWritten } := rfl
  cases hfile : s.sys.written io with
  | none =>
    have hsame := setKipData_unwritten hfile w
    rw [hfile, Option.none_or] at hstep
    refine iff_of_true ?_ ?_
    · intro t ht
      obtain rfl := Option.some.inj (hstep.symm.trans ht)
      exact ⟨fun bytes hbytes => (congrFun hsame.values_eq _).trans (h.memory bytes hbytes),
        fun bytes hbytes => (congrFun hsame.stored_eq _).trans (h.file bytes hbytes)⟩
    · intro bytes hbytes
      rw [hfile] at hbytes
      cases hbytes
  | some file =>
    have hout := (setKipData_written hfile hv w).2
    unfold KipState.SaveOutcome at hout
    rw [hfile, Option.some_or] at hstep
    constructor
    · intro hfresh bytes hbytes hw
      obtain rfl := Option.some.inj (hfile.symm.trans hbytes)
      rw [if_neg hw] at hout
      have ht := hfresh _ hstep
      rw [← hout.values_eq, ← hout.stored_eq]
      exact ⟨ht.memory file rfl, ht.file file rfl⟩
    · intro htimely t ht
      obtain rfl := Option.some.inj (hstep.symm.trans ht)
      have hcrc : (s.sys.setKipData w io).values .kipCrc32 = checksumFile file ∧
          (s.sys.setKipData w io).stored .kipCrc32 = checksumFile file := by
        split_ifs at hout with hw
        · rw [hout.memory, hout.file, Function.update_self]
          exact ⟨rfl, rfl⟩
        · rw [hout.values_eq, hout.stored_eq]
          exact htimely file hfile hw
      constructor
      · intro bytes hbytes
        obtain rfl := Option.some.inj hbytes
        exact hcrc.1
      · intro bytes hbytes
        obtain rfl := Option.some.inj hbytes
        exact hcrc.2

theorem fresh_iff (h : Fresh s) (hv : ValidValues s.sys.values) (e : IpcRequest C) :
    (∀ t, step s e = some t → Fresh t) ↔ Timely s e := by
  cases e with
  | getConfigValues client =>
    constructor
    · intro _
      trivial
    · intro _ t ht
      obtain rfl := Option.some.inj ht
      unfold getConfigValuesHandler
      split_ifs
      · exact ⟨h.memory, h.file⟩
      · exact h
  | setConfigValues client w list => exact setConfigValues_fresh_iff h client w list
  | setKipData w io => exact setKipData_fresh_iff h hv w io

/-- the values in memory stay valid -/
theorem validValues_step (hv : ValidValues s.sys.values) (hstep : step s e = some t) : ValidValues t.sys.values := by
  cases e with
  | getConfigValues client =>
    obtain rfl := Option.some.inj hstep
    unfold getConfigValuesHandler
    split_ifs
    · exact hv
    · exact hv
  | setConfigValues client w list =>
    simp only [step] at hstep
    split_ifs at hstep
    obtain rfl := Option.some.inj hstep
    unfold setConfigValuesHandler
    split_ifs
    · by_cases hw : (w.putsection (configValueKeys list.values) s.sys.ini).isSome
      · rw [(KipState.setConfigValues_holds list.lt hw).memory]
        exact validValues_normValue list.lt
      · rw [KipState.setConfigValues_same hw]
        exact hv
    · exact hv
  | setKipData w io =>
    obtain rfl := Option.some.inj hstep
    dsimp only
    cases hfile : s.sys.written io with
    | none =>
      rw [(setKipData_unwritten hfile w).values_eq]
      exact hv
    | some file =>
      rcases (setKipData_written hfile hv w).2.cases with hheld | hsame
      · rw [hheld.memory]
        exact hv.update_crc file
      · rw [hsame.values_eq]
        exact hv

/-! ## Runs -/

/-- **The checksum is as fresh as the lists that are saved.** For any clients and every order of their requests: the stored
checksum is that of the KIP file as last written, in every state of the run, exactly when every step of the run is
timely. -/
theorem checksum_fresh_iff (hstart : s.lastWritten = none) (hv : ValidValues s.sys.values) (es : List (IpcRequest C)) :
    Throughout step Fresh s es ↔ AllSteps step Timely s es := by
  have h0 := fresh_of_start hstart
  rw [throughout_iff h0]
  apply AllSteps.congr_inv (fun u => Fresh u ∧ ValidValues u.sys.values) allSteps_true ⟨h0, hv⟩
  · intro u e hu _
    exact fresh_iff hu.1 hu.2 e
  · intro u e t hu _ hfresh ht
    exact ⟨hfresh t ht, validValues_step hu.2 ht⟩

/-! ## Witnesses -/

/-- a system with a KIP file of this version, and two clients that have read nothing -/
def sampleIpcState : IpcState Bool where
  sys := sampleKipState (sampleKip 4 240) []
  read := fun _ => []
  lastWritten := none

/-- the values of that system, as both clients read them -/
def sampleList : HocClkConfigValueList where
  values := sampleIpcState.sys.values
  lt := (sampleKipState_valid _ _).lt

/-- that system, when the first client has read its list -/
def readState : IpcState Bool := sampleIpcState.getConfigValuesHandler true

/-- and when the other has had the KIP written -/
def writtenState : IpcState Bool :=
  { readState with
    sys := readState.sys.setKipData .appending ⟨true, 656⟩
    lastWritten := (readState.sys.written ⟨true, 656⟩).or readState.lastWritten }

/-- the settings that are written are those of the file -/
theorem readState_written : readState.sys.written ⟨true, 656⟩ = some (sampleKip 4 240) := by
  refine written_eq_some_iff.2 ⟨sampleKip 4 240, sampleTable 4 240, rfl, sampleKip_read (by decide) (by decide), ?_, ?_⟩
  · decide +kernel
  · decide +kernel

theorem writtenState_valid : ValidValues writtenState.sys.values := by
  have hv : ValidValues readState.sys.values := by
    rw [readState, getConfigValuesHandler_sys]
    exact sampleKipState_valid _ _
  have hout := (setKipData_written readState_written hv .appending).2
  rcases hout.cases with hheld | hsame
  · rw [writtenState, hheld.memory]
    exact hv.update_crc _
  · rw [writtenState, hsame.values_eq]
    exact hv

/-- a list of the values once the KIP has been written, with one setting changed -/
def rereadList : HocClkConfigValueList where
  values := Function.update writtenState.sys.values .uncappedClocks 1
  lt := (writtenState_valid.update .uncappedClocks rfl (by decide)).lt

/-- read, have the KIP written, read again, and save a list derived from what was read then -/
theorem reread_before_save : Throughout step Fresh sampleIpcState
      [.getConfigValues true, .setKipData .appending ⟨true, 656⟩, .getConfigValues true,
        .setConfigValues true .appending rereadList] ∧
    (writtenState.getConfigValuesHandler true).Derived true rereadList := by
  have hsys : (writtenState.getConfigValuesHandler true).sys = writtenState.sys := getConfigValuesHandler_sys _ _
  have hcrc : rereadList.values .kipCrc32 = writtenState.sys.values .kipCrc32 := by
    have hne : HocClkConfigValue.kipCrc32 ≠ .uncappedClocks := by decide
    dsimp only [rereadList]
    rw [Function.update_of_ne hne]
  refine ⟨(checksum_fresh_iff rfl (sampleKipState_valid _ _) _).2 ⟨trivial, ?_⟩, ?_⟩
  · intro t ht
    obtain rfl := Option.some.inj ht
    refine ⟨fun _ _ hw => absurd (IniWriter.appending_succeeds _ _) hw, ?_⟩
    intro t ht
    obtain rfl : writtenState = t := Option.some.inj ht
    refine ⟨trivial, ?_⟩
    intro t ht
    obtain rfl := Option.some.inj ht
    refine ⟨fun _ _ _ _ => ?_, fun _ _ => trivial⟩
    rw [hsys, hcrc]
  · have hloaded : writtenState.sys.config.gLoaded = true := by decide +kernel
    refine ⟨writtenState.sys.values, ?_, hcrc⟩
    rw [getConfigValuesHandler, if_pos hloaded]
    simp

/-- **A list read before a `SetKipData` and saved behind it rolls the checksum back.** One client reads, the other has the
KIP written, and the first saves what it read. -/
theorem old_list_rolls_back : ¬ Throughout step Fresh sampleIpcState
    [.getConfigValues true, .setKipData .appending ⟨true, 656⟩, .setConfigValues true .appending sampleList] := by
  intro h
  have hsteps := (throughout_iff (fresh_of_start rfl)).1 h
  have hderived : writtenState.Derived true sampleList := ⟨_, List.mem_singleton.2 rfl, rfl⟩
  have hlast : Fresh (writtenState.setConfigValuesHandler .appending sampleList) :=
    ((hsteps.2 readState rfl).2 writtenState rfl).1 _ (step_setConfigValues hderived .appending)
  have hfile : (writtenState.setConfigValuesHandler .appending sampleList).lastWritten = some (sampleKip 4 240) := by
    rw [setConfigValuesHandler_lastWritten, writtenState, readState_written]
    rfl
  exact absurd (hlast.memory _ hfile) (by decide +kernel)

end IpcState

end RyazhaClk
