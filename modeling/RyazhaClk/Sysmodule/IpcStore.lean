/-
The configuration behind the requests of the service: what its memory holds, and what the next load of its file finds.

- `inSync_update_iff`: an update keeps memory and file in step unless it gives title 0 a clock.
- `messages_inSync_iff`: in a run of messages and refreshes they are in step throughout exactly when no message does that.
-/
import Mathlib
import RyazhaClk.Sysmodule.ConfigText
import RyazhaClk.Sysmodule.IpcClient

namespace RyazhaClk.IpcService

open Transition Wire

/-! ## Memory and file -/

/-- the values and the clocks of the titles in memory -/
def memory (s : KipState) : Loaded := ⟨s.config.configValues, s.config.gProfileMHzMap, s.config.gProfileCountMap⟩

/-- a load would find what the memory holds -/
structure InSync (s : KipState) : Prop where
  gLoaded : s.config.gLoaded = true
  agrees : memory s = loaded Config.initial s.ini
  noAlias : NoAlias s.ini

theorem loaded_eq (c : Config) (f : ConfigFile) : loaded c f = loaded Config.initial f := by
  have hvalues : (c.load f).configValues = (Config.initial.load f).configValues := by
    funext kval
    rw [Config.load_configValues, Config.load_configValues]
  rw [loaded, loaded, hvalues, load_clocks, load_clocks, load_counts, load_counts]

variable {s t : KipState} {w : IniWriter} {io : KipIo}

theorem InSync.congr (h : InSync s) (hst : KipState.SameConfig s t) : InSync t := by
  obtain ⟨hconfig, hini⟩ := hst
  refine ⟨?_, ?_, ?_⟩
  · rw [hconfig]
    exact h.gLoaded
  · rw [memory, hconfig, hini]
    exact h.agrees
  · rw [hini]
    exact h.noAlias

/-- what a load finds is valid -/
theorem InSync.validValues (h : InSync s) : ValidValues s.values := by
  have hvalues : s.values = (Config.initial.load s.ini).configValues := congrArg Loaded.configValues h.agrees
  rw [hvalues]
  exact validValues_load _ _

theorem InSync.setConfigValues (h : InSync s) {values : HocClkConfigValue → ℕ} (h64 : ∀ kval, values kval < 2 ^ 64) :
    InSync (s.setConfigValues w values).2 := by
  unfold KipState.setConfigValues
  cases hput : w.putsection (configValueKeys values) s.ini with
  | none => exact h
  | some ini =>
    have hin : (ConfigPut.setValues values).InRange := h64
    refine ⟨h.gLoaded, ?_, h.noAlias.put hin (w.replaces hput)⟩
    dsimp only
    rw [loaded_put hin (w.replaces hput) h.noAlias, ← h.agrees]
    rfl

theorem InSync.setKipData (h : InSync s) : InSync (s.setKipData w io) := by
  unfold KipState.setKipData
  rcases s.kip with _ | bytes
  · exact h.congr ⟨rfl, rfl⟩
  dsimp only
  rcases custReadTable bytes with _ | table
  · exact h.congr ⟨rfl, rfl⟩
  dsimp only
  cases kipGate table with
  | outdatedKip => exact h.congr ⟨rfl, rfl⟩
  | outdatedSysmodule => exact h.congr ⟨rfl, rfl⟩
  | accepted =>
    dsimp only
    unfold KipState.storeKip
    extract_lets written s1 s2 saved
    have h2 : InSync s2 := by
      unfold s2
      split_ifs
      · exact h.congr ⟨rfl, rfl⟩
      · exact h.congr ⟨rfl, rfl⟩
    have hsaved : InSync saved.2 := h2.setConfigValues (h2.validValues.update_crc written.2).lt
    split_ifs
    · exact hsaved
    · exact hsaved.congr (KipState.sameConfig_writeNotification _ _)

theorem InSync.refresh (h : InSync s) : InSync s.refresh := by
  unfold KipState.refresh Config.refresh
  split_ifs
  · exact ⟨rfl, loaded_eq s.config s.ini, h.noAlias⟩
  · exact h

/-! ## One update -/

/-- the state behind a successful `SetProfiles` -/
def setTitle (s : KipState) (ini : ConfigFile) (tid : ℕ) (table : ProfileTable) : KipState :=
  { s with config := (s.config.setProfiles true tid table true).2, ini }

theorem memory_setTitle (s : KipState) (ini : ConfigFile) (tid : ℕ) (table : ProfileTable) :
    memory (setTitle s ini tid table) = { memory s with
      gProfileMHzMap := Function.update (memory s).gProfileMHzMap tid table
      gProfileCountMap := Function.update (memory s).gProfileCountMap tid table.clocks } := by
  unfold memory setTitle
  rw [setProfiles_eq]

/-- no file has a clock of title 0 -/
theorem InSync.title_zero (h : InSync s) :
    (memory s).gProfileMHzMap 0 = (fun _ _ => 0) ∧ (memory s).gProfileCountMap 0 = 0 := by
  rw [h.agrees, loaded]
  dsimp only
  rw [load_clocks, load_counts]
  constructor
  · funext p m
    exact lastMHz_zero _ p m
  · dsimp only
    rw [clockCount_zero, Nat.zero_mod]

theorem inSync_setTitle_iff (h : InSync s) {ini : ConfigFile} {tid : ℕ} {table : ProfileTable} (h64 : tid < 2 ^ 64)
    (h32 : ∀ p m, table p m < 2 ^ 32) (hput : Replaced (formatTid tid) (profileKeys table) s.ini ini) :
    InSync (setTitle s ini tid table) ↔ (tid = 0 → ∀ p m, table p m = 0) := by
  have hin : (ConfigPut.setProfiles tid table).InRange := ⟨h64, h32⟩
  have hfile : loaded Config.initial ini = (memory s).put (.setProfiles tid table) := by
    rw [loaded_put hin hput h.noAlias, ← h.agrees]
  have hloaded : (setTitle s ini tid table).config.gLoaded = true := by
    unfold setTitle
    rw [setProfiles_eq]
    exact h.gLoaded
  have hiff : InSync (setTitle s ini tid table) ↔
      memory (setTitle s ini tid table) = (memory s).put (.setProfiles tid table) :=
    ⟨fun ht => ht.agrees.trans hfile, fun hagrees => ⟨hloaded, hagrees.trans hfile.symm, h.noAlias.put hin hput⟩⟩
  rw [hiff, memory_setTitle, Loaded.put]
  by_cases htid : tid = 0
  · subst htid
    obtain ⟨hmap, hcount⟩ := h.title_zero
    rw [if_pos rfl]
    constructor
    · intro hagrees _ p m
      have htable : Function.update (memory s).gProfileMHzMap 0 table 0 = (memory s).gProfileMHzMap 0 :=
        congrFun (congrArg Loaded.gProfileMHzMap hagrees) 0
      rw [hmap, Function.update_self] at htable
      exact congrFun (congrFun htable p) m
    · intro hzero
      have htable : table = (memory s).gProfileMHzMap 0 := by
        rw [hmap]
        exact funext fun p => funext fun m => hzero rfl p m
      have hclocks : table.clocks = (memory s).gProfileCountMap 0 := by rw [clocks_eq_zero (hzero rfl), hcount]
      rw [hclocks, htable, Function.update_eq_self, Function.update_eq_self]
  · rw [if_neg htid]
    exact iff_of_true rfl fun h0 => absurd h0 htid

variable {x : Surroundings} {service service' : Service} {u : Update}

/-- an update that is accepted and gives title 0 a clock -/
def SetsTitleZero (x : Surroundings) (service : Service) (u : Update) : Prop :=
  ∃ list s', u = .setProfiles 0 list ∧ (∃ pm, list pm ≠ 0) ∧ u.apply x service = .ok s'

theorem setProfiles_ok {tid : UInt64} {list : HocClkTitleProfileList} (hset : setProfiles x service tid list = .ok service') :
    ∃ ini, x.writer.putsection (formatTid tid.toNat) (profileKeys list.table) service.sys.ini = some ini ∧
      service'.sys = setTitle service.sys ini tid.toNat list.table := by
  unfold setProfiles at hset
  split_ifs at hset
  cases hput : x.writer.putsection (formatTid tid.toNat) (profileKeys list.table) service.sys.ini with
  | none =>
    rw [hput] at hset
    cases hset
  | some ini =>
    rw [hput] at hset
    obtain rfl := Except.ok.inj hset
    exact ⟨ini, rfl, rfl⟩

theorem setOverride_ok {module hz : UInt32} (hset : setOverride service module hz = .ok service') :
    ∃ m, service'.sys = { service.sys with config := service.sys.config.setOverrideHz m hz.toNat } := by
  unfold setOverride at hset
  cases hmodule : moduleOf module with
  | none =>
    rw [hmodule] at hset
    cases hset
  | some m =>
    rw [hmodule] at hset
    obtain rfl := Except.ok.inj hset
    exact ⟨m, rfl⟩

theorem setConfigValues_ok {list : HocClkConfigValue → UInt64}
    (hset : setConfigValuesHandler x service list = .ok service') :
    service'.sys = (service.sys.setConfigValues x.writer.values fun kval => (list kval).toNat).2 := by
  unfold setConfigValuesHandler at hset
  dsimp only at hset
  split_ifs at hset
  obtain rfl := Except.ok.inj hset
  rfl

theorem inSync_update_iff (h : InSync service.sys) (hu : u.apply x service = .ok service') :
    InSync service'.sys ↔ ¬ SetsTitleZero x service u := by
  cases u with
  | exit =>
    have hother : ¬ SetsTitleZero x service (.exit) := by
      rintro ⟨_, _, ⟨⟩, _⟩
    obtain rfl := Except.ok.inj hu
    exact iff_of_true h hother
  | setProfiles tid list =>
    obtain ⟨ini, hput, hsys⟩ := setProfiles_ok hu
    have h32 : ∀ p m, list.table p m < 2 ^ 32 := fun p m => (list (p, m)).toNat_lt
    rw [hsys, inSync_setTitle_iff h tid.toNat_lt h32 (x.writer.replaces hput)]
    constructor
    · rintro hzero ⟨list', _, heq, ⟨pm, hpm⟩, -⟩
      obtain ⟨rfl, rfl⟩ := Update.setProfiles.inj heq
      exact hpm (UInt32.toNat_inj.1 (hzero rfl pm.1 pm.2))
    · intro hspares htid p m
      by_contra hrate
      have htid0 : tid = 0 := UInt64.toNat_inj.1 htid
      refine hspares ⟨list, service', by rw [htid0], ⟨(p, m), fun h0 => hrate ?_⟩, hu⟩
      show (list (p, m)).toNat = 0
      rw [h0]
      rfl
  | setEnabled enabled =>
    have hother : ¬ SetsTitleZero x service (.setEnabled enabled) := by
      rintro ⟨_, _, ⟨⟩, _⟩
    obtain rfl := Except.ok.inj hu
    exact iff_of_true h hother
  | setOverride module hz =>
    have hother : ¬ SetsTitleZero x service (.setOverride module hz) := by
      rintro ⟨_, _, ⟨⟩, _⟩
    obtain ⟨m, hsys⟩ := setOverride_ok hu
    rw [hsys]
    exact iff_of_true ⟨h.gLoaded, h.agrees, h.noAlias⟩ hother
  | setConfigValues list =>
    have hother : ¬ SetsTitleZero x service (.setConfigValues list) := by
      rintro ⟨_, _, ⟨⟩, _⟩
    rw [setConfigValues_ok hu]
    exact iff_of_true (h.setConfigValues fun kval => (list kval).toNat_lt) hother
  | setKipData =>
    have hother : ¬ SetsTitleZero x service (.setKipData) := by
      rintro ⟨_, _, ⟨⟩, _⟩
    obtain rfl := Except.ok.inj hu
    exact iff_of_true h.setKipData hother

/-! ## Runs of messages and refreshes -/

inductive StoreEvent where
  | message (e : Arrival)
  | refresh

def storeStep (s : Service) : StoreEvent → Option Service
  | .message e => serviceStep s e
  | .refresh => some { s with sys := s.sys.refresh }

/-- memory and file of the running service -/
def Service.InSync (s : Service) : Prop := IpcService.InSync s.sys

/-- no title 0 is given a clock -/
def SparesTitleZero (s : Service) : StoreEvent → Prop
  | .message e => ∀ u, e.message.update = some u → ¬ SetsTitleZero e.surroundings s u
  | .refresh => True

theorem inSync_step_iff (h : service.InSync) (e : StoreEvent) :
    (∀ t, storeStep service e = some t → t.InSync) ↔ SparesTitleZero service e := by
  cases e with
  | refresh =>
    refine iff_of_true ?_ trivial
    rintro _ ⟨⟩
    exact InSync.refresh h
  | message e =>
    have hstep : storeStep service (.message e) = some (service.after e.surroundings e.message.update) :=
      serviceStep_eq service e
    have hspares : SparesTitleZero service (.message e) ↔
        ∀ u, e.message.update = some u → ¬ SetsTitleZero e.surroundings service u := Iff.rfl
    rw [hstep, hspares]
    simp only [Option.some.injEq, forall_eq']
    cases e.message.update with
    | none => exact iff_of_true h (by simp)
    | some u =>
      cases hu : u.apply e.surroundings service with
      | error err =>
        rw [Service.after_error hu]
        refine iff_of_true h ?_
        rintro _ ⟨⟩ ⟨_, _, _, _, hok⟩
        rw [hu] at hok
        cases hok
      | ok t =>
        rw [Service.after_ok hu]
        simp only [Option.some.injEq, forall_eq']
        exact inSync_update_iff h hu

/-- **Memory and file.** Whatever messages arrive and whenever the file is read again, the memory holds what a load would
find, in every state of the run, exactly when no message that is accepted gives title 0 a clock. -/
theorem messages_inSync_iff (h : service.InSync) (events : List StoreEvent) :
    Throughout storeStep Service.InSync service events ↔ AllSteps storeStep SparesTitleZero service events := by
  rw [throughout_iff h]
  apply AllSteps.congr_inv Service.InSync allSteps_true h
  · intro s e hs _
    exact inSync_step_iff hs e
  · intro s e t _ _ hnext ht
    exact hnext t ht

/-! ## A sample run -/

theorem sampleService_inSync : sampleService.InSync := by
  refine ⟨rfl, rfl, ?_⟩
  intro e he k hk
  have hsect : e.sect = CONFIG_VAL_SECTION := sect_of_mem he
  rw [clockEntry, if_pos hsect] at hk
  cases hk

def sampleMessage : IpcMessage := messageOf (hocclkIpcSetProfiles 0x0100F2C0115B6000 (fun _ => 1020) 7)

theorem sampleMessage_update : sampleMessage.update = some (.setProfiles 0x0100F2C0115B6000 fun _ => 1020) :=
  update_setProfiles (carries_messageOf _)

/-- the clocks of a title are set, and the file read again -/
def sampleEvents : List StoreEvent := [.message ⟨sampleSurroundings, Vector.replicate _ 0, sampleMessage⟩, .refresh]

theorem sampleEvents_inSync : Throughout storeStep Service.InSync sampleService sampleEvents := by
  refine (messages_inSync_iff sampleService_inSync sampleEvents).2 ⟨?_, fun _ _ => ⟨trivial, fun _ _ => trivial⟩⟩
  intro u hu
  rw [sampleMessage_update] at hu
  rintro ⟨list, _, rfl, _⟩
  have htid := (Update.setProfiles.inj (Option.some.inj hu)).1
  exact absurd htid (by decide)

end RyazhaClk.IpcService
