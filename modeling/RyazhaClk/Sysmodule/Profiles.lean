/-
The title profiles: `GetProfiles`, `GetProfileCount` and `SetProfiles`, the requests that reach them, and the file they
are kept in.

- `setProfiles_roundTrip_iff`: what is set is found in memory, and behind a reload exactly when the title can be parsed,
  no other section of the file speaks of it, and the memory knew the rest of the file.
- `profileCount_iff`: in every state of a run the count of a title is its number of clocks exactly when every file loaded
  names each clock once.
- `getAutoClockHz_iff`: a lookup answers the first set clock of the fallback order exactly when its rate in Hz is below
  2^32.
-/
import Mathlib.Tactic
import RyazhaClk.Lib.Transition
import RyazhaClk.Sysmodule.ConfigWrite

namespace RyazhaClk

open Transition

/-! ## Model -/

/-- the profiles and modules in the order of the loops over a title's table -/
def profilePairs : List (HocClkProfile × HocClkModule) :=
  HocClkProfile.all.flatMap fun p => HocClkModule.all.map fun m => (p, m)

/-- the rates of a title, 0 for a clock that is not set (`HocClkTitleProfileList`) -/
abbrev ProfileTable := HocClkProfile → HocClkModule → ℕ

/-- the number of clocks of a table -/
def ProfileTable.clocks (table : ProfileTable) : ℕ := profilePairs.countP fun pm => table pm.1 pm.2 != 0

/-- the key of a clock in its title's section -/
def profileKey (p : HocClkProfile) (m : HocClkModule) : String := hocclkFormatProfile p ++ "_" ++ hocclkFormatModule m

/-- the keys and texts `SetProfiles` writes -/
def profileKeys (table : ProfileTable) : List (String × String) :=
  (profilePairs.filter fun pm => table pm.1 pm.2 != 0).map fun pm =>
    (profileKey pm.1 pm.2, toString (table pm.1 pm.2))

namespace Config

def getProfiles (c : Config) (tid : ℕ) : ProfileTable := fun p m => c.findClockMHz tid m p

def getProfileCount (c : Config) (tid : ℕ) : ℕ := c.gProfileCountMap tid

/-- `SetProfiles`; `written` is the answer of `ini_putsection` on `profileKeys` -/
def setProfiles (c : Config) (written : Bool) (tid : ℕ) (table : ProfileTable) (immediate : Bool) : Bool × Config :=
  let numProfiles := table.clocks % 2 ^ 8
  if !written then (false, c)
  else (true, if immediate then
    { c with
      gProfileCountMap := Function.update c.gProfileCountMap tid numProfiles
      gProfileMHzMap := Function.update c.gProfileMHzMap tid table } else c)

end Config

/-! ## Requests -/

inductive HocClkError where
  | configNotLoaded
  | configSaveFailed
deriving DecidableEq

/-- the requests are answered while a configuration is loaded (`HasProfilesLoaded`) -/
def ipcGetProfileCount (c : Config) (tid : ℕ) : Except HocClkError ℕ :=
  if !c.gLoaded then .error .configNotLoaded else .ok (c.getProfileCount tid)

def ipcGetProfiles (c : Config) (tid : ℕ) : Except HocClkError ProfileTable :=
  if !c.gLoaded then .error .configNotLoaded else .ok (c.getProfiles tid)

def ipcSetProfiles (c : Config) (written : Bool) (tid : ℕ) (table : ProfileTable) : Except HocClkError Config :=
  if !c.gLoaded then .error .configNotLoaded
  else
    let r := c.setProfiles written tid table true
    if r.1 then .ok r.2 else .error .configSaveFailed

theorem ipcSetProfiles_ok_iff {c c' : Config} {written : Bool} {tid : ℕ} {table : ProfileTable} :
    ipcSetProfiles c written tid table = .ok c' ↔
      c.gLoaded = true ∧ written = true ∧ c' = (c.setProfiles true tid table true).2 := by
  unfold ipcSetProfiles Config.setProfiles
  cases c.gLoaded <;> cases written <;> simp [eq_comm]

/-! ## Tables -/

theorem profilePairs_length : profilePairs.length = 25 := rfl

theorem mem_profilePairs (p : HocClkProfile) (m : HocClkModule) : (p, m) ∈ profilePairs := by
  cases p <;> cases m <;> decide

/-- the 8-bit counter of `SetProfiles` does not overflow -/
theorem ProfileTable.clocks_le (table : ProfileTable) : table.clocks ≤ 25 := by
  rw [← profilePairs_length]
  exact List.countP_le_length

theorem ProfileTable.clocks_mod (table : ProfileTable) : table.clocks % 2 ^ 8 = table.clocks :=
  Nat.mod_eq_of_lt (lt_of_le_of_lt table.clocks_le (by decide))

/-- what a successful `SetProfiles` leaves in memory -/
theorem setProfiles_eq (c : Config) (tid : ℕ) (table : ProfileTable) :
    (c.setProfiles true tid table true).2 = { c with
      gProfileCountMap := Function.update c.gProfileCountMap tid table.clocks
      gProfileMHzMap := Function.update c.gProfileMHzMap tid table } := by
  unfold Config.setProfiles
  rw [table.clocks_mod]
  rfl

theorem parseClockKey_profileKey (p : HocClkProfile) (m : HocClkModule) :
    Config.parseClockKey (profileKey p m) = some (p, m) := by
  cases p <;> cases m <;> decide +kernel

/-! ## A title's section, read back -/

theorem formatTid_ne_values {tid : ℕ} (h : tid < 2 ^ 64) : formatTid tid ≠ CONFIG_VAL_SECTION := by
  intro heq
  have hlen := formatTid_length h
  rw [heq] at hlen
  exact absurd hlen (by decide)

theorem clockEntry_profileKey {tid mhz : ℕ} (h64 : tid < 2 ^ 64) (h32 : mhz < 2 ^ 32) (htid : tid ≠ 0) (hmhz : mhz ≠ 0)
    (p : HocClkProfile) (m : HocClkModule) :
    clockEntry ⟨formatTid tid, profileKey p m, toString mhz⟩ = some ⟨tid, p, m, mhz, htid, hmhz⟩ := by
  have hread : strtoul (toString mhz) 10 % 2 ^ 32 = mhz := by
    rw [show strtoul (toString mhz) 10 = mhz from strtoul_repr (h32.trans (by decide)) (.inr rfl)]
    exact Nat.mod_eq_of_lt h32
  exact clockEntry_eq_some_iff.2 ⟨formatTid_ne_values h64, formatTid_length h64, strtoul_formatTid h64,
    parseClockKey_profileKey p m, hread⟩

/-- every entry of the section, however its name is cased, speaks of the title -/
theorem clockEntry_sameSection {tid : ℕ} (h64 : tid < 2 ^ 64) {e : IniEntry}
    (hs : sameSection e.sect (formatTid tid) = true) {k : TitleClock} (hk : clockEntry e = some k) : k.tid = tid := by
  obtain ⟨-, -, htid, -⟩ := clockEntry_eq_some_iff.1 hk
  exact htid.symm.trans (strtoul_sameCase h64 (of_decide_eq_true hs))

/-- the clocks of the section `SetProfiles` writes -/
theorem mem_clocks_profileKeys {tid : ℕ} (h64 : tid < 2 ^ 64) {table : ProfileTable} (h32 : ∀ p m, table p m < 2 ^ 32)
    (htid : tid ≠ 0) {k : TitleClock} :
    k ∈ (sectionEntries (formatTid tid) (profileKeys table)).filterMap clockEntry ↔
      k.tid = tid ∧ table k.profile k.module = k.mhz := by
  constructor
  · intro hk
    obtain ⟨e, he, hke⟩ := List.mem_filterMap.1 hk
    obtain ⟨kv, hkv, rfl⟩ := List.mem_map.1 he
    obtain ⟨pm, hpm, rfl⟩ := List.mem_map.1 hkv
    have hne : table pm.1 pm.2 ≠ 0 := by simpa using (List.mem_filter.1 hpm).2
    rw [clockEntry_profileKey h64 (h32 pm.1 pm.2) htid hne] at hke
    obtain rfl := Option.some.inj hke
    exact ⟨rfl, rfl⟩
  · rintro ⟨rfl, hmhz⟩
    have hne : table k.profile k.module ≠ 0 := by
      rw [hmhz]
      exact k.mhz_ne
    refine List.mem_filterMap.2 ⟨⟨formatTid k.tid, profileKey k.profile k.module, toString (table k.profile k.module)⟩,
      List.mem_map.2 ⟨_, List.mem_map.2 ⟨(k.profile, k.module), ?_, rfl⟩, rfl⟩, ?_⟩
    · exact List.mem_filter.2 ⟨mem_profilePairs _ _, by simpa using hne⟩
    · rw [clockEntry_profileKey h64 (h32 _ _) k.tid_ne hne]
      simp only [hmhz]

theorem lastMHz_profileKeys {tid : ℕ} (h64 : tid < 2 ^ 64) {table : ProfileTable} (h32 : ∀ p m, table p m < 2 ^ 32)
    (htid : tid ≠ 0) (p : HocClkProfile) (m : HocClkModule) :
    lastMHz (sectionEntries (formatTid tid) (profileKeys table)) tid p m = table p m := by
  apply lastMHz_eq_of_forall
  · intro k hk hn
    have hn' : k.tid = tid ∧ k.profile = p ∧ k.module = m := of_decide_eq_true hn
    obtain ⟨-, rfl, rfl⟩ := hn'
    exact ((mem_clocks_profileKeys h64 h32 htid).1 hk).2.symm
  · intro hne
    refine ⟨⟨tid, p, m, table p m, htid, hne⟩, (mem_clocks_profileKeys h64 h32 htid).2 ⟨rfl, rfl⟩, ?_⟩
    simp [TitleClock.names]

theorem clockCount_profileKeys {tid : ℕ} (h64 : tid < 2 ^ 64) {table : ProfileTable} (h32 : ∀ p m, table p m < 2 ^ 32)
    (htid : tid ≠ 0) : clockCount (sectionEntries (formatTid tid) (profileKeys table)) tid = table.clocks := by
  unfold clockCount sectionEntries profileKeys
  rw [List.map_map, List.countP_filterMap, List.countP_map]
  calc
    _ = (profilePairs.filter fun pm => table pm.1 pm.2 != 0).length := by
      rw [List.countP_eq_length]
      intro pm hpm
      have hne : table pm.1 pm.2 ≠ 0 := by simpa using (List.mem_filter.1 hpm).2
      simp only [Function.comp_apply, clockEntry_profileKey h64 (h32 pm.1 pm.2) htid hne]
      simp
    _ = table.clocks := List.countP_eq_length_filter.symm

/-! ## Setting a title and reloading -/

/-- what a successful `SetProfiles` request is to leave: `f'` is the file behind it -/
structure RoundTrip (tid : ℕ) (table : ProfileTable) (c c' : Config) (f' : ConfigFile) : Prop where
  profiles : c'.getProfiles tid = table
  count : c'.getProfileCount tid = table.clocks
  others : ∀ t, t ≠ tid → c'.getProfiles t = c.getProfiles t ∧ c'.getProfileCount t = c.getProfileCount t
  values : c'.configValues = c.configValues
  reloadedMap : (c'.load f').gProfileMHzMap = c'.gProfileMHzMap
  reloadedCounts : (c'.load f').gProfileCountMap = c'.gProfileCountMap

/-- the memory has every other title as a load of the file finds it -/
def KnowsOthers (tid : ℕ) (c : Config) (f : ConfigFile) : Prop :=
  ∀ t, t ≠ tid → c.gProfileMHzMap t = (c.load f).gProfileMHzMap t ∧
    c.gProfileCountMap t = (c.load f).gProfileCountMap t

/-- the entries left in front of the title's section and behind it say nothing else about the title: what stands behind
repeats the table, what stands in front names set clocks only, and their number vanishes in the counter -/
structure RestInert (tid : ℕ) (table : ProfileTable) (pre post : List IniEntry) : Prop where
  count : clockCount (pre ++ post) tid % 2 ^ 8 = 0
  behind : ∀ p m, lastMHz post tid p m = 0 ∨ lastMHz post tid p m = table p m
  front : ∀ p m, table p m = 0 → lastMHz pre tid p m = 0

theorem load_clocks (c : Config) (f : ConfigFile) : (c.load f).gProfileMHzMap = lastMHz f.contents := by
  funext tid p m
  exact c.load_gProfileMHzMap f tid p m

theorem load_counts (c : Config) (f : ConfigFile) :
    (c.load f).gProfileCountMap = fun tid => clockCount f.contents tid % 2 ^ 8 := by
  funext tid
  exact c.load_gProfileCountMap f tid

section Reload

variable {c : Config} {tid : ℕ} {table : ProfileTable} {f f' : ConfigFile} {pre post : List IniEntry}

/-- the clocks of another title behind the write are those of the file in front of it -/
theorem clocksOf_other (h64 : tid < 2 ^ 64) (hrest : f.contents.filter (fun e => !sameSection e.sect (formatTid tid)) =
    pre ++ post) {t : ℕ} (ht : t ≠ tid) :
    clocksOf (pre ++ sectionEntries (formatTid tid) (profileKeys table) ++ post) t = clocksOf f.contents t := by
  have hnew : clocksOf (sectionEntries (formatTid tid) (profileKeys table)) t = [] := by
    rw [clocksOf, List.filter_eq_nil_iff]
    intro k hk
    obtain ⟨e, he, hke⟩ := List.mem_filterMap.1 hk
    have htid := clockEntry_sameSection h64 (by simp [sect_of_mem he, sameSection]) hke
    simpa [htid] using ht.symm
  have hkeep : clocksOf (f.contents.filter fun e => !sameSection e.sect (formatTid tid)) t = clocksOf f.contents t := by
    apply clocksOf_filter
    intro e _ hs k hk
    rw [clockEntry_sameSection h64 (by simpa using hs) hk]
    exact ht.symm
  rw [← hkeep, hrest]
  unfold clocksOf at hnew ⊢
  simp only [List.filterMap_append, List.filter_append, hnew, List.append_nil]

/-- title 0 has no clocks in any file -/
theorem clocksOf_zero (es : List IniEntry) : clocksOf es 0 = [] := by
  rw [clocksOf, List.filter_eq_nil_iff]
  intro k _
  simpa using k.tid_ne

/-- entries that do not speak of a title -/
theorem lastMHz_of_nil {es : List IniEntry} {tid : ℕ} (h : clocksOf es tid = []) (p : HocClkProfile)
    (m : HocClkModule) : lastMHz es tid p m = 0 := by
  rw [lastMHz_eq_find, h]
  rfl

theorem clockCount_of_nil {es : List IniEntry} {tid : ℕ} (h : clocksOf es tid = []) : clockCount es tid = 0 := by
  rw [clockCount_eq_length, h]
  rfl

theorem lastMHz_zero (es : List IniEntry) (p : HocClkProfile) (m : HocClkModule) : lastMHz es 0 p m = 0 :=
  lastMHz_of_nil (clocksOf_zero es) p m

theorem clockCount_zero (es : List IniEntry) : clockCount es 0 = 0 := clockCount_of_nil (clocksOf_zero es)

/-- the title's clocks behind a write, where it can be parsed -/
theorem lastMHz_rewritten (h64 : tid < 2 ^ 64) (h32 : ∀ p m, table p m < 2 ^ 32) (htid : tid ≠ 0) (p : HocClkProfile)
    (m : HocClkModule) :
    lastMHz (pre ++ sectionEntries (formatTid tid) (profileKeys table) ++ post) tid p m = table p m ↔
      (lastMHz post tid p m = 0 ∨ lastMHz post tid p m = table p m) ∧ (table p m = 0 → lastMHz pre tid p m = 0) := by
  rw [lastMHz_append, lastMHz_append, lastMHz_profileKeys h64 h32 htid]
  split_ifs with hpost htable
  · simp [hpost, htable]
  · simp [hpost, htable]
  · constructor
    · intro h
      refine ⟨.inr h, fun h0 => absurd (h.trans h0) hpost⟩
    · rintro ⟨h | h, -⟩
      · exact absurd h hpost
      · exact h

theorem clockCount_rewritten (h64 : tid < 2 ^ 64) (h32 : ∀ p m, table p m < 2 ^ 32) (htid : tid ≠ 0) :
    clockCount (pre ++ sectionEntries (formatTid tid) (profileKeys table) ++ post) tid % 2 ^ 8 = table.clocks ↔
      clockCount (pre ++ post) tid % 2 ^ 8 = 0 := by
  have hle := table.clocks_le
  rw [clockCount_append, clockCount_append, clockCount_append, clockCount_profileKeys h64 h32 htid]
  omega

theorem clocks_eq_zero (h : ∀ p m, table p m = 0) : table.clocks = 0 := by
  simp [ProfileTable.clocks, h]

/-- what a reload finds of the title itself -/
theorem title_reloads_iff (h64 : tid < 2 ^ 64) (h32 : ∀ p m, table p m < 2 ^ 32) (pre post : List IniEntry) :
    ((∀ p m, lastMHz (pre ++ sectionEntries (formatTid tid) (profileKeys table) ++ post) tid p m = table p m) ∧
      clockCount (pre ++ sectionEntries (formatTid tid) (profileKeys table) ++ post) tid % 2 ^ 8 = table.clocks) ↔
    (tid ≠ 0 ∨ ∀ p m, table p m = 0) ∧ RestInert tid table pre post := by
  by_cases htid : tid = 0
  · subst htid
    simp only [lastMHz_zero, clockCount_zero]
    constructor
    · rintro ⟨htable, -⟩
      exact ⟨.inr fun p m => (htable p m).symm, by simp [clockCount_zero], fun p m => .inl (lastMHz_zero _ p m),
        fun p m _ => lastMHz_zero _ p m⟩
    · rintro ⟨htid | htable, -⟩
      · exact absurd rfl htid
      · exact ⟨fun p m => (htable p m).symm, (clocks_eq_zero htable).symm⟩
  · simp only [lastMHz_rewritten h64 h32 htid, clockCount_rewritten h64 h32 htid]
    constructor
    · rintro ⟨hmap, hcount⟩
      exact ⟨.inl htid, hcount, fun p m => (hmap p m).1, fun p m => (hmap p m).2⟩
    · rintro ⟨-, hrest⟩
      exact ⟨fun p m => ⟨hrest.behind p m, hrest.front p m⟩, hrest.count⟩

/-- a map agrees with the file once it does on the title and on the others -/
theorem eq_iff_title_others {α : Type*} {g h : ℕ → α} (tid : ℕ) :
    g = h ↔ g tid = h tid ∧ ∀ t, t ≠ tid → g t = h t := by
  constructor
  · rintro rfl
    exact ⟨rfl, fun _ _ => rfl⟩
  · rintro ⟨htitle, hothers⟩
    funext t
    by_cases ht : t = tid
    · rw [ht, htitle]
    · exact hothers t ht

/-- a reload finds the map that was set exactly when it finds the title's table and the memory knew the others -/
theorem reloadedMap_iff (h64 : tid < 2 ^ 64)
    (hrest : f.contents.filter (fun e => !sameSection e.sect (formatTid tid)) = pre ++ post) :
    lastMHz (pre ++ sectionEntries (formatTid tid) (profileKeys table) ++ post) =
        Function.update c.gProfileMHzMap tid table ↔
      (∀ p m, lastMHz (pre ++ sectionEntries (formatTid tid) (profileKeys table) ++ post) tid p m = table p m) ∧
        ∀ t, t ≠ tid → c.gProfileMHzMap t = (c.load f).gProfileMHzMap t := by
  rw [eq_iff_title_others tid]
  refine and_congr ?_ (forall₂_congr fun t ht => ?_)
  · simp [funext_iff]
  · rw [load_clocks, lastMHz_congr (clocksOf_other h64 hrest ht), Function.update_of_ne ht]
    exact eq_comm

theorem reloadedCounts_iff (h64 : tid < 2 ^ 64)
    (hrest : f.contents.filter (fun e => !sameSection e.sect (formatTid tid)) = pre ++ post) :
    (fun t => clockCount (pre ++ sectionEntries (formatTid tid) (profileKeys table) ++ post) t % 2 ^ 8) =
        Function.update c.gProfileCountMap tid table.clocks ↔
      clockCount (pre ++ sectionEntries (formatTid tid) (profileKeys table) ++ post) tid % 2 ^ 8 = table.clocks ∧
        ∀ t, t ≠ tid → c.gProfileCountMap t = (c.load f).gProfileCountMap t := by
  rw [eq_iff_title_others tid]
  refine and_congr ?_ (forall₂_congr fun t ht => ?_)
  · simp
  · rw [Config.load_gProfileCountMap, clockCount_congr (clocksOf_other h64 hrest ht), Function.update_of_ne ht]
    exact eq_comm

/-- **The round trip of a title.** Whatever `SetProfiles` accepts is found in memory, and nothing else in memory moves. A
reload finds the same exactly when the title is not 0 (or the table is empty), the memory knew the other titles of the
file, and the entries left in the file say nothing else about the title. -/
theorem setProfiles_roundTrip_iff {c' : Config} (h64 : tid < 2 ^ 64) (h32 : ∀ p m, table p m < 2 ^ 32)
    (hset : ipcSetProfiles c true tid table = .ok c') (hfile : f'.mtime ≠ 0)
    (hrest : f.contents.filter (fun e => !sameSection e.sect (formatTid tid)) = pre ++ post)
    (hput : f'.entries = pre ++ sectionEntries (formatTid tid) (profileKeys table) ++ post) :
    RoundTrip tid table c c' f' ↔
      (tid ≠ 0 ∨ ∀ p m, table p m = 0) ∧ KnowsOthers tid c f ∧ RestInert tid table pre post := by
  obtain ⟨hloaded, -, hc'⟩ := ipcSetProfiles_ok_iff.1 hset
  rw [setProfiles_eq] at hc'
  subst hc'
  have hcontents : f'.contents = pre ++ sectionEntries (formatTid tid) (profileKeys table) ++ post :=
    (if_neg hfile).trans hput
  have hmap := @reloadedMap_iff c tid table f pre post h64 hrest
  have hcount := @reloadedCounts_iff c tid table f pre post h64 hrest
  have htitle := title_reloads_iff h64 h32 pre post
  rw [← hcontents] at hmap hcount htitle
  constructor
  · intro h
    obtain ⟨hm, hmo⟩ := hmap.1 ((load_clocks _ _).symm.trans h.reloadedMap)
    obtain ⟨hc, hco⟩ := hcount.1 ((load_counts _ _).symm.trans h.reloadedCounts)
    obtain ⟨hparsed, hinert⟩ := htitle.1 ⟨hm, hc⟩
    exact ⟨hparsed, fun t ht => ⟨hmo t ht, hco t ht⟩, hinert⟩
  · rintro ⟨hparsed, hothers, hinert⟩
    obtain ⟨hm, hc⟩ := htitle.2 ⟨hparsed, hinert⟩
    constructor
    case profiles =>
      funext p m
      simp [Config.getProfiles, Config.findClockMHz, hloaded]
    case count => simp [Config.getProfileCount]
    case others =>
      intro t ht
      constructor
      · funext p m
        simp [Config.getProfiles, Config.findClockMHz, Function.update_of_ne ht]
      · simp [Config.getProfileCount, Function.update_of_ne ht]
    case values => rfl
    case reloadedMap => exact (load_clocks _ _).trans (hmap.2 ⟨hm, fun t ht => (hothers t ht).1⟩)
    case reloadedCounts => exact (load_counts _ _).trans (hcount.2 ⟨hc, fun t ht => (hothers t ht).2⟩)

end Reload

/-! ## Counts over a run -/

/-- what happens to the profiles: the files read are arbitrary -/
inductive ProfileOp where
  | load (f : ConfigFile)
  | refresh (f : ConfigFile)
  | setProfiles (written : Bool) (tid : ℕ) (table : ProfileTable) (immediate : Bool)
  | close

def profileStep (c : Config) : ProfileOp → Option Config
  | .load f => some (c.load f)
  | .refresh f => some (c.refresh f).2
  | .setProfiles written tid table immediate => some (c.setProfiles written tid table immediate).2
  | .close => some c.close

/-- the count of every title is its number of clocks -/
def CountMatches (c : Config) : Prop := ∀ tid, c.getProfileCount tid = ProfileTable.clocks (c.gProfileMHzMap tid)

/-- every title has as many entries in the file, by the 8-bit counter, as it has clocks -/
def EntriesMatchClocks (f : ConfigFile) : Prop :=
  ∀ tid, clockCount f.contents tid % 2 ^ 8 = ProfileTable.clocks (lastMHz f.contents tid)

/-- a step that reads a file reads one whose entries match its clocks -/
def ReadsMatching (c : Config) : ProfileOp → Prop
  | .load f => EntriesMatchClocks f
  | .refresh f => (c.refresh f).1 = true → EntriesMatchClocks f
  | .setProfiles .. => True
  | .close => True

theorem countMatches_load_iff (c : Config) (f : ConfigFile) : CountMatches (c.load f) ↔ EntriesMatchClocks f := by
  unfold CountMatches EntriesMatchClocks
  simp only [Config.getProfileCount, load_counts, load_clocks]

theorem countMatches_refresh_iff {c : Config} (hc : CountMatches c) (f : ConfigFile) :
    CountMatches (c.refresh f).2 ↔ ((c.refresh f).1 = true → EntriesMatchClocks f) := by
  unfold Config.refresh
  split_ifs
  · simp [countMatches_load_iff]
  · simp [hc]

theorem countMatches_setProfiles {c : Config} (hc : CountMatches c) (written : Bool) (tid : ℕ) (table : ProfileTable)
    (immediate : Bool) : CountMatches (c.setProfiles written tid table immediate).2 := by
  cases written with
  | false => exact hc
  | true =>
    cases immediate with
    | false => exact hc
    | true =>
      intro t
      rw [setProfiles_eq]
      by_cases ht : t = tid
      · subst ht
        simp [Config.getProfileCount]
      · simpa [Config.getProfileCount, Function.update_of_ne ht] using hc t

theorem countMatches_close (c : Config) : CountMatches c.close := by
  intro tid
  exact (clocks_eq_zero fun _ _ => rfl).symm

/-- one step keeps the counts right exactly when what it reads matches -/
theorem countMatches_step_iff {c : Config} (hc : CountMatches c) (op : ProfileOp) :
    (∀ c', profileStep c op = some c' → CountMatches c') ↔ ReadsMatching c op := by
  have hsome : ∀ d : Config, (∀ c', some d = some c' → CountMatches c') ↔ CountMatches d := by
    intro d
    simp
  cases op with
  | load f => exact (hsome _).trans (countMatches_load_iff c f)
  | refresh f => exact (hsome _).trans (countMatches_refresh_iff hc f)
  | setProfiles written tid table immediate =>
    exact (hsome _).trans (iff_of_true (countMatches_setProfiles hc written tid table immediate) trivial)
  | close => exact (hsome _).trans (iff_of_true (countMatches_close c) trivial)

/-- **Counts.** In every state of a run the count of each title is its number of clocks exactly when every file read on
the way has, for each title, as many entries by the 8-bit counter as clocks. -/
theorem profileCount_iff {c : Config} (hc : CountMatches c) (ops : List ProfileOp) :
    Throughout profileStep CountMatches c ops ↔ AllSteps profileStep ReadsMatching c ops := by
  rw [throughout_iff hc]
  apply AllSteps.congr_inv CountMatches allSteps_true hc
  · intro s op hs _
    exact countMatches_step_iff hs op
  · intro s op t _ _ hnext ht
    exact hnext t ht

/-! ## Lookup along the fallback order -/

/-- `v` is the first value that is set, 0 when none is -/
inductive FirstSet : List ℕ → ℕ → Prop
  | none : FirstSet [] 0
  | unset {l : List ℕ} {v : ℕ} : FirstSet l v → FirstSet (0 :: l) v
  | set {l : List ℕ} {v : ℕ} : v ≠ 0 → FirstSet (v :: l) v

theorem FirstSet.find {l : List ℕ} {v : ℕ} (h : FirstSet l v) : (l.find? (· ≠ 0)).getD 0 = v := by
  induction h with
  | none => rfl
  | unset _ ih => simpa using ih
  | set hv => simp [hv]

theorem FirstSet.le {l : List ℕ} {v b : ℕ} (h : FirstSet l v) (hl : ∀ x ∈ l, x < b) (hb : 0 < b) : v < b := by
  induction h with
  | none => exact hb
  | unset _ ih => exact ih fun x hx => hl x (List.mem_cons_of_mem 0 hx)
  | set => exact hl _ List.mem_cons_self

/-- the store holds 32-bit values -/
def ClocksInRange (c : Config) : Prop := ∀ tid p m, c.gProfileMHzMap tid p m < 2 ^ 32

/-- what a request can carry; a file can carry anything -/
def ProfileOp.InRange : ProfileOp → Prop
  | .setProfiles _ _ table _ => ∀ p m, table p m < 2 ^ 32
  | _ => True

theorem lastMHz_lt (es : List IniEntry) (tid : ℕ) (p : HocClkProfile) (m : HocClkModule) :
    lastMHz es tid p m < 2 ^ 32 := by
  unfold lastMHz
  cases hfind : (es.filterMap clockEntry).reverse.find? fun k => k.names tid p m with
  | none => exact Nat.two_pow_pos 32
  | some k =>
    have hk := List.mem_reverse.1 (List.mem_of_find?_eq_some hfind)
    obtain ⟨e, -, he⟩ := List.mem_filterMap.1 hk
    rw [clockEntry_eq_some_iff] at he
    simp only [Option.map_some, Option.getD_some]
    omega

theorem clocksInRange_load (c : Config) (f : ConfigFile) : ClocksInRange (c.load f) := by
  intro tid p m
  rw [load_clocks]
  exact lastMHz_lt _ tid p m

theorem clocksInRange_step {c c' : Config} {op : ProfileOp} (hc : ClocksInRange c) (hop : op.InRange)
    (h : profileStep c op = some c') : ClocksInRange c' := by
  cases op with
  | load f =>
    obtain rfl := Option.some.inj h
    exact clocksInRange_load c f
  | refresh f =>
    obtain rfl := Option.some.inj h
    unfold Config.refresh
    split_ifs
    · exact clocksInRange_load c f
    · exact hc
  | setProfiles written tid table immediate =>
    obtain rfl := Option.some.inj h
    cases written with
    | false => exact hc
    | true =>
      cases immediate with
      | false => exact hc
      | true =>
        intro t p m
        rw [setProfiles_eq]
        by_cases ht : t = tid
        · subst ht
          simpa using hop p m
        · simpa [Function.update_of_ne ht] using hc t p m
  | close =>
    obtain rfl := Option.some.inj h
    exact fun _ _ _ => Nat.two_pow_pos 32

theorem clocksInRange_run {ops : List ProfileOp} {c : Config} (hops : ∀ op ∈ ops, op.InRange)
    (h : run profileStep Config.initial ops = some c) : ClocksInRange c := by
  refine run_inv ClocksInRange ?_ (allSteps_of_forall hops) (fun _ _ _ => Nat.two_pow_pos 32) h
  intro s op t hs hop ht
  exact clocksInRange_step hs hop ht

theorem getAutoClockHz_eq {c : Config} {tid : ℕ} {m : HocClkModule} {p : HocClkProfile} {v : ℕ}
    (hv : FirstSet ((Config.fallbackProfiles p).map fun q => c.getProfiles tid q m) v) (raw : Bool) :
    c.getAutoClockHz tid m p raw = v * (if raw then 1 else 1000000) % 2 ^ 32 := by
  have hfind : (((Config.fallbackProfiles p).map (c.findClockMHz tid m)).find? (· ≠ 0)).getD 0 = v := hv.find
  unfold Config.getAutoClockHz Config.findClockHzFromProfiles
  cases hl : c.gLoaded with
  | true => simp only [if_true, hfind]
  | false =>
    have hunset : ∀ q, c.findClockMHz tid m q = 0 := fun q => by simp [Config.findClockMHz, hl]
    have hv0 : v = 0 := by
      rw [← hfind]
      cases p <;> simp [Config.fallbackProfiles, hunset]
    simp [hv0]

/-- **Lookup.** In every store a lookup answers the first set clock of the fallback order, exactly when its rate in Hz is
below 2^32; in MHz it always does. -/
theorem getAutoClockHz_iff {ops : List ProfileOp} {c : Config} (hops : ∀ op ∈ ops, op.InRange)
    (hrun : run profileStep Config.initial ops = some c) (tid : ℕ) (m : HocClkModule) (p : HocClkProfile) (raw : Bool)
    {v : ℕ} (hv : FirstSet ((Config.fallbackProfiles p).map fun q => c.getProfiles tid q m) v) :
    c.getAutoClockHz tid m p raw = (if raw then v else 1000000 * v) ↔ raw = true ∨ v ≤ 4294 := by
  have hlt : v < 2 ^ 32 := by
    apply hv.le _ (Nat.two_pow_pos 32)
    intro x hx
    obtain ⟨q, -, rfl⟩ := List.mem_map.1 hx
    show c.findClockMHz tid m q < 2 ^ 32
    unfold Config.findClockMHz
    split_ifs
    · exact clocksInRange_run hops hrun tid q m
    · exact Nat.two_pow_pos 32
  rw [getAutoClockHz_eq hv]
  cases raw with
  | true => simpa using hlt
  | false =>
    simp only [Bool.false_eq_true, if_false, false_or]
    constructor
    · intro h
      have hwrap := Nat.mod_lt (v * 1000000) (Nat.two_pow_pos 32)
      rw [h] at hwrap
      omega
    · intro h
      rw [Nat.mod_eq_of_lt (by omega), mul_comm]

/-! ## Witnesses -/

/-- one clock: the handheld CPU -/
def cpuTable : ProfileTable := fun p m => if p = .handheld ∧ m = .cpu then 1020 else 0

/-- the entries of `sampleFile` that are no title's -/
def valueRest : List IniEntry := sectionEntries CONFIG_VAL_SECTION [("uncapped_clocks", "1")]

/-- the file behind the table of a title, in place of what it had for `0100F2C0115B6000` or in front of the values -/
def fileWithTitle (tid : ℕ) (table : ProfileTable) : ConfigFile :=
  ⟨2, [] ++ sectionEntries (formatTid tid) (profileKeys table) ++ valueRest⟩

theorem cpuTable_roundTrip : ∃ c', ipcSetProfiles (Config.initial.load sampleFile) true 0x0100F2C0115B6000 cpuTable =
      .ok c' ∧ RoundTrip 0x0100F2C0115B6000 cpuTable (Config.initial.load sampleFile) c'
        (fileWithTitle 0x0100F2C0115B6000 cpuTable) := by
  have hset : ipcSetProfiles (Config.initial.load sampleFile) true 0x0100F2C0115B6000 cpuTable = .ok _ :=
    ipcSetProfiles_ok_iff.2 ⟨rfl, rfl, rfl⟩
  have h32 : ∀ p m, cpuTable p m < 2 ^ 32 := by
    intro p m
    cases p <;> cases m <;> decide
  refine ⟨_, hset, (setProfiles_roundTrip_iff (by decide) h32 hset (by decide) (f := sampleFile) rfl rfl).2
    ⟨.inl (by decide), ?_, by decide, ?_, ?_⟩⟩
  · intro t _
    rw [load_clocks, load_clocks, load_counts, load_counts]
    exact ⟨rfl, rfl⟩
  · intro p m
    exact .inl rfl
  · intro p m _
    rfl

/-- the file a write of title 0 makes where there was none -/
def titleZeroFile : ConfigFile := ⟨1, iniBrowse (iniPutsection (formatTid 0) (profileKeys cpuTable) [])⟩

/-- **Title 0 does not survive.** The request is accepted and memory holds the clock, but the parser refuses the section
that was written. -/
theorem title_zero_lost : ∃ c', ipcSetProfiles (Config.initial.load ⟨0, []⟩) true 0 cpuTable = .ok c' ∧
    c'.getProfiles 0 .handheld .cpu = 1020 ∧ (c'.load titleZeroFile).gProfileMHzMap 0 .handheld .cpu = 0 ∧
    ¬ RoundTrip 0 cpuTable (Config.initial.load ⟨0, []⟩) c' titleZeroFile := by
  refine ⟨_, ipcSetProfiles_ok_iff.2 ⟨rfl, rfl, rfl⟩, by decide, by decide, ?_⟩
  intro h
  have hcpu := congrFun (congrFun (congrFun h.reloadedMap 0) .handheld) .cpu
  exact absurd hcpu (by decide)

/-- a file that names one clock of a title -/
def onceFile : ConfigFile := ⟨1, iniBrowse [⟨"0100F2C0115B6000", [("docked_mem", "1600")]⟩]⟩

/-- a file that names it twice -/
def twiceFile : ConfigFile := ⟨1, iniBrowse [⟨"0100F2C0115B6000", [("docked_mem", "1600"), ("docked_mem", "1331")]⟩]⟩

theorem onceFile_counts :
    Throughout profileStep CountMatches Config.initial [.load onceFile, .setProfiles true 1 cpuTable true] := by
  refine (profileCount_iff (countMatches_close Config.initial) _).2 ⟨?_, fun _ _ => ⟨trivial, fun _ _ => trivial⟩⟩
  intro tid
  by_cases htid : tid = 0x0100F2C0115B6000
  · subst htid
    decide
  · have hnil : clocksOf onceFile.contents tid = [] := by
      obtain ⟨k, hk, hkt⟩ : ∃ k, onceFile.contents.filterMap clockEntry = [k] ∧ k.tid = 0x0100F2C0115B6000 :=
        ⟨_, rfl, rfl⟩
      rw [clocksOf, hk, List.filter_eq_nil_iff]
      intro x hx
      obtain rfl := List.mem_singleton.1 hx
      simpa [hkt] using Ne.symm htid
    rw [clockCount_of_nil hnil]
    exact (clocks_eq_zero (lastMHz_of_nil hnil)).symm

/-- **A key given twice is counted twice.** -/
theorem doubled_key_counted_twice : ∃ c, run profileStep Config.initial [.load twiceFile] = some c ∧
    c.getProfileCount 0x0100F2C0115B6000 = 2 ∧
    ProfileTable.clocks (c.gProfileMHzMap 0x0100F2C0115B6000) = 1 :=
  ⟨_, rfl, by decide, by decide⟩

/-- a USB charger falls back to the handheld clock -/
theorem charging_falls_back : ∃ c, run profileStep Config.initial [.load onceFile, .setProfiles true 1 cpuTable true] =
    some c ∧ c.getAutoClockHz 1 .cpu .handheldChargingUSB false = 1000000 * 1020 := by
  have hinRange : ∀ op ∈ [ProfileOp.load onceFile, .setProfiles true 1 cpuTable true], op.InRange := by
    intro op hop
    rcases List.mem_cons.1 hop with rfl | hop
    · trivial
    · obtain rfl := List.mem_singleton.1 hop
      intro p m
      unfold cpuTable
      split_ifs <;> decide
  have hfirst : FirstSet [0, 0, 1020] 1020 := .unset (.unset (.set (by decide)))
  exact ⟨_, rfl, (getAutoClockHz_iff hinRange rfl 1 .cpu .handheldChargingUSB false hfirst).2 (Or.inr (by decide))⟩

/-- a rate that is too large for Hz -/
def largeFile : ConfigFile := ⟨1, iniBrowse [⟨"0100F2C0115B6000", [("docked_mem", "4295")]⟩]⟩

/-- **A large rate wraps around.** -/
theorem large_rate_wraps : ∃ c, run profileStep Config.initial [.load largeFile] = some c ∧
    c.getProfiles 0x0100F2C0115B6000 .docked .mem = 4295 ∧
    c.getAutoClockHz 0x0100F2C0115B6000 .mem .docked false = 32704 :=
  ⟨_, rfl, by decide, by decide⟩

end RyazhaClk
