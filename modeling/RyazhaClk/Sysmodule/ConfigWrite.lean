/-
Writing configuration values (`SetConfigValues`, `SetConfigValue`, `ResetConfigValue`) and reading them back. The section
writer of the INI library is a relation: it puts the given body where the section was, or behind everything else.

- `setConfigValues_reload`: after `SetConfigValues` a reload finds the values the memory holds, and no clock has moved.
- `singleKey_survives_iff`: after `SetConfigValue` or `ResetConfigValue` a reload keeps the other keys exactly when they
  all have their defaults.
- `replaced_of_iniPutsection`: the library's writer is such a relation on every file that names the section at most once.
-/
import Mathlib.Tactic
import RyazhaClk.Sysmodule.ConfigEntries
import RyazhaClk.Sysmodule.NumberText

namespace RyazhaClk

/-! ## The section writer -/

/-- two names of one section; the library compares them without regard to case -/
def sameSection (a b : String) : Bool := a.toList.map Char.toUpper = b.toList.map Char.toUpper

/-- the entries of a section's body -/
def sectionEntries (name : String) (kvs : List (String × String)) : List IniEntry :=
  kvs.map fun kv => ⟨name, kv.1, kv.2⟩

/-- the file `f'` has the given body for the section, and everything else as `f` has it -/
structure Replaced (name : String) (kvs : List (String × String)) (f f' : ConfigFile) : Prop where
  exists_file : f'.mtime ≠ 0
  entries : ∃ pre post, f.contents.filter (fun e => !sameSection e.sect name) = pre ++ post ∧
    f'.entries = pre ++ sectionEntries name kvs ++ post

/-- a section of a file; the lines in front of the first header are one with an empty name -/
structure IniSection where
  name : String
  keys : List (String × String)

def iniBrowse (ss : List IniSection) : List IniEntry := ss.flatMap fun s => sectionEntries s.name s.keys

/-- `putsection` writes no header without a key -/
def putsection (name : String) (kvs : List (String × String)) : List IniSection :=
  if kvs = [] then [] else [⟨name, kvs⟩]

/-- `ini_putsection`: the first section of that name is replaced, or one is added at the end -/
def iniPutsection (name : String) (kvs : List (String × String)) : List IniSection → List IniSection
  | [] => putsection name kvs
  | s :: ss => if sameSection s.name name then putsection name kvs ++ ss else s :: iniPutsection name kvs ss

theorem iniBrowse_append (ss ts : List IniSection) : iniBrowse (ss ++ ts) = iniBrowse ss ++ iniBrowse ts :=
  List.flatMap_append

theorem iniBrowse_putsection (name : String) (kvs : List (String × String)) :
    iniBrowse (putsection name kvs) = sectionEntries name kvs := by
  unfold putsection
  split_ifs with h
  · simp [iniBrowse, sectionEntries, h]
  · simp [iniBrowse]

theorem sect_of_mem {name : String} {kvs : List (String × String)} {e : IniEntry} (h : e ∈ sectionEntries name kvs) :
    e.sect = name := by
  obtain ⟨kv, -, rfl⟩ := List.mem_map.1 h
  rfl

theorem filter_sectionEntries (name n : String) (kvs : List (String × String)) :
    (sectionEntries n kvs).filter (fun e => !sameSection e.sect name) =
      if sameSection n name then [] else sectionEntries n kvs := by
  split_ifs with h
  · rw [List.filter_eq_nil_iff]
    intro e he
    simp [sect_of_mem he, h]
  · rw [List.filter_eq_self]
    intro e he
    simp [sect_of_mem he, h]

theorem filter_iniBrowse {name : String} {ss : List IniSection} (h : ∀ s ∈ ss, sameSection s.name name = false) :
    (iniBrowse ss).filter (fun e => !sameSection e.sect name) = iniBrowse ss := by
  rw [List.filter_eq_self]
  intro e he
  obtain ⟨s, hs, hes⟩ := List.mem_flatMap.1 he
  simp [sect_of_mem hes, h s hs]

/-- the library's writer replaces the section of every file that has at most one of that name -/
theorem replaced_of_iniPutsection {name : String} {ss : List IniSection} (kvs : List (String × String))
    {mtime now : ℕ} (hnow : now ≠ 0) (habsent : mtime = 0 → ss = [])
    (hone : (ss.filter fun s => sameSection s.name name).length ≤ 1) :
    Replaced name kvs ⟨mtime, iniBrowse ss⟩ ⟨now, iniBrowse (iniPutsection name kvs ss)⟩ := by
  refine ⟨hnow, ?_⟩
  have hcontents : (⟨mtime, iniBrowse ss⟩ : ConfigFile).contents = iniBrowse ss := by
    unfold ConfigFile.contents
    split_ifs with h0
    · rw [habsent h0]
      rfl
    · rfl
  rw [hcontents]
  dsimp only
  clear hcontents habsent
  induction ss with
  | nil => exact ⟨[], [], rfl, by simp [iniPutsection, iniBrowse_putsection]⟩
  | cons s ss ih =>
    have hbrowse : iniBrowse (s :: ss) = sectionEntries s.name s.keys ++ iniBrowse ss := by
      simp [iniBrowse]
    rw [hbrowse, List.filter_append, filter_sectionEntries]
    by_cases hs : sameSection s.name name = true
    · -- the section itself goes, and behind it there is no other of that name
      rw [List.filter_cons_of_pos (by simpa using hs), List.length_cons] at hone
      have hrest : ∀ t ∈ ss, sameSection t.name name = false := by
        have hnil := List.length_eq_zero_iff.1 (Nat.le_zero.1 (Nat.le_of_succ_le_succ hone))
        intro t ht
        simpa using List.filter_eq_nil_iff.1 hnil t ht
      refine ⟨[], iniBrowse ss, ?_, ?_⟩
      · rw [if_pos hs, filter_iniBrowse hrest]
      · rw [iniPutsection, if_pos hs, iniBrowse_append, iniBrowse_putsection]
        rfl
    · rw [List.filter_cons_of_neg (by simpa using hs)] at hone
      obtain ⟨pre, post, hfilter, hput⟩ := ih hone
      refine ⟨sectionEntries s.name s.keys ++ pre, post, ?_, ?_⟩
      · rw [if_neg hs, hfilter, List.append_assoc]
      · rw [iniPutsection, if_neg hs]
        have hcons : iniBrowse (s :: iniPutsection name kvs ss) =
            sectionEntries s.name s.keys ++ iniBrowse (iniPutsection name kvs ss) := by
          simp [iniBrowse]
        rw [hcons, hput]
        simp

/-! ## The writers -/

/-- the keys and texts `SetConfigValues` writes: the valid values that are not the default -/
def configValueKeys (values : HocClkConfigValue → ℕ) : List (String × String) :=
  (HocClkConfigValue.all.filter fun kval =>
    hocclkValidConfigValue kval (values kval) && values kval != hocclkDefaultConfigValue kval).map fun kval =>
      (hocclkFormatConfigValue kval, toString (values kval))

/-- the one key `SetConfigValue` writes -/
def configValueKey (kval : HocClkConfigValue) (value : ℕ) : List (String × String) :=
  [(hocclkFormatConfigValue kval, toString value)]

/-- the one key `ResetConfigValue` writes, with an empty text -/
def resetValueKey (kval : HocClkConfigValue) : List (String × String) := [(hocclkFormatConfigValue kval, "")]

namespace Config

/-- `SetConfigValues`; `written` is the answer of `ini_putsection` on `configValueKeys` -/
def setConfigValues (c : Config) (written : Bool) (values : HocClkConfigValue → ℕ) (immediate : Bool) : Bool × Config :=
  if !written then (false, c)
  else (true, if immediate then { c with configValues := fun kval => normValue kval (values kval) } else c)

/-- `SetConfigValue`; `written` is the answer of `ini_putsection` on `configValueKey` -/
def setConfigValue (c : Config) (written : Bool) (kval : HocClkConfigValue) (value : ℕ) (immediate : Bool) :
    Bool × Config :=
  if !hocclkValidConfigValue kval value then (false, c)
  else if !written then (false, c)
  else (true, if immediate then { c with configValues := Function.update c.configValues kval value } else c)

/-- `ResetConfigValue`; `written` is the answer of `ini_putsection` on `resetValueKey` -/
def resetConfigValue (c : Config) (written : Bool) (kval : HocClkConfigValue) : Bool × Config :=
  if !written then (false, c)
  else (true, { c with configValues := Function.update c.configValues kval (hocclkDefaultConfigValue kval) })

end Config

/-! ## Key names -/

theorem HocClkConfigValue.mem_all (kval : HocClkConfigValue) : kval ∈ HocClkConfigValue.all := by
  have h : HocClkConfigValue.all[kval.ctorIdx]? = some kval := by
    cases kval <;> rfl
  exact List.mem_of_getElem? h

/-- the bytes of a text as one number -/
def textCode (s : String) : ℕ := s.toByteArray.data.toList.foldl (fun n c => n * 256 + c.toNat) 0

theorem keyCodes_nodup : (HocClkConfigValue.all.map fun kval => textCode (hocclkFormatConfigValue kval)).Nodup := by
  decide +kernel

/-- no two keys share a name -/
theorem hocclkFormatConfigValue_injective : Function.Injective hocclkFormatConfigValue := by
  intro k l h
  exact List.inj_on_of_nodup_map keyCodes_nodup k.mem_all l.mem_all (congrArg textCode h)

theorem valueEntry_key (kval : HocClkConfigValue) (text : String) :
    valueEntry ⟨CONFIG_VAL_SECTION, hocclkFormatConfigValue kval, text⟩ = some (kval, strtoul text 0) := by
  have hfind : HocClkConfigValue.all.find? (fun l => hocclkFormatConfigValue kval = hocclkFormatConfigValue l) =
      some kval := by
    cases h : HocClkConfigValue.all.find? fun l => hocclkFormatConfigValue kval = hocclkFormatConfigValue l with
    | none => exact absurd (List.find?_eq_none.1 h kval kval.mem_all) (by simp)
    | some l =>
      have hl := List.find?_some h
      exact congrArg some (hocclkFormatConfigValue_injective (by simpa using hl)).symm
  rw [valueEntry, if_pos rfl]
  dsimp only
  rw [hfind]
  rfl

/-! ## What is read back from a replaced section -/

theorem valueEntry_of_other {e : IniEntry} (h : sameSection e.sect CONFIG_VAL_SECTION = false) :
    valueEntry e = none := by
  have hne : e.sect ≠ CONFIG_VAL_SECTION := by
    intro he
    simp [he, sameSection] at h
  exact if_neg hne

/-- a section of that name, in whatever case, is no title's -/
theorem clockEntry_of_values {e : IniEntry} (h : sameSection e.sect CONFIG_VAL_SECTION = true) :
    clockEntry e = none := by
  have hmap : e.sect.toList.map Char.toUpper = CONFIG_VAL_SECTION.toList.map Char.toUpper := of_decide_eq_true h
  have hlen : e.sect.length ≠ 16 := by
    have hl := congrArg List.length hmap
    rw [List.length_map, List.length_map, String.length_toList] at hl
    rw [hl]
    decide
  unfold clockEntry
  rw [dif_pos (Or.inr hlen)]
  split_ifs <;> rfl

namespace Replaced

variable {kvs : List (String × String)} {f f' : ConfigFile}

theorem contents {name : String} (h : Replaced name kvs f f') : f'.contents = f'.entries := if_neg h.exists_file

/-- the reader finds the new body's values and no others -/
theorem lastValue (h : Replaced CONFIG_VAL_SECTION kvs f f') (kval : HocClkConfigValue) :
    lastValue f'.contents kval = RyazhaClk.lastValue (sectionEntries CONFIG_VAL_SECTION kvs) kval := by
  obtain ⟨pre, post, hfilter, hentries⟩ := h.entries
  have hnone : ∀ l : List IniEntry, (∀ e ∈ l, e ∈ pre ++ post) → l.filterMap valueEntry = [] := by
    intro l hl
    rw [List.filterMap_eq_nil_iff]
    intro e he
    have hmem := hl e he
    rw [← hfilter, List.mem_filter] at hmem
    exact valueEntry_of_other (by simpa using hmem.2)
  rw [h.contents, hentries]
  unfold RyazhaClk.lastValue
  rw [List.filterMap_append, List.filterMap_append, hnone pre (by simp +contextual),
    hnone post (by simp +contextual), List.nil_append, List.append_nil]

/-- the clocks are those of the old file -/
theorem clockEntries (h : Replaced CONFIG_VAL_SECTION kvs f f') :
    f'.contents.filterMap clockEntry = f.contents.filterMap clockEntry := by
  obtain ⟨pre, post, hfilter, hentries⟩ := h.entries
  have hnew : (sectionEntries CONFIG_VAL_SECTION kvs).filterMap clockEntry = [] := by
    rw [List.filterMap_eq_nil_iff]
    intro e he
    exact if_pos (sect_of_mem he)
  have hold : f.contents.filterMap clockEntry =
      (f.contents.filter fun e => !sameSection e.sect CONFIG_VAL_SECTION).filterMap clockEntry := by
    rw [List.filterMap_filter]
    refine List.filterMap_congr fun e _ => ?_
    cases hs : sameSection e.sect CONFIG_VAL_SECTION
    · rfl
    · exact clockEntry_of_values hs
  rw [h.contents, hentries, hold, hfilter]
  simp [hnew]

theorem lastMHz (h : Replaced CONFIG_VAL_SECTION kvs f f') : lastMHz f'.contents = RyazhaClk.lastMHz f.contents := by
  unfold RyazhaClk.lastMHz
  rw [h.clockEntries]

theorem clockCount (h : Replaced CONFIG_VAL_SECTION kvs f f') :
    clockCount f'.contents = RyazhaClk.clockCount f.contents := by
  unfold RyazhaClk.clockCount
  rw [h.clockEntries]

end Replaced

/-! ## Values written and read -/

/-- the entry of a key is its value, for keys without doubles or with -/
theorem lastValue_keys (ks : List HocClkConfigValue) (text : HocClkConfigValue → String) (kval : HocClkConfigValue) :
    lastValue (sectionEntries CONFIG_VAL_SECTION (ks.map fun k => (hocclkFormatConfigValue k, text k))) kval =
      if kval ∈ ks then some (strtoul (text kval) 0) else none := by
  have hentries : (sectionEntries CONFIG_VAL_SECTION (ks.map fun k => (hocclkFormatConfigValue k, text k))).filterMap
      valueEntry = ks.map fun k => (k, strtoul (text k) 0) := by
    rw [sectionEntries, List.map_map, List.filterMap_map, ← List.filterMap_eq_map]
    exact List.filterMap_congr fun k _ => valueEntry_key k (text k)
  unfold lastValue
  rw [hentries, ← List.map_reverse, List.find?_map, Option.map_map]
  cases hfind : ks.reverse.find? ((fun kv : HocClkConfigValue × ℕ => decide (kv.1 = kval)) ∘
      fun k => (k, strtoul (text k) 0)) with
  | none =>
    have hnot : kval ∉ ks := by
      intro hmem
      exact absurd (List.find?_eq_none.1 hfind kval (by simpa using hmem)) (by simp)
    rw [if_neg hnot]
    rfl
  | some k =>
    have hk : k = kval := by simpa using List.find?_some hfind
    have hmem : k ∈ ks := by simpa using List.mem_of_find?_eq_some hfind
    subst hk
    rw [if_pos hmem]
    rfl

/-- **The written values are read back**: what is left out is the default, and what is rejected becomes it. -/
theorem normValue_reload {values : HocClkConfigValue → ℕ} (h64 : ∀ k, values k < 2 ^ 64) {f f' : ConfigFile}
    (hput : Replaced CONFIG_VAL_SECTION (configValueKeys values) f f') (c : Config) (kval : HocClkConfigValue) :
    (c.load f').configValues kval = normValue kval (values kval) := by
  rw [Config.load_configValues, hput.lastValue, configValueKeys, lastValue_keys _ (fun k => toString (values k))]
  have htext : strtoul (toString (values kval)) 0 = values kval := strtoul_repr (h64 kval) (.inl rfl)
  by_cases hv : hocclkValidConfigValue kval (values kval) = true
  · by_cases hd : values kval = hocclkDefaultConfigValue kval
    · have hnot : kval ∉ HocClkConfigValue.all.filter fun k =>
          hocclkValidConfigValue k (values k) && values k != hocclkDefaultConfigValue k := by
        simp [hd]
      rw [if_neg hnot, normValue, if_pos hv, hd]
      rfl
    · have hmem : kval ∈ HocClkConfigValue.all.filter fun k =>
          hocclkValidConfigValue k (values k) && values k != hocclkDefaultConfigValue k := by
        simp [hv, hd, kval.mem_all]
      rw [if_pos hmem, htext]
      rfl
  · have hnot : kval ∉ HocClkConfigValue.all.filter fun k =>
        hocclkValidConfigValue k (values k) && values k != hocclkDefaultConfigValue k := by
      simp [hv]
    rw [if_neg hnot, normValue, if_neg hv]
    rfl

/-- what a reload of the file `f'` is to find behind a write of `values`, `f` being the file in front of it -/
structure ValuesAgree (values : HocClkConfigValue → ℕ) (c c' : Config) (f f' : ConfigFile) : Prop where
  memory : ∀ kval, c'.configValues kval = normValue kval (values kval)
  reloaded : (c'.load f').configValues = c'.configValues
  refreshed : (c'.refresh f').2.configValues = c'.configValues
  clocks : c'.gProfileMHzMap = c.gProfileMHzMap ∧ c'.gProfileCountMap = c.gProfileCountMap
  fileClocks : (c'.load f').gProfileMHzMap = (c.load f).gProfileMHzMap ∧
    (c'.load f').gProfileCountMap = (c.load f).gProfileCountMap

/-- **File and memory agree after `SetConfigValues`.** For every list of 64-bit values and every store, behind a
successful write both hold the list's values, the invalid ones replaced by their defaults, and neither has lost or gained
a clock. -/
theorem setConfigValues_reload (c : Config) {values : HocClkConfigValue → ℕ} (h64 : ∀ k, values k < 2 ^ 64)
    {f f' : ConfigFile} (hput : Replaced CONFIG_VAL_SECTION (configValueKeys values) f f') :
    ValuesAgree values c (c.setConfigValues true values true).2 f f' := by
  have hload : ((c.setConfigValues true values true).2.load f').configValues =
      (c.setConfigValues true values true).2.configValues := by
    funext kval
    exact normValue_reload h64 hput _ kval
  constructor
  case memory =>
    intro kval
    rfl
  case reloaded => exact hload
  case refreshed =>
    unfold Config.refresh
    split_ifs
    · exact hload
    · rfl
  case clocks => exact ⟨rfl, rfl⟩
  case fileClocks =>
    constructor
    · funext tid p m
      rw [Config.load_gProfileMHzMap, Config.load_gProfileMHzMap, hput.lastMHz]
    · funext tid
      rw [Config.load_gProfileCountMap, Config.load_gProfileCountMap, hput.clockCount]

/-! ## Single keys -/

theorem load_singleKey {kval : HocClkConfigValue} {text : String} {f f' : ConfigFile}
    (hput : Replaced CONFIG_VAL_SECTION [(hocclkFormatConfigValue kval, text)] f f') (c : Config) :
    (c.load f').configValues =
      Function.update hocclkDefaultConfigValue kval (normValue kval (strtoul text 0)) := by
  funext k
  have hlast := lastValue_keys [kval] (fun _ => text) k
  rw [List.map_singleton] at hlast
  rw [Config.load_configValues, hput.lastValue, hlast]
  by_cases hk : k = kval
  · subst hk
    simp
  · simp [hk]

theorem update_eq_update_iff {v : ℕ} {w : ℕ} {kval : HocClkConfigValue} {g : HocClkConfigValue → ℕ} :
    Function.update hocclkDefaultConfigValue kval v = Function.update g kval w ↔
      v = w ∧ ∀ k, k ≠ kval → g k = hocclkDefaultConfigValue k := by
  constructor
  · intro h
    constructor
    · simpa using congrFun h kval
    · intro k hk
      have hat := congrFun h k
      rw [Function.update_of_ne hk, Function.update_of_ne hk] at hat
      exact hat.symm
  · rintro ⟨rfl, hrest⟩
    funext k
    by_cases hk : k = kval
    · subst hk
      simp
    · rw [Function.update_of_ne hk, Function.update_of_ne hk, hrest k hk]

/-- **A single key survives a reload only alone.** The section written for one key holds that key and nothing else, so
behind `SetConfigValue` a reload keeps the other keys exactly when they all have their defaults, and behind
`ResetConfigValue` when moreover the empty text reads as the key's default: 0 is invalid for it or is its default. -/
theorem singleKey_survives_iff (c : Config) (kval : HocClkConfigValue) {value : ℕ} (h64 : value < 2 ^ 64)
    (hvalid : hocclkValidConfigValue kval value = true) (immediate : Bool) {f f₁ f₂ : ConfigFile}
    (hset : Replaced CONFIG_VAL_SECTION (configValueKey kval value) f f₁)
    (hreset : Replaced CONFIG_VAL_SECTION (resetValueKey kval) f f₂) :
    (((c.setConfigValue true kval value immediate).2.load f₁).configValues =
        Function.update c.configValues kval value ↔
      ∀ k, k ≠ kval → c.configValues k = hocclkDefaultConfigValue k) ∧
    (((c.resetConfigValue true kval).2.load f₂).configValues =
        Function.update c.configValues kval (hocclkDefaultConfigValue kval) ↔
      (hocclkValidConfigValue kval 0 = true → hocclkDefaultConfigValue kval = 0) ∧
        ∀ k, k ≠ kval → c.configValues k = hocclkDefaultConfigValue k) := by
  constructor
  · have hread : normValue kval (strtoul (toString value) 0) = value := by
      rw [show strtoul (toString value) 0 = value from strtoul_repr h64 (.inl rfl), normValue, if_pos hvalid]
    rw [load_singleKey hset, hread, update_eq_update_iff]
    simp
  · have hread : normValue kval (strtoul "" 0) = hocclkDefaultConfigValue kval ↔
        (hocclkValidConfigValue kval 0 = true → hocclkDefaultConfigValue kval = 0) := by
      rw [strtoul_empty 0 (.inl rfl), normValue]
      split_ifs with h0
      · simp [h0, eq_comm]
      · simp [h0]
    rw [load_singleKey hreset, update_eq_update_iff, hread]

/-! ## Witnesses -/

/-- a file with one title and one value -/
def sampleSections : List IniSection :=
  [⟨"0100F2C0115B6000", [("docked_mem", "1600")]⟩, ⟨CONFIG_VAL_SECTION, [("uncapped_clocks", "1")]⟩]

def sampleFile : ConfigFile := ⟨1, iniBrowse sampleSections⟩

/-- the file behind a write of the value section at time 2 -/
def rewritten (kvs : List (String × String)) : ConfigFile :=
  ⟨2, iniBrowse (iniPutsection CONFIG_VAL_SECTION kvs sampleSections)⟩

theorem sampleFile_replaced (kvs : List (String × String)) :
    Replaced CONFIG_VAL_SECTION kvs sampleFile (rewritten kvs) :=
  replaced_of_iniPutsection kvs (by decide) (by decide) (by decide)

/-- one value that is written, one that is rejected, one that is left out as the default -/
def sampleValues : HocClkConfigValue → ℕ
  | .pollingIntervalMs => 500
  | .uncappedClocks => 7
  | kval => hocclkDefaultConfigValue kval

theorem sampleValues_reload :
    ValuesAgree sampleValues (Config.initial.load sampleFile)
      ((Config.initial.load sampleFile).setConfigValues true sampleValues true).2 sampleFile
      (rewritten (configValueKeys sampleValues)) := by
  refine setConfigValues_reload _ ?_ (sampleFile_replaced _)
  intro k
  cases k <;> decide

/-- from the defaults, where every other key has its default -/
theorem singleKey_from_defaults :
    ((Config.initial.setConfigValue true .pollingIntervalMs 500 true).2.load
        (rewritten (configValueKey .pollingIntervalMs 500))).configValues =
      Function.update Config.initial.configValues .pollingIntervalMs 500 :=
  (singleKey_survives_iff Config.initial .pollingIntervalMs (by decide) (by decide) true (sampleFile_replaced _)
    (sampleFile_replaced _)).1.2 fun _ _ => rfl

/-- **A single key erases the others.** Behind the write of the polling interval the file no longer has the uncapped
clocks; and behind a reset of the throttling switch, whose default is 1, the empty text reads as 0. -/
theorem singleKey_erases_others :
    (Config.initial.load sampleFile).configValues .uncappedClocks = 1 ∧
    (((Config.initial.load sampleFile).setConfigValue true .pollingIntervalMs 500 true).2.load
      (rewritten (configValueKey .pollingIntervalMs 500))).configValues .uncappedClocks = 0 ∧
    hocclkDefaultConfigValue .thermalThrottle = 1 ∧
    (((Config.initial.load sampleFile).resetConfigValue true .thermalThrottle).2.load
      (rewritten (resetValueKey .thermalThrottle))).configValues .thermalThrottle = 0 := by
  refine ⟨by decide, by decide, rfl, by decide⟩

end RyazhaClk
