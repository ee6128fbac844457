/-
The configuration file as the text it is: every write of the configuration goes through `ini_putsection`, every load
through `ini_browse`.

- `replaced_of_rewritten`: the library replaces a section as the writers of the configuration rely on.
- `ConfigPut.writable`: all keys and values of the configuration survive being written and read.
- `configRun_loaded`: after any list of writes a load finds the values and the titles as they were written last.
-/
import Mathlib
import RyazhaClk.Sysmodule.IniStore
import RyazhaClk.Sysmodule.Profiles

namespace RyazhaClk

open MinIni

/-! ## Texts and entries -/

/-- a call of `BrowseIniFunc` -/
def entryOf (c : Callback) : IniEntry := ⟨String.ofList c.sect, String.ofList c.key, String.ofList c.value⟩

/-- the configuration file a text is, at a time -/
def configFile (mtime : ℕ) (text : Text) : ConfigFile := ⟨mtime, ((MinIni.iniBrowse text).getD []).map entryOf⟩

/-- keys and values as the library gets them -/
def textKeys (kvs : List (String × String)) : List (Text × Text) := kvs.map fun kv => (kv.1.toList, kv.2.toList)

theorem upper_eq (c : Char) : upper c = (c.toUpper.toNat : ℤ) := by
  unfold upper Char.toUpper
  by_cases hc : 'a'.val ≤ c.val ∧ c.val ≤ 'z'.val
  · rw [if_pos (show 'a' ≤ c ∧ c ≤ 'z' from hc), dif_pos hc]
    have hlower : 97 ≤ c.val.toNat := UInt32.le_iff_toNat_le.1 hc.1
    have hupper : c.val.toNat ≤ 122 := UInt32.le_iff_toNat_le.1 hc.2
    have hval : (c.val + ('A'.val - 'a'.val)).toNat = c.val.toNat - 32 := by
      rw [UInt32.toNat_add]
      have hshift : ('A'.val - 'a'.val).toNat = 2 ^ 32 - 32 := rfl
      rw [hshift]
      omega
    show (c.val.toNat : ℤ) - 32 = ((c.val + ('A'.val - 'a'.val)).toNat : ℤ)
    rw [hval]
    omega
  · rw [if_neg (show ¬ ('a' ≤ c ∧ c ≤ 'z') from hc), dif_neg hc]

theorem sameSection_eq (a b : String) : sameSection a b = sameName a.toList b.toList := by
  have hupper : ∀ l : Text, l.map upper = (l.map Char.toUpper).map fun c => (c.toNat : ℤ) := by
    intro l
    rw [List.map_map]
    exact List.map_congr_left fun c _ => upper_eq c
  have hinj : Function.Injective fun c : Char => (c.toNat : ℤ) := fun c d h =>
    Char.toNat_inj.1 (Int.ofNat.inj h)
  unfold sameSection sameName
  rw [hupper, hupper]
  exact decide_eq_decide.2 (List.map_injective_iff.2 hinj).eq_iff.symm

theorem contents_configFile {mtime : ℕ} (hm : mtime ≠ 0) (text : Text) :
    (configFile mtime text).contents = ((MinIni.iniBrowse text).getD []).map entryOf := if_neg hm

/-- **The library's writer replaces the section** in every tidy file. -/
theorem replaced_of_rewritten {n mtime now : ℕ} {name : String} {kvs : List (String × String)} {old new : Text}
    (hold : Tidy n old) (hw : Writable n name.toList (textKeys kvs)) (hkept : ∀ kv ∈ kvs, readBack kv.2.toList = kv.2.toList)
    (hput : Copying.Rewritten name.toList (textKeys kvs) old new) (hm : mtime ≠ 0) (hnow : now ≠ 0) :
    Replaced name kvs (configFile mtime old) (configFile now new) := by
  obtain ⟨oldCalls, front, back, hbrowse, hfilter, hnew⟩ := browse_rewritten hold hw hput
  refine ⟨hnow, front.map entryOf, back.map entryOf, ?_, ?_⟩
  · rw [contents_configFile hm, hbrowse, Option.getD_some, ← List.map_append, ← hfilter, List.filter_map]
    congr 1
    refine List.filter_congr fun c _ => ?_
    simp [otherThan, entryOf, sameSection_eq]
  · have hkeys : (keyCalls name.toList (textKeys kvs)).map entryOf = sectionEntries name kvs := by
      rw [keyCalls, textKeys, sectionEntries, List.map_map, List.map_map]
      refine List.map_congr_left fun kv hkv => ?_
      simp [entryOf, hkept kv hkv]
    show ((MinIni.iniBrowse new).getD []).map entryOf = _
    rw [hnew, Option.getD_some, List.map_append, List.map_append, hkeys]

/-! ## The writes -/

/-- a write of the configuration, behind the checks of its function -/
inductive ConfigPut where
  | setValues (values : HocClkConfigValue → ℕ)
  | setValue (kval : HocClkConfigValue) (value : ℕ)
  | resetValue (kval : HocClkConfigValue)
  | setProfiles (tid : ℕ) (table : ProfileTable)

namespace ConfigPut

def sect : ConfigPut → String
  | .setProfiles tid _ => formatTid tid
  | _ => CONFIG_VAL_SECTION

def keys : ConfigPut → List (String × String)
  | .setValues values => configValueKeys values
  | .setValue kval value => configValueKey kval value
  | .resetValue kval => resetValueKey kval
  | .setProfiles _ table => profileKeys table

/-- the widths of the numbers -/
def InRange : ConfigPut → Prop
  | .setValues values => ∀ kval, values kval < 2 ^ 64
  | .setValue _ value => value < 2 ^ 64
  | .resetValue _ => True
  | .setProfiles tid table => tid < 2 ^ 64 ∧ ∀ p m, table p m < 2 ^ 32

end ConfigPut

/-- a character that neither quotes, ends nor starts anything -/
def isPlain (c : Char) : Bool := c.isAlphanum || c = '_'

theorem isPlain_spec {c : Char} (h : isPlain c = true) :
    isBlank c = false ∧ c ≠ '=' ∧ c ≠ ';' ∧ c ≠ '#' ∧ c ≠ '[' ∧ c ≠ dquote ∧ c ≠ nul ∧ c ≠ newline ∧ c ≠ ' ' := by
  have hnot : ∀ d, isPlain d = false → c ≠ d := by
    rintro d hd rfl
    rw [h] at hd
    cases hd
  refine ⟨?_, hnot _ (by decide), hnot _ (by decide), hnot _ (by decide), hnot _ (by decide), hnot _ (by decide),
    hnot _ (by decide), hnot _ (by decide), hnot _ (by decide)⟩
  by_contra hblank
  have hle : c.toNat < 33 := by
    rw [isBlank, Bool.not_eq_false, Bool.and_eq_true, decide_eq_true_iff, decide_eq_true_iff] at hblank
    exact Nat.lt_succ_of_le (UInt32.le_iff_toNat_le.1 hblank.2)
  have hall : ∀ k < 33, isPlain (Char.ofNat k) = false := by decide
  have hc := hall c.toNat hle
  rw [Char.ofNat_toNat, h] at hc
  cases hc

/-- a text of such characters -/
def PlainText (str : Text) : Prop := ∀ c ∈ str, isPlain c = true

theorem formatConfigValue_plain (kval : HocClkConfigValue) :
    PlainText (hocclkFormatConfigValue kval).toList ∧ (hocclkFormatConfigValue kval).toList.length ≤ 40 := by
  have hall : ∀ k ∈ HocClkConfigValue.all, (hocclkFormatConfigValue k).toList.all isPlain = true ∧
      (hocclkFormatConfigValue k).toList.length ≤ 40 := by decide +kernel
  have hk := hall kval kval.mem_all
  exact ⟨List.all_eq_true.1 hk.1, hk.2⟩

theorem profileKey_plain (p : HocClkProfile) (m : HocClkModule) :
    PlainText (profileKey p m).toList ∧ (profileKey p m).toList.length ≤ 40 := by
  have hall : ∀ pm ∈ profilePairs, (profileKey pm.1 pm.2).toList.all isPlain = true ∧
      (profileKey pm.1 pm.2).toList.length ≤ 40 := by decide +kernel
  have hpm := hall (p, m) (mem_profilePairs p m)
  exact ⟨List.all_eq_true.1 hpm.1, hpm.2⟩

theorem toString_plain {v : ℕ} (hv : v < 2 ^ 64) :
    PlainText (toString v).toList ∧ (toString v).toList.length ≤ 20 := by
  have hlist : (toString v).toList = Nat.toDigits 10 v := Nat.toList_repr
  rw [hlist]
  constructor
  · intro c hc
    have hdigit := Nat.isDigit_of_mem_toDigits (by norm_num) (by norm_num) hc
    simp [isPlain, Char.isAlphanum, hdigit]
  · exact (Nat.length_toDigits_le_iff (by norm_num) (by norm_num)).2 (hv.trans (by norm_num))

theorem isPlain_of_digitVal {c : Char} {d : ℕ} (h : digitVal c = some d) : isPlain c = true := by
  have hrange : ('0' ≤ c ∧ c ≤ '9') ∨ ('a' ≤ c ∧ c ≤ 'z') ∨ ('A' ≤ c ∧ c ≤ 'Z') := by
    unfold digitVal at h
    split_ifs at h with hdigit hlower hupper
    · exact Or.inl hdigit
    · exact Or.inr (Or.inl hlower)
    · exact Or.inr (Or.inr hupper)
  simp only [isPlain, Char.isAlphanum, Char.isAlpha, Char.isUpper, Char.isLower, Char.isDigit, Bool.or_eq_true,
    Bool.and_eq_true, decide_eq_true_iff]
  obtain hdigit | hlower | hupper := hrange
  · exact Or.inl (Or.inr hdigit)
  · exact Or.inl (Or.inl (Or.inr hlower))
  · exact Or.inl (Or.inl (Or.inl hupper))

theorem formatTid_plain (tid : ℕ) : PlainText (formatTid tid).toList := by
  intro c hc
  obtain ⟨d, -, hval⟩ := formatTid_digits tid c hc
  exact isPlain_of_digitVal hval

section Plain

variable {str : Text}

theorem PlainText.notMem (h : PlainText str) {d : Char} (hd : isPlain d = false) : d ∉ str := by
  intro hmem
  have hplain := h d hmem
  rw [hd] at hplain
  cases hplain

theorem PlainText.trimmed (h : PlainText str) : Trimmed str :=
  ⟨fun c hc => (isPlain_spec (h c (List.mem_of_mem_head? hc))).1,
    fun c hc => (isPlain_spec (h c (List.mem_of_mem_getLast? hc))).1⟩

theorem PlainText.checkEnquote (h : PlainText str) : checkEnquote str ≠ .enquote := by
  have hany : str.any (fun c => decide (c = dquote ∨ c = ';' ∨ c = '#')) = false := by
    rw [List.any_eq_false]
    intro c hc
    obtain ⟨-, -, hsemi, hhash, -, hquote, -⟩ := isPlain_spec (h c hc)
    simp [hsemi, hhash, hquote]
  have hlast : str.getLast? ≠ some ' ' := by
    intro hsome
    exact h.notMem (d := ' ') (by decide) (List.mem_of_mem_getLast? hsome)
  unfold MinIni.checkEnquote
  rw [hany, if_neg (by simpa using hlast)]
  exact nofun

theorem PlainText.encode (h : PlainText str) : encode str = str := if_neg h.checkEnquote

theorem PlainText.readBack (h : PlainText str) : readBack str = str := by
  rw [MinIni.readBack, if_neg h.checkEnquote, trim_eq_self_iff]
  exact h.trimmed

theorem PlainText.plainKey (h : PlainText str) : PlainKey str := by
  refine ⟨h.notMem (by decide), fun c hc => ?_, h.trimmed.2⟩
  obtain ⟨hblank, -, hsemi, hhash, hbracket, -⟩ := isPlain_spec (h c (List.mem_of_mem_head? hc))
  exact ⟨hblank, hsemi, hhash, hbracket⟩

end Plain

/-- a section of plain texts survives being written and read -/
theorem writable_of_plain {sect : String} {kvs : List (String × String)} (hne : sect.toList ≠ [])
    (hsect : PlainText sect.toList) (hlen : sect.toList.length ≤ 16)
    (hkeys : ∀ kv ∈ kvs, PlainText kv.1.toList ∧ kv.1.toList.length ≤ 40 ∧ PlainText kv.2.toList ∧ kv.2.toList.length ≤ 20) :
    Writable 16 sect.toList (textKeys kvs) := by
  have hmem : ∀ kv ∈ textKeys kvs, PlainText kv.1 ∧ kv.1.length ≤ 40 ∧ PlainText kv.2 ∧ kv.2.length ≤ 20 := by
    intro entry hentry
    obtain ⟨kv, hkv, rfl⟩ := List.mem_map.1 hentry
    exact hkeys kv hkv
  constructor
  case named => exact hne
  case sectLength => exact hlen
  case heading => omega
  case sectChars => exact ⟨hsect.notMem (by decide), hsect.notMem (by decide)⟩
  case plain => exact fun kv hkv => (hmem kv hkv).1.plainKey
  case keyChars =>
    intro kv hkv
    obtain ⟨hkey, -, hvalue, -⟩ := hmem kv hkv
    exact ⟨hkey.notMem (by decide), hkey.notMem (by decide), hvalue.notMem (by decide), hvalue.notMem (by decide)⟩
  case keyLength =>
    intro kv hkv
    obtain ⟨-, hkey, hplain, hvalue⟩ := hmem kv hkv
    rw [hplain.encode]
    omega

namespace ConfigPut

theorem keys_plain {put : ConfigPut} (h : put.InRange) : ∀ kv ∈ put.keys,
    PlainText kv.1.toList ∧ kv.1.toList.length ≤ 40 ∧ PlainText kv.2.toList ∧ kv.2.toList.length ≤ 20 := by
  intro kv hkv
  cases put with
  | setValues values =>
    obtain ⟨kval, -, rfl⟩ := List.mem_map.1 hkv
    exact ⟨(formatConfigValue_plain kval).1, (formatConfigValue_plain kval).2, (toString_plain (h kval)).1,
      (toString_plain (h kval)).2⟩
  | setValue kval value =>
    obtain rfl := List.mem_singleton.1 hkv
    exact ⟨(formatConfigValue_plain kval).1, (formatConfigValue_plain kval).2, (toString_plain h).1,
      (toString_plain h).2⟩
  | resetValue kval =>
    obtain rfl := List.mem_singleton.1 hkv
    exact ⟨(formatConfigValue_plain kval).1, (formatConfigValue_plain kval).2, fun _ hc => absurd hc List.not_mem_nil,
      Nat.zero_le _⟩
  | setProfiles tid table =>
    obtain ⟨pm, -, rfl⟩ := List.mem_map.1 hkv
    have hrate : table pm.1 pm.2 < 2 ^ 64 := (h.2 pm.1 pm.2).trans (by norm_num)
    exact ⟨(profileKey_plain pm.1 pm.2).1, (profileKey_plain pm.1 pm.2).2, (toString_plain hrate).1,
      (toString_plain hrate).2⟩

theorem length_sect {put : ConfigPut} (h : put.InRange) : put.sect.toList.length = 6 ∨ put.sect.toList.length = 16 := by
  cases put with
  | setProfiles tid table => exact Or.inr (formatTid_length h.1)
  | _ => exact Or.inl (show CONFIG_VAL_SECTION.toList.length = 6 by decide)

/-- **Every write of the configuration** survives in the file. -/
theorem writable {put : ConfigPut} (h : put.InRange) : Writable 16 put.sect.toList (textKeys put.keys) := by
  have hlen := length_sect h
  have hplain : PlainText put.sect.toList := by
    cases put with
    | setProfiles tid table => exact formatTid_plain tid
    | _ => exact List.all_eq_true.1 (show CONFIG_VAL_SECTION.toList.all isPlain = true by decide)
  refine writable_of_plain ?_ hplain (by omega) (keys_plain h)
  intro hnil
  rw [hnil] at hlen
  simp at hlen

theorem readBack_keys {put : ConfigPut} (h : put.InRange) : ∀ kv ∈ put.keys, readBack kv.2.toList = kv.2.toList :=
  fun kv hkv => (keys_plain h kv hkv).2.2.1.readBack

end ConfigPut

/-! ## What a load finds -/

/-- the values and the clocks of the titles -/
structure Loaded where
  configValues : HocClkConfigValue → ℕ
  gProfileMHzMap : ℕ → ProfileTable
  gProfileCountMap : ℕ → ℕ

/-- the configuration loaded from a file -/
def loaded (c : Config) (f : ConfigFile) : Loaded :=
  ⟨(c.load f).configValues, (c.load f).gProfileMHzMap, (c.load f).gProfileCountMap⟩

/-- what a write leaves to be loaded; no section can be found for title 0 -/
def Loaded.put (s : Loaded) : ConfigPut → Loaded
  | .setValues values => { s with configValues := fun kval => normValue kval (values kval) }
  | .setValue kval value =>
    { s with configValues := Function.update hocclkDefaultConfigValue kval (normValue kval value) }
  | .resetValue kval => { s with configValues := Function.update hocclkDefaultConfigValue kval (normValue kval 0) }
  | .setProfiles tid table =>
    if tid = 0 then s
    else
      { s with
        gProfileMHzMap := Function.update s.gProfileMHzMap tid table
        gProfileCountMap := Function.update s.gProfileCountMap tid table.clocks }

/-- titles are named in one way only: every name that reads as a title's is the one that is written for it -/
def NoAlias (f : ConfigFile) : Prop :=
  ∀ e ∈ f.contents, ∀ k, clockEntry e = some k → sameSection e.sect (formatTid k.tid) = true

section Step

variable {f f' : ConfigFile} {kvs : List (String × String)} {tid : ℕ} {table : ProfileTable} {name : String}

/-- the values of a file do not depend on a title's section -/
theorem Replaced.lastValue_title (h : Replaced (formatTid tid) kvs f f') (h64 : tid < 2 ^ 64) (kval : HocClkConfigValue) :
    RyazhaClk.lastValue f'.contents kval = RyazhaClk.lastValue f.contents kval := by
  obtain ⟨pre, post, hfilter, hentries⟩ := h.entries
  have hnew : (sectionEntries (formatTid tid) kvs).filterMap valueEntry = [] := by
    rw [List.filterMap_eq_nil_iff]
    intro e he
    exact if_neg (sect_of_mem he ▸ formatTid_ne_values h64)
  have hold : f.contents.filterMap valueEntry =
      (f.contents.filter fun e => !sameSection e.sect (formatTid tid)).filterMap valueEntry := by
    rw [List.filterMap_filter]
    refine List.filterMap_congr fun e _ => ?_
    cases hs : sameSection e.sect (formatTid tid) with
    | false => rfl
    | true =>
      have hne : e.sect ≠ CONFIG_VAL_SECTION := by
        intro he
        have hlen := congrArg List.length (of_decide_eq_true hs)
        rw [List.length_map, List.length_map, he] at hlen
        have h16 : (formatTid tid).toList.length = 16 := formatTid_length h64
        rw [h16] at hlen
        exact absurd hlen (by decide)
      exact if_neg hne
  unfold RyazhaClk.lastValue
  rw [h.contents, hentries, hold, hfilter]
  simp [hnew]

/-- nothing left in the file speaks of the title -/
theorem clocksOf_rest (halias : NoAlias f) {es : List IniEntry}
    (hes : ∀ e ∈ es, e ∈ f.contents.filter fun e => !sameSection e.sect (formatTid tid)) : clocksOf es tid = [] := by
  rw [clocksOf, List.filter_eq_nil_iff]
  intro k hk
  obtain ⟨e, he, hke⟩ := List.mem_filterMap.1 hk
  have hmem := hes e he
  rw [List.mem_filter] at hmem
  intro htid
  have hsame := halias e hmem.1 k hke
  rw [of_decide_eq_true htid] at hsame
  simp [hsame] at hmem

/-- the title's own clocks behind a write -/
theorem title_written (halias : NoAlias f) (h64 : tid < 2 ^ 64) (h32 : ∀ p m, table p m < 2 ^ 32) (htid : tid ≠ 0)
    {pre post : List IniEntry}
    (hfilter : f.contents.filter (fun e => !sameSection e.sect (formatTid tid)) = pre ++ post) :
    lastMHz (pre ++ sectionEntries (formatTid tid) (profileKeys table) ++ post) tid = table ∧
      clockCount (pre ++ sectionEntries (formatTid tid) (profileKeys table) ++ post) tid % 2 ^ 8 = table.clocks := by
  have hpre : clocksOf pre tid = [] := clocksOf_rest halias fun e he => hfilter ▸ List.mem_append_left _ he
  have hpost : clocksOf post tid = [] := clocksOf_rest halias fun e he => hfilter ▸ List.mem_append_right _ he
  have hinert : RestInert tid table pre post := by
    refine ⟨?_, fun p m => Or.inl (lastMHz_of_nil hpost p m), fun p m _ => lastMHz_of_nil hpre p m⟩
    rw [clockCount_append, clockCount_of_nil hpre, clockCount_of_nil hpost]
    rfl
  obtain ⟨hmap, hcount⟩ := (title_reloads_iff h64 h32 pre post).2 ⟨Or.inl htid, hinert⟩
  refine ⟨?_, hcount⟩
  funext p m
  exact hmap p m

/-- **A title that is written** is loaded as it was written, and every other one as before. -/
theorem loaded_setProfiles (h : Replaced (formatTid tid) (profileKeys table) f f') (halias : NoAlias f)
    (h64 : tid < 2 ^ 64) (h32 : ∀ p m, table p m < 2 ^ 32) (c : Config) :
    loaded c f' = (loaded c f).put (.setProfiles tid table) := by
  have hvalues : (c.load f').configValues = (c.load f).configValues := by
    funext kval
    rw [Config.load_configValues, Config.load_configValues, h.lastValue_title h64]
  obtain ⟨pre, post, hfilter, hentries⟩ := h.entries
  have hothers : ∀ t, t ≠ tid → clocksOf f'.contents t = clocksOf f.contents t := by
    intro t ht
    rw [h.contents, hentries]
    exact clocksOf_other h64 hfilter ht
  have hsame : ∀ t, clocksOf f'.contents t = clocksOf f.contents t →
      (c.load f').gProfileMHzMap t = (c.load f).gProfileMHzMap t ∧
        (c.load f').gProfileCountMap t = (c.load f).gProfileCountMap t := by
    intro t ht
    rw [load_clocks, load_clocks, load_counts, load_counts]
    exact ⟨lastMHz_congr ht, congrArg (· % 2 ^ 8) (clockCount_congr ht)⟩
  by_cases htid : tid = 0
  · have hall : ∀ t, clocksOf f'.contents t = clocksOf f.contents t := by
      intro t
      by_cases ht : t = tid
      · rw [ht, htid, clocksOf_zero, clocksOf_zero]
      · exact hothers t ht
    have hmap : (c.load f').gProfileMHzMap = (c.load f).gProfileMHzMap := funext fun t => (hsame t (hall t)).1
    have hcount : (c.load f').gProfileCountMap = (c.load f).gProfileCountMap := funext fun t => (hsame t (hall t)).2
    rw [Loaded.put, if_pos htid, loaded, loaded, hvalues, hmap, hcount]
  · obtain ⟨htable, hclocks⟩ := title_written halias h64 h32 htid hfilter
    have hmap : (c.load f').gProfileMHzMap = Function.update (c.load f).gProfileMHzMap tid table := by
      funext t
      by_cases ht : t = tid
      · rw [ht, Function.update_self, load_clocks, h.contents, hentries]
        exact htable
      · rw [Function.update_of_ne ht]
        exact (hsame t (hothers t ht)).1
    have hcount : (c.load f').gProfileCountMap = Function.update (c.load f).gProfileCountMap tid table.clocks := by
      funext t
      by_cases ht : t = tid
      · rw [ht, Function.update_self, load_counts, h.contents, hentries]
        exact hclocks
      · rw [Function.update_of_ne ht]
        exact (hsame t (hothers t ht)).2
    rw [Loaded.put, if_neg htid, loaded, loaded, hvalues, hmap, hcount]

/-- **The values that are written** are loaded as they were written, and every title as before. -/
theorem loaded_values (h : Replaced CONFIG_VAL_SECTION kvs f f') (c : Config) :
    loaded c f' = { loaded c f with configValues := (c.load f').configValues } := by
  have hmap : (c.load f').gProfileMHzMap = (c.load f).gProfileMHzMap := by
    rw [load_clocks, load_clocks, h.lastMHz]
  have hcount : (c.load f').gProfileCountMap = (c.load f).gProfileCountMap := by
    rw [load_counts, load_counts, h.clockCount]
  rw [loaded, hmap, hcount]
  rfl

theorem loaded_put {put : ConfigPut} (hput : put.InRange) (h : Replaced put.sect put.keys f f') (halias : NoAlias f)
    (c : Config) : loaded c f' = (loaded c f).put put := by
  cases put with
  | setValues values =>
    have hvalues : (c.load f').configValues = fun kval => normValue kval (values kval) :=
      funext fun kval => normValue_reload hput h c kval
    rw [loaded_values h, hvalues]
    rfl
  | setValue kval value =>
    have hread : strtoul (toString value) 0 = value := strtoul_repr hput (.inl rfl)
    rw [loaded_values h, load_singleKey h, hread]
    rfl
  | resetValue kval =>
    rw [loaded_values h, load_singleKey h, strtoul_empty 0 (.inl rfl)]
    rfl
  | setProfiles tid table => exact loaded_setProfiles h halias hput.1 hput.2 c

theorem NoAlias.of_replaced (h : Replaced name kvs f f') (halias : NoAlias f)
    (hname : ∀ key value k, clockEntry ⟨name, key, value⟩ = some k → sameSection name (formatTid k.tid) = true) :
    NoAlias f' := by
  obtain ⟨pre, post, hfilter, hentries⟩ := h.entries
  intro e he k hk
  rw [h.contents, hentries, List.mem_append, List.mem_append] at he
  have hrest : e ∈ pre ++ post → sameSection e.sect (formatTid k.tid) = true := by
    intro hmem
    rw [← hfilter, List.mem_filter] at hmem
    exact halias e hmem.1 k hk
  obtain (he | he) | he := he
  · exact hrest (List.mem_append_left _ he)
  · obtain ⟨kv, -, rfl⟩ := List.mem_map.1 he
    exact hname _ _ k hk
  · exact hrest (List.mem_append_right _ he)

/-- no write names a title in another way -/
theorem NoAlias.put {put : ConfigPut} (hput : put.InRange) (h : Replaced put.sect put.keys f f') (halias : NoAlias f) :
    NoAlias f' := by
  refine halias.of_replaced h fun key value k hk => ?_
  obtain ⟨hne, hlen, htid, -⟩ := clockEntry_eq_some_iff.1 hk
  cases put with
  | setProfiles tid table =>
    have hsame : tid = k.tid := (strtoul_formatTid hput.1).symm.trans htid
    rw [← hsame]
    exact decide_eq_true rfl
  | _ => exact absurd rfl hne

end Step

/-! ## Any list of writes -/

/-- the file behind a list of writes of the configuration -/
inductive ConfigRun : Text → List ConfigPut → Text → Prop where
  | nil (file : Text) : ConfigRun file [] file
  | cons {old mid new : Text} {put : ConfigPut} {puts : List ConfigPut} :
      Put put.sect.toList (textKeys put.keys) old mid → ConfigRun mid puts new → ConfigRun old (put :: puts) new

/-- **The configuration is kept.** On a tidy file that names each title in one way, any list of writes goes through, and
a load behind it finds every value and every title as they were written last. -/
theorem configRun_loaded {mtime : ℕ} (hm : mtime ≠ 0) (c : Config) {old : Text} (hold : Tidy 16 old)
    (halias : NoAlias (configFile mtime old)) {puts : List ConfigPut} (hputs : ∀ put ∈ puts, put.InRange) :
    (∃ new, ConfigRun old puts new) ∧ ∀ new, ConfigRun old puts new → Tidy 16 new ∧
      loaded c (configFile mtime new) = puts.foldl Loaded.put (loaded c (configFile mtime old)) := by
  induction puts generalizing old with
  | nil =>
    refine ⟨⟨old, .nil old⟩, fun new hrun => ?_⟩
    cases hrun
    exact ⟨hold, rfl⟩
  | cons put puts ih =>
    have hput : put.InRange := hputs put List.mem_cons_self
    have hrest : ∀ put ∈ puts, put.InRange := fun put hput => hputs put (List.mem_cons_of_mem _ hput)
    have hw := ConfigPut.writable hput
    have hstep : ∀ mid, Put put.sect.toList (textKeys put.keys) old mid →
        Tidy 16 mid ∧ Replaced put.sect put.keys (configFile mtime old) (configFile mtime mid) := by
      intro mid hmid
      have hrewritten := hold.rewritten hw hmid
      obtain ⟨pre, gone, post, hsplit⟩ := hold.split hw hrewritten
      exact ⟨hsplit.tidy_new hw hold,
        replaced_of_rewritten hold hw (ConfigPut.readBack_keys hput) hrewritten hm hm⟩
    constructor
    · obtain ⟨s, hs⟩ := hold.put hw (Nat.lt_succ_self (old.length + 512)) fun _ => nul
      have hmid : Put put.sect.toList (textKeys put.keys) old s.written := ⟨_, _, s, Nat.lt_succ_self _, hs, rfl⟩
      obtain ⟨htidy, hreplaced⟩ := hstep _ hmid
      obtain ⟨new, hrun⟩ := (ih htidy (halias.put hput hreplaced) hrest).1
      exact ⟨new, .cons hmid hrun⟩
    · intro new hrun
      cases hrun with
      | cons hmid hrun =>
        obtain ⟨htidy, hreplaced⟩ := hstep _ hmid
        obtain ⟨hnew, hloaded⟩ := (ih htidy (halias.put hput hreplaced) hrest).2 new hrun
        exact ⟨hnew, by rw [hloaded, List.foldl_cons, loaded_put hput hreplaced halias]⟩

/-- a file as a user may have left it: a comment, a blank line, and no line end behind the last value -/
def sampleText : Text := "; values first\n[values]\nuncapped_clocks=1\n\n[0100F2C0115B6000]\ndocked_mem = 1600".toList

theorem tidy_sampleText : Tidy 16 sampleText := by decide +kernel

theorem noAlias_sampleText : NoAlias (configFile 1 sampleText) := by
  have hall : (configFile 1 sampleText).contents.all (fun e =>
      (clockEntry e).all fun k => sameSection e.sect (formatTid k.tid)) = true := by decide +kernel
  intro e he k hk
  have hentry := List.all_eq_true.1 hall e he
  rwa [hk] at hentry

/-- values and a title written to it, and a value alone behind them -/
theorem sampleText_kept : ∃ new,
    ConfigRun sampleText [.setValue .thermalThrottle 0, .setProfiles 0x0100F2C0115B6000 cpuTable,
      .setValue .pollingIntervalMs 500] new ∧ Tidy 16 new ∧
    loaded Config.initial (configFile 1 new) = [.setValue .thermalThrottle 0,
      .setProfiles 0x0100F2C0115B6000 cpuTable, .setValue .pollingIntervalMs 500].foldl Loaded.put
        (loaded Config.initial (configFile 1 sampleText)) := by
  have hputs : ∀ put ∈ [.setValue .thermalThrottle 0, .setProfiles 0x0100F2C0115B6000 cpuTable,
      .setValue .pollingIntervalMs 500], ConfigPut.InRange put := by
    simp only [List.forall_mem_cons, ConfigPut.InRange, List.not_mem_nil, false_implies, implies_true, and_true]
    refine ⟨by norm_num, ⟨by norm_num, fun p m => ?_⟩, by norm_num⟩
    unfold cpuTable
    split_ifs <;> norm_num
  obtain ⟨⟨new, hrun⟩, hall⟩ :=
    configRun_loaded (show 1 ≠ 0 by decide) Config.initial tidy_sampleText noAlias_sampleText hputs
  obtain ⟨htidy, hloaded⟩ := hall new hrun
  exact ⟨new, hrun, htidy, hloaded⟩

end RyazhaClk
