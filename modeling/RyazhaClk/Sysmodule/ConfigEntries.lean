/-
What the entries of a configuration file mean: a value of a key, a clock of a title, or nothing. A load is determined by
the last value of each key, the last clock of each title, profile and module, and the number of clocks of each title.

- `load_configValues`, `load_gProfileMHzMap`, `load_gProfileCountMap`: the loaded store, read off the entries.
- `lastValue_append`, `lastMHz_append`, `clockCount_append`: what two runs of entries mean together.
-/
import Mathlib.Tactic
import RyazhaClk.Sysmodule.Config

namespace RyazhaClk

/-! ## Entries -/

def CONFIG_VAL_SECTION : String := "values"

/-- what `ini_browse` finds in a file; nothing where there is none -/
def ConfigFile.contents (f : ConfigFile) : List IniEntry := if f.mtime = 0 then [] else f.entries

/-- a clock `BrowseIniFunc` stores: a title and a rate that are not 0 -/
structure TitleClock where
  tid : ℕ
  profile : HocClkProfile
  module : HocClkModule
  mhz : ℕ
  tid_ne : tid ≠ 0
  mhz_ne : mhz ≠ 0

/-- the key and the number an entry of the value section names -/
def valueEntry (e : IniEntry) : Option (HocClkConfigValue × ℕ) :=
  if e.sect = CONFIG_VAL_SECTION then
    (HocClkConfigValue.all.find? fun kval => e.key = hocclkFormatConfigValue kval).map (·, strtoul e.value 0)
  else none

/-- the clock an entry of a title's section names -/
def clockEntry (e : IniEntry) : Option TitleClock :=
  if e.sect = CONFIG_VAL_SECTION then none
  else if ht : strtoul e.sect 16 = 0 ∨ e.sect.length ≠ 16 then none
  else
    match Config.parseClockKey e.key with
    | none => none
    | some pm =>
      if hm : strtoul e.value 10 % 2 ^ 32 = 0 then none
      else some ⟨strtoul e.sect 16, pm.1, pm.2, strtoul e.value 10 % 2 ^ 32, fun h => ht (.inl h), hm⟩

/-- a value as the store keeps it -/
def normValue (kval : HocClkConfigValue) (input : ℕ) : ℕ :=
  if hocclkValidConfigValue kval input then input else hocclkDefaultConfigValue kval

/-- the last value the entries give a key -/
def lastValue (es : List IniEntry) (kval : HocClkConfigValue) : Option ℕ :=
  ((es.filterMap valueEntry).reverse.find? fun kv => kv.1 = kval).map Prod.snd

def TitleClock.names (k : TitleClock) (tid : ℕ) (p : HocClkProfile) (m : HocClkModule) : Bool :=
  k.tid = tid ∧ k.profile = p ∧ k.module = m

/-- the last rate the entries give a title's clock; 0 when there is none -/
def lastMHz (es : List IniEntry) (tid : ℕ) (p : HocClkProfile) (m : HocClkModule) : ℕ :=
  (((es.filterMap clockEntry).reverse.find? fun k => k.names tid p m).map TitleClock.mhz).getD 0

/-- the number of entries that name a clock of the title -/
def clockCount (es : List IniEntry) (tid : ℕ) : ℕ := (es.filterMap clockEntry).countP fun k => k.tid = tid

theorem clockEntry_of_valueEntry {e : IniEntry} {kv : HocClkConfigValue × ℕ} (h : valueEntry e = some kv) :
    clockEntry e = none := by
  unfold valueEntry at h
  split_ifs at h with hs
  exact if_pos hs

/-- what makes an entry a clock -/
theorem clockEntry_eq_some_iff {e : IniEntry} {k : TitleClock} :
    clockEntry e = some k ↔ e.sect ≠ CONFIG_VAL_SECTION ∧ e.sect.length = 16 ∧ strtoul e.sect 16 = k.tid ∧
      Config.parseClockKey e.key = some (k.profile, k.module) ∧ strtoul e.value 10 % 2 ^ 32 = k.mhz := by
  unfold clockEntry
  by_cases hs : e.sect = CONFIG_VAL_SECTION
  · simp [hs]
  · rw [if_neg hs]
    by_cases ht : strtoul e.sect 16 = 0 ∨ e.sect.length ≠ 16
    · rw [dif_pos ht]
      constructor
      · intro h
        cases h
      · rintro ⟨-, hlen, htid, -⟩
        rcases ht with ht | ht
        · exact absurd (htid.symm.trans ht) k.tid_ne
        · exact absurd hlen ht
    · rw [dif_neg ht]
      have hlen : e.sect.length = 16 := by
        by_contra hlen
        exact ht (.inr hlen)
      cases hp : Config.parseClockKey e.key with
      | none => simp
      | some pm =>
        by_cases hm : strtoul e.value 10 % 2 ^ 32 = 0
        · simp only [dif_pos hm]
          constructor
          · intro h
            cases h
          · rintro ⟨-, -, -, -, hmhz⟩
            exact absurd (hmhz.symm.trans hm) k.mhz_ne
        · simp only [dif_neg hm]
          constructor
          · intro h
            obtain rfl := Option.some.inj h
            exact ⟨hs, hlen, rfl, rfl, rfl⟩
          · rintro ⟨-, -, htid, hpm, hmhz⟩
            obtain rfl := Option.some.inj hpm
            cases k
            simp_all

/-! ## Two runs of entries -/

@[simp] theorem lastValue_nil (kval : HocClkConfigValue) : lastValue [] kval = none := rfl

@[simp] theorem lastMHz_nil (tid : ℕ) (p : HocClkProfile) (m : HocClkModule) : lastMHz [] tid p m = 0 := rfl

@[simp] theorem clockCount_nil (tid : ℕ) : clockCount [] tid = 0 := rfl

theorem lastValue_append (es fs : List IniEntry) (kval : HocClkConfigValue) :
    lastValue (es ++ fs) kval = (lastValue fs kval).or (lastValue es kval) := by
  unfold lastValue
  rw [List.filterMap_append, List.reverse_append, List.find?_append]
  cases (fs.filterMap valueEntry).reverse.find? fun kv => kv.1 = kval <;> simp

theorem lastMHz_append (es fs : List IniEntry) (tid : ℕ) (p : HocClkProfile) (m : HocClkModule) :
    lastMHz (es ++ fs) tid p m = if lastMHz fs tid p m = 0 then lastMHz es tid p m else lastMHz fs tid p m := by
  unfold lastMHz
  rw [List.filterMap_append, List.reverse_append, List.find?_append]
  cases (fs.filterMap clockEntry).reverse.find? fun k => k.names tid p m with
  | none => simp
  | some k => simp [k.mhz_ne]

theorem clockCount_append (es fs : List IniEntry) (tid : ℕ) :
    clockCount (es ++ fs) tid = clockCount es tid + clockCount fs tid := by
  rw [clockCount, List.filterMap_append, List.countP_append]
  rfl

/-! ## The clocks of one title -/

/-- the clocks of a title, in the order of the entries -/
def clocksOf (es : List IniEntry) (tid : ℕ) : List TitleClock := (es.filterMap clockEntry).filter fun k => k.tid = tid

theorem clockCount_eq_length (es : List IniEntry) (tid : ℕ) : clockCount es tid = (clocksOf es tid).length :=
  List.countP_eq_length_filter

theorem lastMHz_eq_find (es : List IniEntry) (tid : ℕ) (p : HocClkProfile) (m : HocClkModule) :
    lastMHz es tid p m = (((clocksOf es tid).reverse.find? fun k => k.names tid p m).map TitleClock.mhz).getD 0 := by
  have hnames : (fun k : TitleClock => decide (decide (k.tid = tid) = true ∧ k.names tid p m = true)) =
      fun k => k.names tid p m := by
    funext k
    by_cases hk : k.names tid p m = true
    · have htid := hk
      simp only [TitleClock.names, decide_eq_true_eq] at htid
      simp [htid.1, hk]
    · simp [hk]
  rw [clocksOf, ← List.filter_reverse, List.find?_filter, hnames]
  rfl

/-- entries with the same clocks of a title say the same about it -/
theorem lastMHz_congr {es fs : List IniEntry} {tid : ℕ} (h : clocksOf es tid = clocksOf fs tid) :
    lastMHz es tid = lastMHz fs tid := by
  funext p m
  rw [lastMHz_eq_find, lastMHz_eq_find, h]

theorem clockCount_congr {es fs : List IniEntry} {tid : ℕ} (h : clocksOf es tid = clocksOf fs tid) :
    clockCount es tid = clockCount fs tid := by
  rw [clockCount_eq_length, clockCount_eq_length, h]

/-- the last rate of a clock that all entries give the same rate -/
theorem lastMHz_eq_of_forall {es : List IniEntry} {tid v : ℕ} {p : HocClkProfile} {m : HocClkModule}
    (hall : ∀ k ∈ es.filterMap clockEntry, k.names tid p m = true → k.mhz = v)
    (hex : v ≠ 0 → ∃ k ∈ es.filterMap clockEntry, k.names tid p m = true) : lastMHz es tid p m = v := by
  unfold lastMHz
  cases hfind : (es.filterMap clockEntry).reverse.find? fun k => k.names tid p m with
  | none =>
    by_contra hv
    obtain ⟨k, hk, hn⟩ := hex (Ne.symm hv)
    exact List.find?_eq_none.1 hfind k (List.mem_reverse.2 hk) hn
  | some k =>
    have hn := List.find?_some (p := fun k : TitleClock => k.names tid p m) hfind
    exact hall k (List.mem_reverse.1 (List.mem_of_find?_eq_some hfind)) hn

/-- entries left out that name no clock of a title change nothing for it -/
theorem clocksOf_filter {keep : IniEntry → Bool} {es : List IniEntry} {tid : ℕ}
    (h : ∀ e ∈ es, keep e = false → ∀ k, clockEntry e = some k → k.tid ≠ tid) :
    clocksOf (es.filter keep) tid = clocksOf es tid := by
  induction es with
  | nil => rfl
  | cons e es ih =>
    have ih' := ih fun x hx => h x (List.mem_cons_of_mem e hx)
    unfold clocksOf at ih' ⊢
    cases hk : keep e with
    | true =>
      rw [List.filter_cons_of_pos hk]
      cases hc : clockEntry e with
      | none => rw [List.filterMap_cons_none hc, List.filterMap_cons_none hc, ih']
      | some k => rw [List.filterMap_cons_some hc, List.filterMap_cons_some hc, List.filter_cons, List.filter_cons, ih']
    | false =>
      rw [List.filter_cons_of_neg (by simp [hk]), ih']
      cases hc : clockEntry e with
      | none => rw [List.filterMap_cons_none hc]
      | some k =>
        have htid := h e (by simp) hk k hc
        rw [List.filterMap_cons_some hc, List.filter_cons_of_neg (by simpa using htid)]

/-! ## The store behind a run of entries -/

namespace Config

/-- an entry is a value, a clock, or nothing -/
theorem browseIniFunc_eq (c : Config) (e : IniEntry) :
    c.browseIniFunc e = match valueEntry e, clockEntry e with
      | some kv, _ => c.storeValue kv.1 kv.2
      | none, some k => c.storeClock k.tid k.profile k.module k.mhz
      | none, none => c := by
  by_cases hs : e.sect = CONFIG_VAL_SECTION
  · have hv : valueEntry e = _ := if_pos hs
    rw [browseIniFunc, if_pos (show e.sect = "values" from hs), hv]
    cases HocClkConfigValue.all.find? fun kval => e.key = hocclkFormatConfigValue kval <;> simp [clockEntry, hs]
  · have hv : valueEntry e = none := if_neg hs
    have hc : clockEntry e = _ := if_neg hs
    rw [browseIniFunc, if_neg (show ¬ e.sect = "values" from hs), hv, hc]
    by_cases ht : strtoul e.sect 16 = 0 ∨ e.sect.length ≠ 16
    · simp only [if_pos ht, dif_pos ht]
    · simp only [if_neg ht, dif_neg ht]
      cases parseClockKey e.key with
      | none => rfl
      | some pm =>
        by_cases hm : strtoul e.value 10 % 2 ^ 32 = 0
        · simp only [if_pos hm, dif_pos hm]
        · simp only [if_neg hm, dif_neg hm]

theorem browse_configValues (c : Config) (e : IniEntry) (kval : HocClkConfigValue) :
    (c.browseIniFunc e).configValues kval = ((lastValue [e] kval).map (normValue kval)).getD (c.configValues kval) := by
  rw [browseIniFunc_eq]
  unfold lastValue
  cases hv : valueEntry e with
  | some kv =>
    by_cases hk : kv.1 = kval
    · subst hk
      simp [hv, storeValue, normValue]
    · simp [hv, hk, storeValue, Function.update_of_ne (Ne.symm hk)]
  | none => cases hc : clockEntry e <;> simp [hv, storeClock]

theorem browse_gProfileMHzMap (c : Config) (e : IniEntry) (tid : ℕ) (p : HocClkProfile) (m : HocClkModule) :
    (c.browseIniFunc e).gProfileMHzMap tid p m =
      if lastMHz [e] tid p m = 0 then c.gProfileMHzMap tid p m else lastMHz [e] tid p m := by
  rw [browseIniFunc_eq]
  unfold lastMHz
  cases hv : valueEntry e with
  | some kv => simp [clockEntry_of_valueEntry hv, storeValue]
  | none =>
    cases hc : clockEntry e with
    | none => simp [hc]
    | some k =>
      by_cases hn : k.names tid p m = true
      · have hnames := hn
        simp only [TitleClock.names, decide_eq_true_eq] at hnames
        obtain ⟨rfl, rfl, rfl⟩ := hnames
        simp [hc, hn, k.mhz_ne, storeClock]
      · simp only [TitleClock.names, decide_eq_true_eq] at hn
        simp only [hc, List.filterMap_cons, List.filterMap_nil, List.reverse_singleton, List.find?_cons,
          List.find?_nil, TitleClock.names, hn, decide_false, Option.map_none, Option.getD_none, if_true, storeClock]
        by_cases htid : tid = k.tid
        · subst htid
          by_cases hp : p = k.profile
          · subst hp
            have hm : m ≠ k.module := by
              rintro rfl
              exact hn ⟨rfl, rfl, rfl⟩
            simp [Function.update_of_ne hm]
          · simp [Function.update_of_ne hp]
        · rw [Function.update_of_ne htid]

theorem browse_gProfileCountMap (c : Config) (e : IniEntry) (tid : ℕ) :
    (c.browseIniFunc e).gProfileCountMap tid =
      if clockCount [e] tid = 0 then c.gProfileCountMap tid else (c.gProfileCountMap tid + clockCount [e] tid) % 2 ^ 8 := by
  rw [browseIniFunc_eq]
  unfold clockCount
  cases hv : valueEntry e with
  | some kv => simp [clockEntry_of_valueEntry hv, storeValue]
  | none =>
    cases hc : clockEntry e with
    | none => simp [hc]
    | some k =>
      by_cases htid : k.tid = tid
      · subst htid
        simp [hc, storeClock]
      · simp [hc, htid, storeClock, Function.update_of_ne (Ne.symm htid)]

/-! ## The store behind a load -/

theorem foldl_configValues (c : Config) (es : List IniEntry) (kval : HocClkConfigValue) :
    (es.foldl browseIniFunc c).configValues kval =
      ((lastValue es kval).map (normValue kval)).getD (c.configValues kval) := by
  induction es using List.reverseRecOn with
  | nil => rfl
  | append_singleton es e ih =>
    rw [List.foldl_append, List.foldl_cons, List.foldl_nil, browse_configValues, ih, lastValue_append]
    cases lastValue [e] kval <;> rfl

theorem foldl_gProfileMHzMap (c : Config) (es : List IniEntry) (tid : ℕ) (p : HocClkProfile) (m : HocClkModule) :
    (es.foldl browseIniFunc c).gProfileMHzMap tid p m =
      if lastMHz es tid p m = 0 then c.gProfileMHzMap tid p m else lastMHz es tid p m := by
  induction es using List.reverseRecOn with
  | nil => rfl
  | append_singleton es e ih =>
    rw [List.foldl_append, List.foldl_cons, List.foldl_nil, browse_gProfileMHzMap, ih, lastMHz_append]
    split_ifs <;> rfl

/-- the counter has 8 bits -/
theorem foldl_gProfileCountMap (c : Config) (es : List IniEntry) (tid : ℕ) (hc : c.gProfileCountMap tid < 2 ^ 8) :
    (es.foldl browseIniFunc c).gProfileCountMap tid = (c.gProfileCountMap tid + clockCount es tid) % 2 ^ 8 := by
  induction es using List.reverseRecOn with
  | nil => exact (Nat.mod_eq_of_lt hc).symm
  | append_singleton es e ih =>
    rw [List.foldl_append, List.foldl_cons, List.foldl_nil, browse_gProfileCountMap, ih, clockCount_append]
    split_ifs with h
    · rw [h, Nat.add_zero]
    · omega

theorem load_eq (c : Config) (f : ConfigFile) :
    c.load f = { f.contents.foldl browseIniFunc { c.close with gMtime := f.mtime } with gLoaded := true } := by
  unfold load ConfigFile.contents
  dsimp only
  split_ifs <;> rfl

/-- **The loaded values.** -/
theorem load_configValues (c : Config) (f : ConfigFile) (kval : HocClkConfigValue) :
    (c.load f).configValues kval =
      ((lastValue f.contents kval).map (normValue kval)).getD (hocclkDefaultConfigValue kval) := by
  rw [load_eq]
  exact foldl_configValues _ _ _

/-- **The loaded clocks.** -/
theorem load_gProfileMHzMap (c : Config) (f : ConfigFile) (tid : ℕ) (p : HocClkProfile) (m : HocClkModule) :
    (c.load f).gProfileMHzMap tid p m = lastMHz f.contents tid p m := by
  rw [load_eq]
  dsimp only
  rw [foldl_gProfileMHzMap]
  split_ifs with h
  · exact h.symm
  · rfl

/-- **The loaded counts.** -/
theorem load_gProfileCountMap (c : Config) (f : ConfigFile) (tid : ℕ) :
    (c.load f).gProfileCountMap tid = clockCount f.contents tid % 2 ^ 8 := by
  rw [load_eq]
  dsimp only
  rw [foldl_gProfileCountMap _ _ _ (show 0 < 2 ^ 8 by decide)]
  exact congrArg (· % 2 ^ 8) (Nat.zero_add _)

end Config

end RyazhaClk
