/-
The configuration store (`config.cpp`): the values, the per-title clock table, the overrides, and the file they are
loaded from. A file is its modification time and the entries `ini_browse` calls back for, in order; time 0 stands for a
file that cannot be found.

- `refresh_eq_false`: `Refresh` reports nothing exactly when the store is loaded and carries the file's time.
- `refresh_gOverrideFreqs`: reloading the file leaves the overrides alone.
- `getAutoClockHz_lt`: a resolved clock is always a 32-bit value.
-/
import Mathlib.Tactic
import RyazhaClk.Sysmodule.ConfigValue
import RyazhaClk.Sysmodule.Types

namespace RyazhaClk

/-! ## strtoul -/

/-- the value of a digit or letter in the bases `strtoul` reads -/
def digitVal (c : Char) : Option ℕ :=
  if '0' ≤ c ∧ c ≤ '9' then some (c.toNat - '0'.toNat)
  else if 'a' ≤ c ∧ c ≤ 'z' then some (c.toNat - 'a'.toNat + 10)
  else if 'A' ≤ c ∧ c ≤ 'Z' then some (c.toNat - 'A'.toNat + 10)
  else none

def isDigitOf (base : ℕ) (c : Char) : Bool := (digitVal c).any fun d => decide (d < base)

/-- the value of the leading digits -/
def readDigits (base : ℕ) : ℕ → List Char → ℕ
  | acc, [] => acc
  | acc, c :: cs =>
    match digitVal c with
    | some d => if d < base then readDigits base (acc * base + d) cs else acc
    | none => acc

/-- the base and the digits behind an optional `0x` or `0` -/
def splitBase (base : ℕ) (s : List Char) : ℕ × List Char :=
  match s with
  | '0' :: x :: d :: cs =>
    if (base = 0 ∨ base = 16) ∧ (x = 'x' ∨ x = 'X') ∧ isDigitOf 16 d then (16, d :: cs)
    else (if base = 0 then 8 else base, s)
  | '0' :: _ => (if base = 0 then 8 else base, s)
  | _ => (if base = 0 then 10 else base, s)

/-- C's `strtoul` on a 64-bit `unsigned long`: a value out of range saturates, a minus sign negates modulo 2^64 -/
def strtoul (str : String) (base : ℕ) : ℕ :=
  let s := str.toList.dropWhile fun c => c = ' ' || ('\t' ≤ c && c ≤ '\r')
  let (neg, s) := match s with
    | '-' :: r => (true, r)
    | '+' :: r => (false, r)
    | r => (false, r)
  let (b, ds) := splitBase base s
  let n := readDigits b 0 ds
  if 2 ^ 64 ≤ n then 2 ^ 64 - 1 else if neg then (2 ^ 64 - n) % 2 ^ 64 else n

/-! ## The store -/

/-- one callback of `ini_browse` -/
structure IniEntry where
  sect : String
  key : String
  value : String

/-- the configuration file: its modification time (0 when it cannot be found) and its entries -/
structure ConfigFile where
  mtime : ℕ
  entries : List IniEntry

structure Config where
  gLoaded : Bool
  gMtime : ℕ
  configValues : HocClkConfigValue → ℕ
  /-- title, profile and module to MHz; 0 stands for an absent entry -/
  gProfileMHzMap : ℕ → HocClkProfile → HocClkModule → ℕ
  /-- the number of clocks of a title; 0 stands for an absent entry -/
  gProfileCountMap : ℕ → ℕ
  gOverrideFreqs : HocClkModule → ℕ

namespace Config

/-- `Initialize` -/
def initial : Config where
  gLoaded := false
  gMtime := 0
  configValues := hocclkDefaultConfigValue
  gProfileMHzMap := fun _ _ _ => 0
  gProfileCountMap := fun _ => 0
  gOverrideFreqs := fun _ => 0

def getConfigValue (c : Config) (kval : HocClkConfigValue) : ℕ := c.configValues kval

def getOverrideHz (c : Config) (module : HocClkModule) : ℕ := c.gOverrideFreqs module

def setOverrideHz (c : Config) (module : HocClkModule) (hz : ℕ) : Config :=
  { c with gOverrideFreqs := Function.update c.gOverrideFreqs module hz }

/-- the profile and module a key names, the last match winning as in the nested loops -/
def parseClockKey (key : String) : Option (HocClkProfile × HocClkModule) :=
  (HocClkProfile.all.flatMap fun p => HocClkModule.all.map fun m => (p, m)).reverse.find? fun pm =>
    key = hocclkFormatProfile pm.1 ++ "_" ++ hocclkFormatModule pm.2

/-- `configValues[kval] = input`, or the default where the input fails its check -/
def storeValue (c : Config) (kval : HocClkConfigValue) (input : ℕ) : Config :=
  let input := if hocclkValidConfigValue kval input then input else hocclkDefaultConfigValue kval
  { c with configValues := Function.update c.configValues kval input }

/-- store the MHz value of a clock and count it; the counter has 8 bits -/
def storeClock (c : Config) (tid : ℕ) (profile : HocClkProfile) (module : HocClkModule) (mhz : ℕ) : Config :=
  { c with
    gProfileMHzMap := Function.update c.gProfileMHzMap tid
      (Function.update (c.gProfileMHzMap tid) profile (Function.update (c.gProfileMHzMap tid profile) module mhz))
    gProfileCountMap := Function.update c.gProfileCountMap tid ((c.gProfileCountMap tid + 1) % 2 ^ 8) }

/-- `BrowseIniFunc`: an entry that is not recognised is skipped -/
def browseIniFunc (c : Config) (e : IniEntry) : Config :=
  if e.sect = "values" then
    match HocClkConfigValue.all.find? fun kval => e.key = hocclkFormatConfigValue kval with
    | some kval => c.storeValue kval (strtoul e.value 0)
    | none => c
  else
    let tid := strtoul e.sect 16
    if tid = 0 ∨ e.sect.length ≠ 16 then c
    else
      match parseClockKey e.key with
      | none => c
      | some (profile, module) =>
        let mhz := strtoul e.value 10 % 2 ^ 32
        if mhz = 0 then c else c.storeClock tid profile module mhz

/-- `Close` keeps the modification time and the overrides -/
def close (c : Config) : Config :=
  { c with
    gLoaded := false
    gProfileMHzMap := fun _ _ _ => 0
    gProfileCountMap := fun _ => 0
    configValues := hocclkDefaultConfigValue }

def load (c : Config) (file : ConfigFile) : Config :=
  let c := { c.close with gMtime := file.mtime }
  let c := if file.mtime = 0 then c else file.entries.foldl browseIniFunc c
  { c with gLoaded := true }

/-- `Refresh`: reload when nothing is loaded yet or the file's time has moved -/
def refresh (c : Config) (file : ConfigFile) : Bool × Config :=
  if !c.gLoaded || c.gMtime != file.mtime then (true, c.load file) else (false, c)

/-! ## Clock lookup -/

def findClockMHz (c : Config) (tid : ℕ) (module : HocClkModule) (profile : HocClkProfile) : ℕ :=
  if c.gLoaded then c.gProfileMHzMap tid profile module else 0

/-- the first non-zero entry along the fallback list, scaled with 32-bit wrap-around -/
def findClockHzFromProfiles (c : Config) (tid : ℕ) (module : HocClkModule) (profiles : List HocClkProfile)
    (mhzMultiplier : ℕ) : ℕ :=
  let mhz := if c.gLoaded then ((profiles.map (c.findClockMHz tid module)).find? (· ≠ 0)).getD 0 else 0
  mhz * mhzMultiplier % 2 ^ 32

/-- the fallback list of a profile -/
def fallbackProfiles : HocClkProfile → List HocClkProfile
  | .handheld => [.handheld]
  | .handheldCharging | .handheldChargingUSB => [.handheldChargingUSB, .handheldCharging, .handheld]
  | .handheldChargingOfficial => [.handheldChargingOfficial, .handheldCharging, .handheld]
  | .docked => [.docked]

def getAutoClockHz (c : Config) (tid : ℕ) (module : HocClkModule) (profile : HocClkProfile) (returnRaw : Bool) : ℕ :=
  c.findClockHzFromProfiles tid module (fallbackProfiles profile) (if returnRaw then 1 else 1000000)

/-! ## Lemmas -/

/-- an entry changes the values, the clock table and its counts, and nothing else -/
theorem browseIniFunc_frame (c : Config) (e : IniEntry) : ∃ values clocks counts,
    c.browseIniFunc e =
      { c with configValues := values, gProfileMHzMap := clocks, gProfileCountMap := counts } := by
  unfold browseIniFunc
  by_cases hs : e.sect = "values"
  · rw [if_pos hs]
    split
    · exact ⟨_, c.gProfileMHzMap, c.gProfileCountMap, rfl⟩
    · exact ⟨c.configValues, c.gProfileMHzMap, c.gProfileCountMap, rfl⟩
  · rw [if_neg hs]
    by_cases ht : strtoul e.sect 16 = 0 ∨ e.sect.length ≠ 16
    · exact ⟨c.configValues, c.gProfileMHzMap, c.gProfileCountMap, if_pos ht⟩
    · simp only [if_neg ht]
      cases parseClockKey e.key with
      | none => exact ⟨c.configValues, c.gProfileMHzMap, c.gProfileCountMap, rfl⟩
      | some pm =>
        by_cases hm : strtoul e.value 10 % 2 ^ 32 = 0
        · exact ⟨c.configValues, c.gProfileMHzMap, c.gProfileCountMap, if_pos hm⟩
        · exact ⟨c.configValues, _, _, if_neg hm⟩

theorem foldl_browse_frame (es : List IniEntry) (c : Config) :
    (es.foldl browseIniFunc c).gMtime = c.gMtime ∧ (es.foldl browseIniFunc c).gOverrideFreqs = c.gOverrideFreqs := by
  induction es generalizing c with
  | nil => exact ⟨rfl, rfl⟩
  | cons e es ih =>
    obtain ⟨v, p, k, he⟩ := browseIniFunc_frame c e
    rw [List.foldl_cons]
    obtain ⟨h1, h2⟩ := ih (c.browseIniFunc e)
    rw [h1, h2, he]
    exact ⟨rfl, rfl⟩

@[simp] theorem load_gLoaded (c : Config) (file : ConfigFile) : (c.load file).gLoaded = true := rfl

@[simp] theorem load_gMtime (c : Config) (file : ConfigFile) : (c.load file).gMtime = file.mtime := by
  unfold load
  dsimp only
  split_ifs
  · rfl
  · exact (foldl_browse_frame _ _).1

@[simp] theorem load_gOverrideFreqs (c : Config) (file : ConfigFile) :
    (c.load file).gOverrideFreqs = c.gOverrideFreqs := by
  unfold load
  dsimp only
  split_ifs
  · rfl
  · exact (foldl_browse_frame _ _).2

theorem refresh_eq_true_iff (c : Config) (file : ConfigFile) :
    (c.refresh file).1 = true ↔ c.gLoaded = false ∨ c.gMtime ≠ file.mtime := by
  unfold refresh
  cases hl : c.gLoaded <;> by_cases hm : c.gMtime = file.mtime <;> simp [hm]

@[simp] theorem refresh_gOverrideFreqs (c : Config) (file : ConfigFile) :
    (c.refresh file).2.gOverrideFreqs = c.gOverrideFreqs := by
  unfold refresh
  split_ifs <;> simp

/-- after `Refresh` the store is loaded and carries the file's time -/
theorem refresh_settles (c : Config) (file : ConfigFile) :
    (c.refresh file).2.gLoaded = true ∧ (c.refresh file).2.gMtime = file.mtime := by
  unfold refresh
  split_ifs with h
  · simp
  · simpa using h

end Config

end RyazhaClk
