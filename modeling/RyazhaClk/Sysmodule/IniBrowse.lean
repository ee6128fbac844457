/-
What `ini_browse` reads of a file before and after `ini_putsection`. The two read the same lines as long as no line is cut
by the section name that stands in front of the reader's buffer.

- `browseLoop_eq`: the calls of a file are those of its lines, one behind the other.
- `headingMatches_iff`: the writer's search and the reader's headings agree on which lines start a section.
- `browse_section_iff`: which values of a section that is written are read back as they were.
-/
import Mathlib.Tactic
import RyazhaClk.Sysmodule.IniCopy
import RyazhaClk.Sysmodule.IniText

namespace RyazhaClk.MinIni

open RyazhaClk.Lines

variable {sect l : Text} {ls : List Text}

/-! ## Headings -/

/-- section names are compared without regard to case -/
def sameName (a b : Text) : Bool := a.map upper = b.map upper

/-- the name in a heading, up to the last bracket -/
def headingName (line : Text) : Option Text :=
  if isHeading line then (strrchr ']' (skipleading line)).map fun ep => ((skipleading line).take ep).tail else none

theorem length_of_sameName {a b : Text} (h : sameName a b = true) : a.length = b.length := by
  have hmap := congrArg List.length (of_decide_eq_true h)
  simpa using hmap

theorem sameName_comm (a b : Text) : sameName a b = sameName b a := decide_eq_decide.2 eq_comm

theorem sameName_trans {a b c : Text} (hab : sameName a b = true) (hbc : sameName b c = true) : sameName a c = true := by
  simp only [sameName, decide_eq_true_iff] at *
  rw [hab, hbc]

theorem headingName_eq {name rest : Text} (hline : skipleading l = '[' :: (name ++ ']' :: rest)) (hrest : ']' ∉ rest) :
    headingName l = some name := by
  have hbracket : strrchr ']' ('[' :: (name ++ ']' :: rest)) = some (name.length + 1) := by
    rw [← List.cons_append, strrchr_append rest hrest, List.length_cons]
  rw [headingName, isHeading, hline, if_pos (by simp), hbracket, Option.map_some, List.take_succ_cons, List.tail_cons,
    List.take_left]

/-- a heading has a name, or no closing bracket -/
theorem heading_cases (h : isHeading l = true) :
    (∃ name rest, skipleading l = '[' :: (name ++ ']' :: rest) ∧ ']' ∉ rest) ∨ ']' ∉ skipleading l := by
  obtain ⟨line, hline⟩ : ∃ line, skipleading l = '[' :: line := by
    rw [isHeading, decide_eq_true_iff] at h
    cases hcons : skipleading l with
    | nil => simp [hcons] at h
    | cons c line =>
      rw [hcons] at h
      exact ⟨line, by rw [show c = '[' by simpa using h]⟩
  by_cases hmem : ']' ∈ line
  · obtain ⟨front, rest, hsplit, hfront⟩ := List.eq_append_cons_of_mem (List.mem_reverse.2 hmem)
    refine Or.inl ⟨rest.reverse, front.reverse, ?_, by simpa using hfront⟩
    rw [hline, ← List.reverse_reverse line, hsplit]
    simp
  · exact Or.inr (by simp [hline, hmem])

/-- as long as the section name and free of NULs, a text compares as its case does -/
theorem strnicmp_eq_zero_iff {name : Text} (hname : nul ∉ name) (hsect : nul ∉ sect) (hlen : name.length = sect.length)
    (rest : Text) : strnicmp sect.length (name ++ rest) sect = 0 ↔ sameName name sect = true := by
  induction sect generalizing name with
  | nil =>
    obtain rfl := List.length_eq_zero_iff.1 hlen
    simp [strnicmp, sameName]
  | cons b sect ih =>
    cases name with
    | nil => cases hlen
    | cons a name =>
      rw [List.mem_cons, not_or] at hname hsect
      have htail := ih hname.2 hsect.2 (Nat.succ_injective hlen)
      rw [List.length_cons, strnicmp, List.cons_append, List.headD_cons, List.headD_cons, List.tail_cons, List.tail_cons,
        if_neg fun h => hname.1 h.1.symm]
      by_cases hab : upper a = upper b
      · rw [if_neg (not_not.2 hab), htail]
        simp [sameName, hab]
      · rw [if_pos hab, sub_eq_zero]
        simp [sameName, hab]

/-- **The writer's search** finds the headings that the reader gives the section's name. -/
theorem headingMatches_iff (hsect : nul ∉ sect) (hl : nul ∉ l) :
    headingMatches sect l = true ↔ ∃ name, headingName l = some name ∧ sameName name sect = true := by
  by_cases hhead : isHeading l = true
  · obtain ⟨name, rest, hline, hrest⟩ | hnone := heading_cases hhead
    · have hbracket : strrchr ']' (skipleading l) = some (name.length + 1) := by
        rw [hline, ← List.cons_append, strrchr_append rest hrest, List.length_cons]
      have hname : nul ∉ name := by
        intro hmem
        have hskip : nul ∈ skipleading l := by simp [hline, hmem]
        exact hl ((List.dropWhile_sublist _).subset hskip)
      have hfirst : (skipleading l).head? = some '[' := by rw [hline, List.head?_cons]
      simp only [headingMatches, Bool.and_eq_true, decide_eq_true_iff, headingName_eq hline hrest, Option.some_inj,
        exists_eq_left', hbracket, hfirst, true_and, Nat.add_right_cancel_iff]
      rw [hline, List.tail_cons]
      constructor
      · rintro ⟨hlen, hcmp⟩
        exact (strnicmp_eq_zero_iff hname hsect hlen _).1 hcmp
      · intro hsame
        have hlen := length_of_sameName hsame
        exact ⟨hlen, (strnicmp_eq_zero_iff hname hsect hlen _).2 hsame⟩
    · simp [headingMatches, headingName, strrchr_eq_none_iff.2 hnone]
  · have hfirst : ¬ (skipleading l).head? = some '[' := by simpa [isHeading] using hhead
    simp [headingMatches, headingName, hhead, hfirst]

/-! ## Lines -/

/-- what the reader has behind a section name -/
def roomBehind (sect : Text) : ℕ := INI_BUFFERSIZE - (sect.length + 1)

/-- the section name behind a line -/
def lineSect (sect line : Text) : Text :=
  match parseLine (roomBehind sect) line with
  | .heading name => name
  | _ => sect

/-- the calls for a line -/
def lineCalls (sect line : Text) : List Callback :=
  match parseLine (roomBehind sect) line with
  | .entry key value => [⟨sect, key, value⟩]
  | _ => []

/-- the section name behind some lines -/
def sectBehind (sect : Text) (ls : List Text) : Text := ls.foldl lineSect sect

/-- the calls for some lines -/
def calls : Text → List Text → List Callback
  | _, [] => []
  | sect, l :: ls => lineCalls sect l ++ calls (lineSect sect l) ls

theorem calls_append (sect : Text) (ls ls' : List Text) :
    calls sect (ls ++ ls') = calls sect ls ++ calls (sectBehind sect ls) ls' := by
  induction ls generalizing sect with
  | nil => rfl
  | cons l ls ih => simp [calls, ih, sectBehind]

/-- no line is cut by the section name in front of it -/
def Uncut : Text → List Text → Prop
  | _, [] => True
  | sect, l :: ls => sect.length + l.length ≤ 510 ∧ Uncut (lineSect sect l) ls

/-- **The calls of a file** are those of its lines. -/
theorem browseLoop_eq {fuel : ℕ} (hlined : Lined newline 511 ls) (huncut : Uncut sect ls) (hnul : ∀ l ∈ ls, nul ∉ l)
    (hfuel : ls.length < fuel) : browseLoop fuel sect ls.flatten = some (calls sect ls) := by
  induction ls generalizing sect fuel with
  | nil =>
    obtain ⟨fuel, rfl⟩ := Nat.exists_eq_add_of_le' (Nat.one_le_of_lt hfuel)
    simp [browseLoop, calls]
  | cons l ls ih =>
    obtain ⟨fuel, rfl⟩ := Nat.exists_eq_add_of_le' (Nat.one_le_of_lt hfuel)
    have hread : lineOf newline (INI_BUFFERSIZE - (sect.length + 1) - 1) (l ++ ls.flatten) = l := by
      have hfits := huncut.1
      have hsame : lineOf newline (INI_BUFFERSIZE - (sect.length + 1) - 1) (l ++ ls.flatten) =
          lineOf newline 511 (l ++ ls.flatten) := by
        apply lineOf_of_length_le
        · rw [hlined.2.1, INI_BUFFERSIZE]
          omega
        · rw [INI_BUFFERSIZE]
          omega
      rw [hsame, hlined.2.1]
    have hrest := ih hlined.2.2 huncut.2
      (fun l hl => hnul l (List.mem_cons_of_mem _ hl)) (Nat.lt_of_succ_lt_succ hfuel)
    rw [browseLoop, List.flatten_cons]
    dsimp only
    rw [hread, if_neg hlined.1, List.drop_left, cstring_of_notMem (hnul l List.mem_cons_self), calls, lineCalls]
    rw [lineSect] at hrest ⊢
    rw [← roomBehind]
    cases hparse : parseLine (roomBehind sect) l with
    | ignored => simpa [hparse] using hrest
    | heading name => simpa [hparse] using hrest
    | entry key value =>
      rw [hparse] at hrest
      dsimp only at hrest ⊢
      rw [hrest]
      rfl

/-! ## Headings as the reader takes them -/

theorem skipleading_skipleading (l : Text) : skipleading (skipleading l) = skipleading l :=
  List.dropWhile_idempotent _ _

theorem parseLine_skipleading (room : ℕ) (l : Text) : parseLine room (skipleading l) = parseLine room l := by
  unfold parseLine
  rw [skipleading_skipleading]

theorem parseLine_of_headingName {name : Text} (h : headingName l = some name) (hlen : l.length ≤ 512) (room : ℕ) :
    parseLine room l = .heading name := by
  have hhead : isHeading l = true := by
    by_contra hno
    simp [headingName, hno] at h
  obtain ⟨name', rest, hline, hrest⟩ | hnone := heading_cases hhead
  · rw [headingName_eq hline hrest] at h
    obtain rfl := Option.some.inj h
    have hle : (skipleading l).length ≤ l.length := (List.dropWhile_sublist _).length_le
    rw [hline, List.length_cons, List.length_append] at hle
    rw [← parseLine_skipleading, hline]
    exact parseLine_heading hrest (by omega) room
  · simp [headingName, strrchr_eq_none_iff.2 hnone] at h

theorem parseKey_ne_heading (room : ℕ) (sp name : Text) : parseKey room sp ≠ .heading name := by
  unfold parseKey
  cases keyEnd sp with
  | none => exact nofun
  | some ep => exact nofun

/-- a line without a heading's name keeps the section -/
theorem lineSect_of_none (h : headingName l = none) (sect : Text) : lineSect sect l = sect := by
  have hparse : ∀ name, parseLine (roomBehind sect) l ≠ .heading name := by
    intro name
    unfold parseLine
    dsimp only
    by_cases hcomment : skipleading l = [] ∨ (skipleading l).head? = some ';' ∨ (skipleading l).head? = some '#'
    · rw [if_pos hcomment]
      exact nofun
    · rw [if_neg hcomment]
      cases hbracket : strrchr ']' (skipleading l) with
      | none => exact parseKey_ne_heading _ _ _
      | some ep =>
        have hhead : ¬ (skipleading l).head? = some '[' := by
          intro hhead
          simp [headingName, isHeading, hhead, hbracket] at h
        dsimp only
        rw [if_neg hhead]
        exact parseKey_ne_heading _ _ _
  unfold lineSect
  cases hline : parseLine (roomBehind sect) l with
  | ignored => rfl
  | heading name => exact absurd hline (hparse name)
  | entry key value => rfl

theorem lineSect_of_some {name : Text} (h : headingName l = some name) (hlen : l.length ≤ 512) (sect : Text) :
    lineSect sect l = name := by
  rw [lineSect, parseLine_of_headingName h hlen]

theorem lineCalls_of_some {name : Text} (h : headingName l = some name) (hlen : l.length ≤ 512) (sect : Text) :
    lineCalls sect l = [] := by
  rw [lineCalls, parseLine_of_headingName h hlen]

/-- behind a heading the section in front of it does not matter -/
theorem calls_heading {name : Text} (h : headingName l = some name) (hlen : l.length ≤ 512) (sect : Text)
    (ls : List Text) : calls sect (l :: ls) = calls name ls := by
  rw [calls, lineCalls_of_some h hlen, lineSect_of_some h hlen, List.nil_append]

/-- what holds of the first section name and of every heading's holds of every call's -/
theorem sect_of_calls {P : Text → Prop} (hsect : P sect) (hlen : ∀ l ∈ ls, l.length ≤ 512)
    (hnames : ∀ l ∈ ls, ∀ name, headingName l = some name → P name) : ∀ c ∈ calls sect ls, P c.sect := by
  induction ls generalizing sect with
  | nil => exact fun _ hc => absurd hc List.not_mem_nil
  | cons l ls ih =>
    intro c hc
    rw [calls, List.mem_append] at hc
    obtain hc | hc := hc
    · unfold lineCalls at hc
      cases hparse : parseLine (roomBehind sect) l with
      | ignored => simp [hparse] at hc
      | heading name => simp [hparse] at hc
      | entry key value =>
        rw [hparse, List.mem_singleton] at hc
        rwa [hc]
    · refine ih ?_ (fun l hl => hlen l (List.mem_cons_of_mem _ hl))
        (fun l hl => hnames l (List.mem_cons_of_mem _ hl)) c hc
      cases hname : headingName l with
      | none => rwa [lineSect_of_none hname]
      | some name =>
        rw [lineSect_of_some hname (hlen l List.mem_cons_self)]
        exact hnames l List.mem_cons_self name hname

/-- lines and names that leave each other room, with one character for a line end -/
structure Fitting (n : ℕ) (l : Text) : Prop where
  line : l.length + n ≤ 510
  lineEnd : l.length + n = 510 → l.getLast? = some newline
  name : ∀ name, headingName l = some name → name.length ≤ n

theorem uncut_of_fitting {n : ℕ} (hsect : sect.length ≤ n) (hls : ∀ l ∈ ls, Fitting n l) : Uncut sect ls := by
  induction ls generalizing sect with
  | nil => exact True.intro
  | cons l ls ih =>
    have hl := hls l List.mem_cons_self
    have hline := hl.line
    refine ⟨by omega, ih ?_ fun l hl => hls l (List.mem_cons_of_mem _ hl)⟩
    cases hname : headingName l with
    | none => rwa [lineSect_of_none hname]
    | some name =>
      rw [lineSect_of_some hname (by omega)]
      exact hl.name name hname

/-! ## The line end -/

theorem skipleading_newline (l : Text) :
    skipleading (l ++ [newline]) = if skipleading l = [] then [] else skipleading l ++ [newline] := by
  rw [skipleading, List.dropWhile_append, ← skipleading]
  cases skipleading l with
  | nil => decide
  | cons c str => simp

theorem strchr_newline {c : Char} (hc : c ≠ newline) (str : Text) : strchr c (str ++ [newline]) = strchr c str := by
  rw [strchr, List.findIdx?_append]
  simp [strchr, hc.symm]

theorem strrchr_newline {c : Char} (hc : c ≠ newline) (str : Text) : strrchr c (str ++ [newline]) = strrchr c str := by
  induction str with
  | nil => simp [strrchr, hc.symm]
  | cons a str ih => simp [strrchr, ih]

theorem striptrailing_cons (c : Char) (str : Text) :
    striptrailing (c :: str) = if striptrailing str = [] then striptrailing [c] else c :: striptrailing str := by
  have hrev : striptrailing (c :: str) = ((str.reverse ++ [c]).dropWhile isBlank).reverse := by
    rw [striptrailing, List.rdropWhile, List.reverse_cons]
  have hrest : striptrailing str = (str.reverse.dropWhile isBlank).reverse := rfl
  rw [hrev, List.dropWhile_append, hrest]
  cases str.reverse.dropWhile isBlank with
  | nil => rfl
  | cons a rest => simp

theorem striptrailing_cons_congr {a b : Text} (h : striptrailing a = striptrailing b) (c : Char) :
    striptrailing (c :: a) = striptrailing (c :: b) := by
  rw [striptrailing_cons c a, striptrailing_cons c b, h]

/-- a line end never opens or closes a comment or a string -/
theorem beforeComment_newline (isstring : Bool) (str : Text) :
    striptrailing (beforeComment isstring (str ++ [newline])) = striptrailing (beforeComment isstring str) := by
  fun_induction beforeComment isstring str with
  | case1 isstring => cases isstring <;> decide
  | case2 isstring c hcomment =>
    rw [List.singleton_append, beforeComment, if_pos hcomment]
  | case3 isstring c hcomment =>
    rw [List.singleton_append, beforeComment_cons hcomment (fun h => absurd h.2 (by decide))]
    have hend : ∀ b, beforeComment b [newline] = [newline] := fun b => by cases b <;> decide
    rw [hend]
    exact striptrailing_newline [c]
  | case4 isstring c d str hcomment =>
    rw [List.cons_append, List.cons_append, beforeComment, if_pos hcomment]
  | case5 isstring c d str hcomment hescape ih =>
    rw [List.cons_append, List.cons_append, beforeComment, if_neg hcomment, if_pos hescape]
    exact striptrailing_cons_congr (striptrailing_cons_congr ih d) c
  | case6 isstring c d str hcomment hescape ih =>
    rw [List.cons_append, List.cons_append, beforeComment_cons hcomment hescape]
    exact striptrailing_cons_congr ih c

theorem cleanstring_newline (str : Text) :
    cleanstring (skipleading (str ++ [newline])) = cleanstring (skipleading str) := by
  rw [skipleading_newline]
  split_ifs with hempty
  · rw [hempty]
  · rw [cleanstring, cleanstring, beforeComment_newline]

theorem strchr_lt {c : Char} {str : Text} {ep : ℕ} (h : strchr c str = some ep) : ep < str.length :=
  (List.findIdx?_eq_some_iff_findIdx_eq.1 h).1

theorem keyEnd_lt {str : Text} {ep : ℕ} (h : keyEnd str = some ep) : ep < str.length := by
  rw [keyEnd, Option.or_eq_some_iff] at h
  obtain h | ⟨-, h⟩ := h
  · exact strchr_lt h
  · exact strchr_lt h

theorem keyEnd_newline (str : Text) : keyEnd (str ++ [newline]) = keyEnd str := by
  rw [keyEnd, keyEnd, strchr_newline (by decide), strchr_newline (by decide)]

theorem strrchr_lt {c : Char} {str : Text} {ep : ℕ} (h : strrchr c str = some ep) : ep < str.length := by
  induction str generalizing ep with
  | nil => cases h
  | cons a str ih =>
    rw [strrchr, Option.or_eq_some_iff] at h
    obtain h | ⟨-, h⟩ := h
    · obtain ⟨k, hk, rfl⟩ := Option.map_eq_some_iff.1 h
      exact Nat.succ_lt_succ (ih hk)
    · split_ifs at h
      obtain rfl : 0 = ep := by simpa using h
      exact Nat.succ_pos _

theorem parseKey_newline (room : ℕ) (sp : Text) : parseKey room (sp ++ [newline]) = parseKey room sp := by
  unfold parseKey
  rw [keyEnd_newline]
  cases hend : keyEnd sp with
  | none => rfl
  | some ep =>
    have hlt := keyEnd_lt hend
    dsimp only
    rw [List.take_append_of_le_length hlt.le, List.drop_append_of_le_length hlt, cleanstring_newline]

/-- **A line is read the same** with its line end and without. -/
theorem parseLine_newline (room : ℕ) (l : Text) : parseLine room (l ++ [newline]) = parseLine room l := by
  unfold parseLine
  dsimp only
  rw [skipleading_newline]
  by_cases hempty : skipleading l = []
  · rw [if_pos hempty, if_pos (Or.inl rfl), if_pos (Or.inl hempty)]
  · have hhead : (skipleading l ++ [newline]).head? = (skipleading l).head? := List.head?_append_of_ne_nil _ hempty
    have hsome : skipleading l ++ [newline] ≠ [] := by simp
    rw [if_neg hempty, hhead, strrchr_newline (by decide)]
    by_cases hcomment : (skipleading l).head? = some ';' ∨ (skipleading l).head? = some '#'
    · rw [if_pos (Or.inr hcomment), if_pos (Or.inr hcomment)]
    · rw [if_neg (not_or.2 ⟨hsome, hcomment⟩), if_neg (not_or.2 ⟨hempty, hcomment⟩)]
      cases hbracket : strrchr ']' (skipleading l) with
      | none => exact parseKey_newline room _
      | some ep =>
        dsimp only
        rw [List.take_append_of_le_length (strrchr_lt hbracket).le, parseKey_newline]

theorem lineCalls_newline (sect l : Text) : lineCalls sect (l ++ [newline]) = lineCalls sect l := by
  rw [lineCalls, lineCalls, parseLine_newline]

theorem headingName_newline (l : Text) : headingName (l ++ [newline]) = headingName l := by
  unfold headingName isHeading
  rw [skipleading_newline]
  by_cases hempty : skipleading l = []
  · rw [if_pos hempty, hempty]
  · have hhead : (skipleading l ++ [newline]).head? = (skipleading l).head? := List.head?_append_of_ne_nil _ hempty
    rw [if_neg hempty, hhead, strrchr_newline (by decide)]
    cases hbracket : strrchr ']' (skipleading l) with
    | none => rfl
    | some ep =>
      rw [Option.map_some, Option.map_some, List.take_append_of_le_length (strrchr_lt hbracket).le]

/-! ## The section that is written -/

/-- a section that is found again behind its heading -/
structure Writable (n : ℕ) (sect : Text) (keys : List (Text × Text)) : Prop where
  named : sect ≠ []
  sectLength : sect.length ≤ n
  heading : sect.length + 3 + n < 510
  sectChars : nul ∉ sect ∧ newline ∉ sect
  plain : ∀ kv ∈ keys, PlainKey kv.1
  keyChars : ∀ kv ∈ keys, nul ∉ kv.1 ∧ newline ∉ kv.1 ∧ nul ∉ kv.2 ∧ newline ∉ kv.2
  keyLength : ∀ kv ∈ keys, kv.1.length + (encode kv.2).length + 2 + n < 510

/-- the lines of a section -/
def sectionLines (sect : Text) (keys : List (Text × Text)) : List Text :=
  if keys = [] then [] else writesection sect :: ((keys.map fun kv => writekey kv.1 kv.2) ++ [INI_LINETERM])

theorem flatten_sectionLines (sect : Text) (keys : List (Text × Text)) :
    (sectionLines sect keys).flatten = Copying.sectionText sect keys := by
  unfold sectionLines Copying.sectionText
  split_ifs
  · rfl
  · simp

/-- a section read back from its keys -/
def keyCalls (sect : Text) (keys : List (Text × Text)) : List Callback :=
  keys.map fun kv => ⟨sect, kv.1, readBack kv.2⟩

variable {n : ℕ} {keys : List (Text × Text)}

theorem mem_escape {c : Char} {value : Text} (h : c ∈ escape value) : c ∈ value ∨ c = backslash := by
  rw [escape, List.mem_flatMap] at h
  obtain ⟨a, ha, hc⟩ := h
  split_ifs at hc with hquote
  · rw [List.mem_cons, List.mem_singleton] at hc
    obtain rfl | rfl := hc
    · exact Or.inr rfl
    · exact Or.inl (hquote ▸ ha)
  · rw [List.mem_singleton] at hc
    exact Or.inl (hc ▸ ha)

theorem notMem_encode {c : Char} {value : Text} (hc : c ∉ value) (hback : c ≠ backslash) (hquote : c ≠ dquote) :
    c ∉ encode value := by
  unfold encode
  split_ifs
  · simp only [List.cons_append, List.mem_cons, List.mem_append, not_or]
    exact ⟨hquote, fun h => (mem_escape h).elim hc hback, hquote, List.not_mem_nil⟩
  · exact hc

namespace Writable

theorem writekey_eq (h : Writable n sect keys) {kv : Text × Text} (hkv : kv ∈ keys) :
    writekey kv.1 kv.2 = kv.1 ++ '=' :: encode kv.2 ++ [newline] := by
  have hlen := h.keyLength kv hkv
  rw [MinIni.writekey_eq (by omega)]
  simp

theorem mem_lines {l : Text} (hl : l ∈ sectionLines sect keys) :
    l = writesection sect ∨ (∃ kv ∈ keys, l = writekey kv.1 kv.2) ∨ l = INI_LINETERM := by
  unfold sectionLines at hl
  split_ifs at hl
  · exact absurd hl List.not_mem_nil
  · simp only [List.mem_cons, List.mem_append, List.mem_map, List.not_mem_nil, or_false] at hl
    obtain rfl | ⟨kv, hkv, rfl⟩ | rfl := hl
    · exact Or.inl rfl
    · exact Or.inr (Or.inl ⟨kv, hkv, rfl⟩)
    · exact Or.inr (Or.inr rfl)

theorem writesection_eq (h : Writable n sect keys) : writesection sect = '[' :: (sect ++ [']', newline]) := by
  have hlen := h.heading
  exact MinIni.writesection_eq h.named (by omega)

theorem headingName_writesection (h : Writable n sect keys) : headingName (writesection sect) = some sect := by
  rw [h.writesection_eq]
  have hskip : skipleading ('[' :: (sect ++ [']', newline])) = '[' :: (sect ++ [']', newline]) :=
    skipleading_cons (by decide) _
  exact headingName_eq hskip (by decide)

theorem parseLine_key (h : Writable n sect keys) {kv : Text × Text} (hkv : kv ∈ keys) :
    parseLine (roomBehind sect) (writekey kv.1 kv.2) = .entry kv.1 (readBack kv.2) := by
  have hlen := h.keyLength kv hkv
  have hsect := h.sectLength
  apply parseLine_writekey (h.plain kv hkv) (by omega)
  rw [h.writekey_eq hkv, roomBehind, INI_BUFFERSIZE]
  simp only [List.length_append, List.length_cons, List.length_nil]
  omega

theorem headingName_key (h : Writable n sect keys) {kv : Text × Text} (hkv : kv ∈ keys) :
    headingName (writekey kv.1 kv.2) = none := by
  cases hname : headingName (writekey kv.1 kv.2) with
  | none => rfl
  | some name =>
    have hlen := length_writekey_le kv.1 kv.2
    have hparse := parseLine_of_headingName hname (by omega) (roomBehind sect)
    rw [h.parseLine_key hkv] at hparse
    cases hparse

theorem not_isHeading_key (h : Writable n sect keys) {kv : Text × Text} (hkv : kv ∈ keys) :
    isHeading (writekey kv.1 kv.2) = false := by
  rw [h.writekey_eq hkv, isHeading, decide_eq_false_iff_not]
  obtain ⟨key, value⟩ := kv
  have hplain := (h.plain _ hkv).start
  cases key with
  | nil =>
    rw [List.nil_append, List.cons_append, skipleading_cons (by decide), List.head?_cons]
    decide
  | cons c key =>
    obtain ⟨hblank, -, -, hbracket⟩ := hplain c rfl
    rw [List.cons_append, List.cons_append, skipleading_cons hblank, List.head?_cons]
    simpa using hbracket

/-- every line of it ends with its terminator -/
theorem lines_terminated (h : Writable n sect keys) : ∀ l ∈ sectionLines sect keys, Terminated newline l := by
  intro l hl
  obtain rfl | ⟨kv, hkv, rfl⟩ | rfl := mem_lines hl
  · refine ⟨'[' :: (sect ++ [']']), ?_, by simp [h.writesection_eq]⟩
    simp only [List.mem_cons, List.mem_append, List.not_mem_nil, or_false, not_or]
    exact ⟨by decide, h.sectChars.2, by decide⟩
  · obtain ⟨-, hkey, -, hvalue⟩ := h.keyChars kv hkv
    refine ⟨kv.1 ++ '=' :: encode kv.2, ?_, h.writekey_eq hkv⟩
    simp only [List.mem_cons, List.mem_append, not_or]
    exact ⟨hkey, by decide, notMem_encode hvalue (by decide) (by decide)⟩
  · exact ⟨[], List.not_mem_nil, rfl⟩

theorem length_lines (h : Writable n sect keys) : ∀ l ∈ sectionLines sect keys, l.length + n < 510 := by
  have hheading := h.heading
  intro l hl
  obtain rfl | ⟨kv, hkv, rfl⟩ | rfl := mem_lines hl
  · rw [h.writesection_eq]
    simp only [List.length_cons, List.length_append, List.length_nil]
    omega
  · have hlen := h.keyLength kv hkv
    rw [h.writekey_eq hkv]
    simp only [List.length_cons, List.length_append, List.length_nil]
    omega
  · rw [INI_LINETERM, List.length_singleton]
    omega

theorem headingName_blank : headingName INI_LINETERM = none := by decide

/-- and has the section's name, or none -/
theorem name_of_lines (h : Writable n sect keys) :
    ∀ l ∈ sectionLines sect keys, ∀ name, headingName l = some name → name = sect := by
  intro l hl name hname
  obtain rfl | ⟨kv, hkv, rfl⟩ | rfl := mem_lines hl
  · rw [h.headingName_writesection] at hname
    exact (Option.some.inj hname).symm
  · rw [h.headingName_key hkv] at hname
    cases hname
  · rw [headingName_blank] at hname
    cases hname

theorem lines_notNul (h : Writable n sect keys) : ∀ l ∈ sectionLines sect keys, nul ∉ l := by
  intro l hl
  obtain rfl | ⟨kv, hkv, rfl⟩ | rfl := mem_lines hl
  · rw [h.writesection_eq]
    simp only [List.mem_cons, List.mem_append, List.not_mem_nil, or_false, not_or]
    exact ⟨by decide, h.sectChars.1, by decide, by decide⟩
  · obtain ⟨hkey, -, hvalue, -⟩ := h.keyChars kv hkv
    rw [h.writekey_eq hkv]
    simp only [List.mem_cons, List.mem_append, List.not_mem_nil, or_false, not_or]
    exact ⟨⟨hkey, by decide, notMem_encode hvalue (by decide) (by decide)⟩, by decide⟩
  · decide

theorem calls_keys (h : Writable n sect keys) {some' : List (Text × Text)} (hsub : ∀ kv ∈ some', kv ∈ keys)
    (ls : List Text) :
    calls sect ((some'.map fun kv => writekey kv.1 kv.2) ++ ls) = keyCalls sect some' ++ calls sect ls := by
  induction some' with
  | nil => rfl
  | cons kv rest ih =>
    have hkv := hsub kv List.mem_cons_self
    rw [List.map_cons, List.cons_append, calls, lineSect_of_none (h.headingName_key hkv), lineCalls,
      h.parseLine_key hkv, ih fun kv hkv => hsub kv (List.mem_cons_of_mem _ hkv)]
    rfl

/-- **The section is read back** under its own name. -/
theorem calls_sectionLines (h : Writable n sect keys) (hkeys : keys ≠ []) (old : Text) (ls : List Text) :
    calls old (sectionLines sect keys ++ ls) = keyCalls sect keys ++ calls sect ls := by
  have hlen := h.heading
  have hshort : (writesection sect).length ≤ 512 := by
    rw [h.writesection_eq]
    simp only [List.length_cons, List.length_append, List.length_nil]
    omega
  have hblank : calls sect (INI_LINETERM :: ls) = calls sect ls := by
    have hparse : ∀ room, parseLine room INI_LINETERM = .ignored := fun _ => rfl
    rw [calls, lineCalls, lineSect, hparse]
    rfl
  rw [sectionLines, if_neg hkeys, List.cons_append, calls_heading h.headingName_writesection hshort, List.append_assoc,
    h.calls_keys fun _ hkv => hkv, List.singleton_append, hblank]

end Writable

/-! ## A file before and after -/

/-- a line that reader and writer take for the same -/
structure TidyLine (n : ℕ) (l : Text) : Prop where
  fitting : Fitting n l
  noNul : nul ∉ l
  closed : isHeading l = true → headingName l ≠ none
  flush : isHeading l = true → indent l = 0

/-- a file of such lines, without two sections of one name -/
structure Tidy (n : ℕ) (file : Text) : Prop where
  line : ∀ l ∈ lines newline 511 file, TidyLine n l
  distinct : ((lines newline 511 file).filterMap headingName).Pairwise fun a b => sameName a b = false

theorem tidyLine_iff : TidyLine n l ↔ (l.length + n ≤ 510 ∧ (l.length + n = 510 → l.getLast? = some newline) ∧
    ∀ name ∈ headingName l, name.length ≤ n) ∧ nul ∉ l ∧
      (isHeading l = true → headingName l ≠ none ∧ indent l = 0) := by
  constructor
  · intro h
    exact ⟨⟨h.fitting.line, h.fitting.lineEnd, fun name hname => h.fitting.name name hname⟩, h.noNul,
      fun hhead => ⟨h.closed hhead, h.flush hhead⟩⟩
  · rintro ⟨⟨hline, hend, hname⟩, hnul, hhead⟩
    exact ⟨⟨hline, hend, fun name h => hname name h⟩, hnul, fun h => (hhead h).1, fun h => (hhead h).2⟩

instance (n : ℕ) (l : Text) : Decidable (TidyLine n l) := decidable_of_iff' _ tidyLine_iff

instance (n : ℕ) (file : Text) : Decidable (Tidy n file) :=
  decidable_of_iff ((∀ l ∈ lines newline 511 file, TidyLine n l) ∧
    ((lines newline 511 file).filterMap headingName).Pairwise fun a b => sameName a b = false)
    ⟨fun h => ⟨h.1, h.2⟩, fun h => ⟨h.line, h.distinct⟩⟩

theorem browse_of_lines (hlined : Lined newline 511 ls) (hls : ∀ l ∈ ls, TidyLine n l) :
    iniBrowse ls.flatten = some (calls [] ls) := by
  have hcount : ls.length ≤ ls.flatten.length :=
    Copying.length_le_of_lined (show Lined newline 511 (ls ++ []) by rwa [List.append_nil])
  exact browseLoop_eq hlined (uncut_of_fitting (Nat.zero_le _) fun l hl => (hls l hl).fitting)
    (fun l hl => (hls l hl).noNul) (Nat.lt_succ_of_le hcount)

theorem Tidy.browse {file : Text} (h : Tidy n file) :
    iniBrowse file = some (calls [] (lines newline 511 file)) := by
  have hflatten : (lines newline 511 file).flatten = file := flatten_lines (by norm_num) file
  have hbrowse := browse_of_lines (lined_lines (by norm_num) file) h.line
  rwa [hflatten] at hbrowse

theorem Tidy.noNul {file : Text} (h : Tidy n file) : nul ∉ file := by
  have hflatten : (lines newline 511 file).flatten = file := flatten_lines (by norm_num) file
  intro hmem
  rw [← hflatten, List.mem_flatten] at hmem
  obtain ⟨l, hl, hmem⟩ := hmem
  exact (h.line l hl).noNul hmem

theorem Writable.tidyLine (h : Writable n sect keys) : ∀ l ∈ sectionLines sect keys, TidyLine n l := by
  intro l hl
  have hlen := h.length_lines l hl
  refine ⟨⟨hlen.le, fun heq => absurd heq hlen.ne, fun name hname => ?_⟩, h.lines_notNul l hl, ?_, ?_⟩
  · rw [h.name_of_lines l hl name hname]
    exact h.sectLength
  · obtain rfl | ⟨kv, hkv, rfl⟩ | rfl := Writable.mem_lines hl
    · rw [h.headingName_writesection]
      exact fun _ => nofun
    · intro hhead
      exact absurd hhead (by simp [h.not_isHeading_key hkv])
    · exact fun hhead => absurd hhead (by decide)
  · obtain rfl | ⟨kv, hkv, rfl⟩ | rfl := Writable.mem_lines hl
    · rw [h.writesection_eq, indent, skipleading_cons (by decide), Nat.sub_self]
      exact fun _ => rfl
    · intro hhead
      exact absurd hhead (by simp [h.not_isHeading_key hkv])
    · exact fun hhead => absurd hhead (by decide)

/-- **A section survives** being written and read exactly where each of its values is quoted or has no blank at either
end. -/
theorem browse_section_iff (h : Writable n sect keys) :
    iniBrowse (Copying.sectionText sect keys) = some (keys.map fun kv => ⟨sect, kv.1, kv.2⟩) ↔
      ∀ kv ∈ keys, checkEnquote kv.2 = .enquote ∨ Trimmed kv.2 := by
  have hlined : Lined newline 511 (sectionLines sect keys) := by
    rw [← List.append_nil (sectionLines sect keys)]
    refine Lined.append (fun l hl => ⟨h.lines_terminated l hl, ?_⟩) True.intro
    have hlen := h.length_lines l hl
    omega
  have hbrowse : iniBrowse (Copying.sectionText sect keys) = some (keyCalls sect keys) := by
    rw [← flatten_sectionLines, browse_of_lines hlined h.tidyLine]
    by_cases hkeys : keys = []
    · rw [hkeys]
      rfl
    · have hcalls := h.calls_sectionLines hkeys [] []
      rwa [List.append_nil, calls, List.append_nil, ← Option.some_inj] at hcalls
  rw [hbrowse, Option.some_inj, keyCalls, List.map_inj_left]
  refine forall_congr' fun kv => imp_congr_right fun _ => ?_
  rw [← readBack_eq_self_iff, Callback.mk.injEq]
  simp

/-- a value that starts a comment, holds a quote and ends with a backslash is read back, and one behind a blank is not -/
theorem sample_section_read :
    iniBrowse (Copying.sectionText "a".toList [("k".toList, [';', dquote, backslash])]) =
      some [⟨"a".toList, "k".toList, [';', dquote, backslash]⟩] ∧
    iniBrowse (Copying.sectionText "a".toList [("k".toList, " x".toList)]) ≠
      some [⟨"a".toList, "k".toList, " x".toList⟩] := by
  have hplain : PlainKey "k".toList := ⟨by decide, by simp; decide, by simp; decide⟩
  have hquoted : Writable 16 "a".toList [("k".toList, [';', dquote, backslash])] :=
    ⟨by decide, by decide, by decide, by decide, by simpa using hplain, by decide, by decide +kernel⟩
  have hblank : Writable 16 "a".toList [("k".toList, " x".toList)] :=
    ⟨by decide, by decide, by decide, by decide, by simpa using hplain, by decide, by decide +kernel⟩
  constructor
  · exact (browse_section_iff hquoted).2 (by simpa using Or.inl (by decide +kernel))
  · intro hread
    obtain hquote | htrim := (browse_section_iff hblank).1 hread _ List.mem_cons_self
    · exact absurd hquote (by decide +kernel)
    · exact absurd (trim_eq_self_iff.2 htrim) (by decide +kernel)

theorem isHeading_newline (l : Text) : isHeading (l ++ [newline]) = isHeading l := by
  unfold isHeading
  rw [skipleading_newline]
  split_ifs with hempty
  · rw [hempty]
  · rw [List.head?_append_of_ne_nil _ hempty]

theorem indent_newline (h : isHeading l = true) : indent (l ++ [newline]) = indent l := by
  have hne : skipleading l ≠ [] := by
    intro hnil
    simp [isHeading, hnil] at h
  rw [indent, indent, skipleading_newline, if_neg hne, List.length_append, List.length_append]
  exact Nat.add_sub_add_right _ _ _

theorem TidyLine.newline (h : TidyLine n l) (hl : l.getLast? ≠ some newline) : TidyLine n (l ++ [newline]) := by
  have hlen : l.length + n < 510 := lt_of_le_of_ne h.fitting.line fun heq => hl (h.fitting.lineEnd heq)
  refine ⟨⟨?_, fun _ => List.getLast?_concat, fun name hname => ?_⟩, ?_, fun hhead => ?_, fun hhead => ?_⟩
  · rw [List.length_append, List.length_singleton]
    omega
  · rw [headingName_newline] at hname
    exact h.fitting.name name hname
  · rw [List.mem_append, not_or]
    exact ⟨h.noNul, by decide⟩
  · rw [isHeading_newline] at hhead
    rw [headingName_newline]
    exact h.closed hhead
  · rw [isHeading_newline] at hhead
    rw [indent_newline hhead]
    exact h.flush hhead

theorem tidyLine_blank (hn : n < 509) : TidyLine n [newline] := by
  have hnone : headingName [newline] = none := by decide
  refine ⟨⟨?_, fun _ => rfl, fun name hname => ?_⟩, by decide, fun h => absurd h (by decide), fun h => absurd h (by decide)⟩
  · rw [List.length_singleton]
    omega
  · rw [hnone] at hname
    cases hname

theorem calls_blank (sect : Text) : calls sect [[newline]] = [] := by
  have hparse : ∀ room, parseLine room [newline] = .ignored := fun _ => rfl
  rw [calls, calls, lineCalls, hparse]
  rfl

/-- a file whose last line has got its line end -/
theorem complete_lines {sep : Text} (hlined : Lined newline 511 ls) (hls : ∀ l ∈ ls, TidyLine n l) (hn : n < 509)
    (hsep : sep = [newline] ∨ sep = [] ∧ ls.flatten.getLast? = some newline) :
    ∃ ls', ls'.flatten = ls.flatten ++ sep ∧ (∀ l ∈ ls', TidyLine n l ∧ Terminated newline l) ∧
      (∀ sect, calls sect ls' = calls sect ls) ∧ ls'.filterMap headingName = ls.filterMap headingName := by
  have hblank : headingName [newline] = none := by decide
  have hend : Terminated newline [newline] := ⟨[], List.not_mem_nil, rfl⟩
  induction ls with
  | nil =>
    obtain rfl | ⟨-, hlast⟩ := hsep
    · refine ⟨[[newline]], rfl, ?_, calls_blank, by simp [hblank]⟩
      simpa using ⟨tidyLine_blank hn, hend⟩
    · simp at hlast
  | cons l ls ih =>
    have hl := hls l List.mem_cons_self
    have hrest : ∀ l ∈ ls, TidyLine n l := fun l hl => hls l (List.mem_cons_of_mem _ hl)
    by_cases hnil : ls = []
    · subst hnil
      have hline : lineOf newline 511 l = l := by simpa using hlined.2.1
      by_cases hlast : l.getLast? = some newline
      · have hterminated : Terminated newline l := by
          rw [← hline] at hlast ⊢
          exact terminated_of_getLast hlast
        obtain rfl | ⟨rfl, -⟩ := hsep
        · refine ⟨[l, [newline]], by simp, ?_, fun sect => ?_, by simp [List.filterMap_cons, hblank]⟩
          · simpa using ⟨⟨hl, hterminated⟩, tidyLine_blank hn, hend⟩
          · rw [calls, calls_blank, calls, calls]
        · exact ⟨[l], by simp, by simpa using ⟨hl, hterminated⟩, fun _ => rfl, rfl⟩
      · obtain rfl | ⟨-, hflat⟩ := hsep
        · refine ⟨[l ++ [newline]], by simp, ?_, fun sect => ?_, ?_⟩
          · have hnot : newline ∉ l := by
              rw [← hline] at hlast ⊢
              exact notMem_of_getLast hlast
            simpa using ⟨hl.newline hlast, l, hnot, rfl⟩
          · simp only [calls, lineCalls_newline]
          · simp [List.filterMap_cons, headingName_newline]
        · exact absurd (by simpa using hflat) hlast
    · have hterminated : Terminated newline l := hlined.terminated hnil (by have := hl.fitting.line; omega)
      have hflatten : ls.flatten ≠ [] := by
        obtain ⟨l', ls', rfl⟩ := List.exists_cons_of_ne_nil hnil
        simp [hlined.2.2.1]
      have hsep' : sep = [newline] ∨ sep = [] ∧ ls.flatten.getLast? = some newline := by
        rw [List.flatten_cons, List.getLast?_append_of_ne_nil _ hflatten] at hsep
        exact hsep
      obtain ⟨ls', hnew, htidy, hcalls, hnames⟩ := ih hlined.2.2 hrest hsep'
      refine ⟨l :: ls', by simp [hnew], ?_, fun sect => ?_, ?_⟩
      · intro l' hl'
        obtain rfl | hl' := List.mem_cons.1 hl'
        · exact ⟨hl, hterminated⟩
        · exact htidy l' hl'
      · rw [calls, calls, hcalls]
      · rw [List.filterMap_cons, List.filterMap_cons, hnames]

end RyazhaClk.MinIni
