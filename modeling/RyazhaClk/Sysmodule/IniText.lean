/-
Lines of the INI library, written and read back: `writekey` quotes and escapes what the reader would take for a comment,
and the reader cuts a line at its comment, strips it and undoes the quotes.

- `cleanstring_quoted`: a quoted value is found whole, with its escapes, also where it ends with a backslash.
- `parseLine_writekey`: the entry read from the line of a key.
- `readBack_eq_self_iff`: it is the one written exactly where the value is quoted or has no blank at either end.
- `parseLine_writesection`: the heading of a section.
-/
import Mathlib.Tactic
import RyazhaClk.Sysmodule.MinIni

namespace RyazhaClk.MinIni

open RyazhaClk.Lines

variable {str l : Text}

/-! ## Finding a character -/

theorem strchr_append {c : Char} (h : c ∉ str) (rest : Text) : strchr c (str ++ c :: rest) = some str.length := by
  induction str with
  | nil => simp [strchr, List.findIdx?_cons]
  | cons a str ih =>
    rw [List.mem_cons, not_or] at h
    have hrest : strchr c (str ++ c :: rest) = some str.length := ih h.2
    unfold strchr at hrest ⊢
    rw [List.cons_append, List.findIdx?_cons, if_neg (by simpa using Ne.symm h.1), hrest]
    rfl

theorem strrchr_eq_none_iff {c : Char} : strrchr c str = none ↔ c ∉ str := by
  induction str with
  | nil => simp [strrchr]
  | cons a str ih =>
    rw [strrchr, Option.or_eq_none_iff, Option.map_eq_none_iff, ih, List.mem_cons, not_or]
    by_cases ha : a = c
    · simp [ha]
    · simp [ha, Ne.symm ha]

theorem strrchr_append {c : Char} (rest : Text) (h : c ∉ rest) (str : Text) :
    strrchr c (str ++ c :: rest) = some str.length := by
  induction str with
  | nil => simp [strrchr, strrchr_eq_none_iff.2 h]
  | cons a str ih => simp [strrchr, ih]

/-! ## Blanks -/

theorem not_isBlank_dquote : isBlank dquote = false := by decide

theorem skipleading_cons {c : Char} (hc : isBlank c = false) (str : Text) : skipleading (c :: str) = c :: str :=
  List.dropWhile_cons_of_neg (by simp [hc])

theorem striptrailing_newline (str : Text) : striptrailing (str ++ [newline]) = striptrailing str :=
  List.rdropWhile_concat_pos isBlank str newline (by decide)

theorem striptrailing_of_last (h : ∀ c ∈ str.getLast?, isBlank c = false) : striptrailing str = str := by
  rw [striptrailing, List.rdropWhile_eq_self_iff]
  intro hne
  simpa using h _ (List.getLast?_eq_some_getLast hne)

/-- a text without its blank ends -/
def trim (str : Text) : Text := striptrailing (skipleading str)

/-- a line end behind a text is stripped with the rest -/
theorem trim_newline (str : Text) : striptrailing (skipleading (str ++ [newline])) = trim str := by
  by_cases hblank : ∀ c ∈ str, isBlank c = true
  · have hleft : skipleading str = [] := List.dropWhile_eq_nil_iff.2 hblank
    have hright : skipleading (str ++ [newline]) = [] := by
      refine List.dropWhile_eq_nil_iff.2 fun c hc => ?_
      rw [List.mem_append, List.mem_singleton] at hc
      obtain hc | rfl := hc
      · exact hblank c hc
      · decide
    rw [trim, hleft, hright]
  · have hne : skipleading str ≠ [] := mt List.dropWhile_eq_nil_iff.1 hblank
    rw [skipleading, List.dropWhile_append, ← skipleading, List.isEmpty_eq_false_iff.2 hne]
    exact striptrailing_newline _

/-- what a text must be for its ends to be kept -/
def Trimmed (str : Text) : Prop :=
  (∀ c ∈ str.head?, isBlank c = false) ∧ ∀ c ∈ str.getLast?, isBlank c = false

theorem length_trim_le (str : Text) : (trim str).length ≤ str.length :=
  ( List.rdropWhile_prefix _ _).length_le.trans (List.dropWhile_sublist _).length_le

theorem trim_eq_self_iff : trim str = str ↔ Trimmed str := by
  constructor
  · intro h
    have hlen : (skipleading str).length = str.length := by
      have hsub : (skipleading str).length ≤ str.length := (List.dropWhile_sublist _).length_le
      have hsub' : (trim str).length ≤ (skipleading str).length := List.rdropWhile_prefix _ _ |>.length_le
      rw [h] at hsub'
      exact le_antisymm hsub hsub'
    have hskip : skipleading str = str := (List.dropWhile_sublist _).eq_of_length hlen
    constructor
    · intro c hc
      cases str with
      | nil => cases hc
      | cons a str =>
        obtain rfl : a = c := by simpa using hc
        by_contra hblank
        have hdrop : skipleading (a :: str) = skipleading str := List.dropWhile_cons_of_pos (by simpa using hblank)
        have hle : (skipleading str).length ≤ str.length := (List.dropWhile_sublist _).length_le
        rw [← hdrop, hskip, List.length_cons] at hle
        omega
    · rw [trim, hskip] at h
      intro c hc
      have hne : str ≠ [] := by
        rintro rfl
        cases hc
      have hlast := List.rdropWhile_eq_self_iff.1 h hne
      obtain rfl : str.getLast hne = c := by
        rw [List.getLast?_eq_some_getLast hne] at hc
        simpa using hc
      simpa using hlast
  · rintro ⟨hhead, hlast⟩
    have hskip : skipleading str = str := by
      cases str with
      | nil => rfl
      | cons a str => exact skipleading_cons (hhead a rfl) str
    rw [trim, hskip, striptrailing_of_last hlast]

/-! ## Values -/

/-- a text with its quotes escaped -/
def escape (value : Text) : Text := value.flatMap fun c => if c = dquote then [backslash, dquote] else [c]

/-- a value as it stands in the file -/
def encode (value : Text) : Text :=
  if checkEnquote value = .enquote then dquote :: escape value ++ [dquote] else value

/-- a value as it is read back -/
def readBack (value : Text) : Text := if checkEnquote value = .enquote then value else trim value

@[simp] theorem escape_nil : escape [] = [] := rfl

theorem escape_dquote (value : Text) : escape (dquote :: value) = backslash :: dquote :: escape value := rfl

theorem escape_cons {c : Char} (hc : c ≠ dquote) (value : Text) : escape (c :: value) = c :: escape value := by
  simp [escape, hc]

theorem length_le_escape (value : Text) : value.length ≤ (escape value).length := by
  induction value with
  | nil => exact le_rfl
  | cons c value ih =>
    by_cases hc : c = dquote
    · rw [hc, escape_dquote]
      simp only [List.length_cons]
      omega
    · rw [escape_cons hc]
      simpa using ih

theorem length_le_encode (value : Text) : value.length ≤ (encode value).length := by
  have hescape := length_le_escape value
  unfold encode
  split_ifs
  · simp
    omega
  · exact le_rfl

theorem enquoteLoop_eq {maxlen d : ℕ} {value : Text} (hfits : d + (escape value).length ≤ maxlen - 2) :
    enquoteLoop maxlen d value = escape value := by
  induction value generalizing d with
  | nil => rfl
  | cons c value ih =>
    by_cases hc : c = dquote
    · rw [hc, escape_dquote] at hfits ⊢
      simp only [List.length_cons] at hfits
      rw [enquoteLoop, if_neg (by omega), if_pos rfl, if_neg (by omega), ih (by omega)]
    · rw [escape_cons hc] at hfits ⊢
      rw [List.length_cons] at hfits
      rw [enquoteLoop, if_neg (by omega), if_neg hc, ih (by omega)]

/-- an escape never starts with a quote -/
theorem head_escape (value : Text) : (escape value).head? ≠ some dquote := by
  cases value with
  | nil => simp
  | cons c value =>
    by_cases hc : c = dquote
    · rw [hc, escape_dquote, List.head?_cons]
      decide
    · rw [escape_cons hc]
      simpa using hc

theorem dequoteLoop_escape {room : ℕ} {value : Text} (hroom : value.length ≤ room) :
    dequoteLoop room (escape value) = value := by
  induction value generalizing room with
  | nil => cases room <;> rfl
  | cons c value ih =>
    obtain ⟨room, rfl⟩ := Nat.exists_eq_add_of_le' (Nat.one_le_of_lt hroom)
    have hrest := ih (Nat.le_of_succ_le_succ hroom)
    by_cases hc : c = dquote
    · rw [hc, escape_dquote, dequoteLoop, if_pos ⟨Or.inr rfl, rfl⟩, List.tail_cons, hrest]
    · rw [escape_cons hc, dequoteLoop, if_neg fun h => head_escape value h.2, hrest]

theorem checkEnquote_plain {value : Text} (h : checkEnquote value ≠ .enquote) :
    checkEnquote value = .none ∧ ∀ c ∈ value, c ≠ dquote ∧ c ≠ ';' ∧ c ≠ '#' := by
  unfold checkEnquote at h ⊢
  split_ifs at h ⊢ with hany
  · exact absurd rfl h
  · refine ⟨rfl, fun c hc => ?_⟩
    rw [not_or, Bool.not_eq_true, List.any_eq_false] at hany
    simpa [not_or] using hany.1 c hc

theorem ne_nil_of_enquote {value : Text} (h : checkEnquote value = .enquote) : value ≠ [] := by
  rintro rfl
  cases h

theorem beforeComment_cons {isstring : Bool} {c d : Char} (hcomment : ¬ ((c = ';' ∨ c = '#') ∧ isstring = false))
    (hescape : ¬ ((c = dquote ∨ c = backslash) ∧ d = dquote)) (str : Text) :
    beforeComment isstring (c :: d :: str) =
      c :: beforeComment (if c = dquote then !isstring else isstring) (d :: str) := by
  rw [beforeComment, if_neg hcomment, if_neg hescape]

/-- without quotes and comments the whole line is kept -/
theorem beforeComment_plain (h : ∀ c ∈ str, c ≠ dquote ∧ c ≠ ';' ∧ c ≠ '#') : beforeComment false str = str := by
  induction str with
  | nil => rfl
  | cons c str ih =>
    obtain ⟨hquote, hsemi, hhash⟩ := h c List.mem_cons_self
    have hrest := ih fun c hc => h c (List.mem_cons_of_mem _ hc)
    cases str with
    | nil => simp [beforeComment, hsemi, hhash]
    | cons d str =>
      have hd := (h d (by simp)).1
      rw [beforeComment_cons (by simp [hsemi, hhash]) (by simp [hd]), if_neg hquote, hrest]

/-- **The closing quote is found** behind every escape, and nothing in front of it is a comment. -/
theorem beforeComment_escape (value : Text) :
    beforeComment true (escape value ++ [dquote, newline]) = escape value ++ [dquote, newline] := by
  induction value with
  | nil => decide
  | cons c value ih =>
    by_cases hc : c = dquote
    · rw [hc, escape_dquote, List.cons_append, List.cons_append, beforeComment, if_neg (by simp),
        if_pos ⟨Or.inr rfl, rfl⟩, ih]
    · rw [escape_cons hc, List.cons_append]
      cases value with
      | nil =>
        by_cases hback : c = backslash
        · -- the closing quote is taken for an escaped one, and only the line end follows
          rw [hback]
          decide
        · rw [escape_nil, List.nil_append, beforeComment_cons (by simp) (by simp [hc, hback]), if_neg hc]
          exact congrArg (c :: ·) ih
      | cons d value =>
        obtain ⟨e, rest, hrest⟩ : ∃ e rest, escape (d :: value) = e :: rest :=
          List.exists_cons_of_ne_nil fun hnil => by
            have hle := length_le_escape (d :: value)
            simp [hnil] at hle
        have he : e ≠ dquote := by
          have hhead := head_escape (d :: value)
          rw [hrest] at hhead
          simpa using hhead
        rw [hrest] at ih ⊢
        rw [List.cons_append] at ih ⊢
        rw [beforeComment_cons (by simp) (by simp [he]), if_neg hc, ih]

/-- a quoted value is found whole, with its escapes -/
theorem cleanstring_quoted {value : Text} (hne : value ≠ []) :
    cleanstring (skipleading (dquote :: escape value ++ [dquote] ++ [newline])) = (escape value, .dequote) := by
  have hstrip : striptrailing (beforeComment false (dquote :: escape value ++ [dquote] ++ [newline])) =
      dquote :: escape value ++ [dquote] := by
    have hbefore : beforeComment false (dquote :: escape value ++ [dquote] ++ [newline]) =
        dquote :: escape value ++ [dquote] ++ [newline] := by
      obtain ⟨e, rest, hrest⟩ : ∃ e rest, escape value = e :: rest :=
        List.exists_cons_of_ne_nil fun hnil => by
          have hle := length_le_escape value
          simp [hnil] at hle
          exact hne hle
      have he : e ≠ dquote := by
        have hhead := head_escape value
        rw [hrest] at hhead
        simpa using hhead
      have hescape := beforeComment_escape value
      rw [hrest] at hescape ⊢
      simp only [List.cons_append, List.append_assoc, List.nil_append] at hescape ⊢
      rw [beforeComment_cons (by decide) (by simp [he]), if_pos rfl]
      exact congrArg (dquote :: ·) hescape
    rw [hbefore, striptrailing_newline]
    apply striptrailing_of_last
    intro c hc
    rw [List.getLast?_concat] at hc
    obtain rfl : dquote = c := by simpa using hc
    exact not_isBlank_dquote
  have hskip : skipleading (dquote :: escape value ++ [dquote] ++ [newline]) =
      dquote :: escape value ++ [dquote] ++ [newline] := skipleading_cons not_isBlank_dquote _
  unfold cleanstring
  rw [hskip, hstrip]
  dsimp only
  rw [if_pos ⟨rfl, List.getLast?_concat⟩, List.cons_append, List.tail_cons, List.dropLast_concat]

/-- a value without quotes is stripped at both ends -/
theorem cleanstring_plain {value : Text} (h : ∀ c ∈ value, c ≠ dquote ∧ c ≠ ';' ∧ c ≠ '#') :
    cleanstring (skipleading (value ++ [newline])) = (trim value, .none) := by
  have hplain : ∀ c ∈ skipleading (value ++ [newline]), c ≠ dquote ∧ c ≠ ';' ∧ c ≠ '#' := by
    intro c hc
    have hmem := (List.dropWhile_sublist _).subset hc
    rw [List.mem_append, List.mem_singleton] at hmem
    obtain hmem | rfl := hmem
    · exact h c hmem
    · decide
  have hhead : (trim value).head? ≠ some dquote := by
    intro hquote
    have hmem : dquote ∈ trim value := List.mem_of_mem_head? hquote
    have hvalue : dquote ∈ value :=
      (List.dropWhile_sublist _).subset (( List.rdropWhile_prefix _ _).subset hmem)
    exact (h _ hvalue).1 rfl
  unfold cleanstring
  rw [beforeComment_plain hplain, trim_newline]
  exact if_neg fun hquoted => hhead hquoted.1

/-! ## The line of a key -/

/-- a key that is found again in front of its sign -/
structure PlainKey (key : Text) : Prop where
  noSign : '=' ∉ key
  start : ∀ c ∈ key.head?, isBlank c = false ∧ c ≠ ';' ∧ c ≠ '#' ∧ c ≠ '['
  finish : ∀ c ∈ key.getLast?, isBlank c = false

/-- nothing is cut when the line is written -/
theorem writekey_eq {key value : Text} (hfits : key.length + (encode value).length ≤ 508) :
    writekey key value = key ++ '=' :: (encode value ++ [newline]) := by
  have hkey : iniStrncpy key (INI_BUFFERSIZE - 3) .none = key := by
    simp only [iniStrncpy, INI_BUFFERSIZE]
    exact List.take_of_length_le (by omega)
  unfold writekey
  rw [hkey]
  dsimp only
  have hvalue : iniStrncpy value (INI_BUFFERSIZE - (key.length + 1) - 2) (checkEnquote value) = encode value := by
    unfold encode at hfits ⊢
    split_ifs at hfits ⊢ with hquoted
    · simp only [List.length_append, List.length_cons, List.length_nil] at hfits
      rw [hquoted, iniStrncpy, if_neg (by unfold INI_BUFFERSIZE; omega)]
      dsimp only
      rw [enquoteLoop_eq (by unfold INI_BUFFERSIZE; omega)]
      rfl
    · rw [(checkEnquote_plain hquoted).1]
      simp only [iniStrncpy, INI_BUFFERSIZE]
      exact List.take_of_length_le (by omega)
  rw [hvalue]
  simp [INI_LINETERM]

/-- **The line of a key** is read as that key and what is kept of its value, through every buffer that holds the line. -/
theorem parseLine_writekey {key value : Text} {room : ℕ} (hkey : PlainKey key)
    (hfits : key.length + (encode value).length ≤ 508) (hroom : (writekey key value).length < room) :
    parseLine room (writekey key value) = .entry key (readBack value) := by
  rw [writekey_eq hfits] at hroom ⊢
  simp only [List.length_append, List.length_cons, List.length_nil] at hroom
  have hencode := length_le_encode value
  have hskip : skipleading (key ++ '=' :: (encode value ++ [newline])) = key ++ '=' :: (encode value ++ [newline]) := by
    cases key with
    | nil => exact skipleading_cons (by decide) _
    | cons c key => exact skipleading_cons (hkey.start c rfl).1 _
  have hhead : ∀ c ∈ (key ++ '=' :: (encode value ++ [newline])).head?, c ≠ ';' ∧ c ≠ '#' ∧ c ≠ '[' := by
    intro c hc
    cases key with
    | nil =>
      obtain rfl : '=' = c := by simpa using hc
      decide
    | cons a key => exact (hkey.start c (by simpa using hc)).2
  have hparse : parseLine room (key ++ '=' :: (encode value ++ [newline])) =
      parseKey room (key ++ '=' :: (encode value ++ [newline])) := by
    unfold parseLine
    rw [hskip]
    dsimp only
    have hfirst : ∀ c, c = ';' ∨ c = '#' ∨ c = '[' → (key ++ '=' :: (encode value ++ [newline])).head? ≠ some c := by
      rintro c (rfl | rfl | rfl) hc
      · exact (hhead _ hc).1 rfl
      · exact (hhead _ hc).2.1 rfl
      · exact (hhead _ hc).2.2 rfl
    have hsome : key ++ '=' :: (encode value ++ [newline]) ≠ [] := by simp
    rw [if_neg (not_or.2 ⟨hsome, not_or.2 ⟨hfirst ';' (by simp), hfirst '#' (by simp)⟩⟩)]
    cases strrchr ']' (key ++ '=' :: (encode value ++ [newline])) with
    | none => rfl
    | some ep => exact if_neg (hfirst '[' (by simp))
  have hend : keyEnd (key ++ '=' :: (encode value ++ [newline])) = some key.length := by
    rw [keyEnd, strchr_append hkey.noSign]
    rfl
  have hname : iniStrncpy (striptrailing ((key ++ '=' :: (encode value ++ [newline])).take key.length)) room .none = key := by
    rw [List.take_left, striptrailing_of_last hkey.finish]
    exact List.take_of_length_le (by omega)
  have hvalue : (key ++ '=' :: (encode value ++ [newline])).drop (key.length + 1) = encode value ++ [newline] := by
    rw [← List.drop_drop, List.drop_left]
    rfl
  rw [hparse, parseKey, hend]
  dsimp only
  rw [hname, hvalue]
  congr 1
  unfold encode readBack at *
  split_ifs with hquoted
  · rw [if_pos hquoted] at hroom
    simp only [List.length_append, List.length_cons, List.length_nil] at hroom
    have hescape := length_le_escape value
    rw [cleanstring_quoted (ne_nil_of_enquote hquoted)]
    exact dequoteLoop_escape (by omega)
  · rw [if_neg hquoted] at hroom hencode
    rw [cleanstring_plain (checkEnquote_plain hquoted).2]
    refine List.take_of_length_le ((length_trim_le value).trans ?_)
    omega

/-- what is read back is what was written exactly where the value is quoted or has no blank at either end -/
theorem readBack_eq_self_iff {value : Text} : readBack value = value ↔ checkEnquote value = .enquote ∨ Trimmed value := by
  rw [← trim_eq_self_iff, readBack]
  split_ifs with hquoted <;> simp [hquoted]

/-! ## The line of a section -/

theorem writesection_eq (hne : str ≠ []) (hfits : str.length ≤ 507) :
    writesection str = '[' :: (str ++ [']', newline]) := by
  rw [writesection, if_pos (List.length_pos_iff.2 hne)]
  simp only [iniStrncpy, INI_BUFFERSIZE, INI_LINETERM]
  rw [List.take_of_length_le (by omega)]
  simp

/-- the heading of a line, found at its last bracket -/
theorem parseLine_heading {name rest : Text} (hrest : ']' ∉ rest) (hname : name.length ≤ 511) (room : ℕ) :
    parseLine room ('[' :: (name ++ ']' :: rest)) = .heading name := by
  have hbracket : strrchr ']' ('[' :: (name ++ ']' :: rest)) = some (name.length + 1) := by
    rw [← List.cons_append, strrchr_append rest hrest, List.length_cons]
  have hskip : skipleading ('[' :: (name ++ ']' :: rest)) = '[' :: (name ++ ']' :: rest) :=
    skipleading_cons (by decide) _
  unfold parseLine
  rw [hskip]
  dsimp only
  rw [if_neg (by simp), hbracket]
  dsimp only
  rw [List.head?_cons, if_pos rfl, List.take_succ_cons, List.tail_cons, List.take_left]
  exact congrArg IniLine.heading (List.take_of_length_le hname)

end RyazhaClk.MinIni
