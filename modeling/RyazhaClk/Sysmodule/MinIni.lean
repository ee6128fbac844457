/-
The INI library (`minIni.c`): what `ini_browse` calls back with, and how `ini_putsection` copies a file, without one section
and with another, through a buffer of 512 characters into a second file that then takes the first one's name.

A read is an `fgets`: it stores a line, or what fits, and a NUL behind it; at the end of the file it stores nothing. A
string in the buffer ends at its first NUL. Opening, removing and renaming may fail, and a write may store less than its
string: whether it does is not looked at, so the copy goes on the same way. A `char` has no sign. Loops that may not end
carry fuel and answer `none` when it runs out.
-/
import Mathlib.Tactic
import Mathlib.Data.List.DropRight
import RyazhaClk.Lib.Lines

namespace RyazhaClk.MinIni

open RyazhaClk.Lines

/-! ## Strings -/

abbrev Text := List Char

def nul : Char := Char.ofNat 0

def dquote : Char := Char.ofNat 34

def backslash : Char := Char.ofNat 92

def newline : Char := Char.ofNat 10

def INI_BUFFERSIZE : ℕ := 512

def INI_LINETERM : Text := [newline]

/-- what `skipleading` and `skiptrailing` pass over -/
def isBlank (c : Char) : Bool := nul < c && c ≤ ' '

def skipleading (str : Text) : Text := str.dropWhile isBlank

def striptrailing (str : Text) : Text := str.rdropWhile isBlank

/-- a character as `strnicmp` compares it -/
def upper (c : Char) : ℤ := if 'a' ≤ c ∧ c ≤ 'z' then c.toNat - 32 else c.toNat

/-- `PORTABLE_STRNICMP`; behind its end a string reads as NUL -/
def strnicmp : ℕ → Text → Text → ℤ
  | 0, _, _ => 0
  | n + 1, s1, s2 =>
    if s1.headD nul = nul ∧ s2.headD nul = nul then 0
    else if upper (s1.headD nul) ≠ upper (s2.headD nul) then upper (s1.headD nul) - upper (s2.headD nul)
    else strnicmp n s1.tail s2.tail

def strchr (c : Char) (str : Text) : Option ℕ := str.findIdx? (· = c)

def strrchr (c : Char) : Text → Option ℕ
  | [] => none
  | a :: str => ((strrchr c str).map (· + 1)).or (if a = c then some 0 else none)

/-! ## Quotes and comments -/

inductive QuoteOption where
  | none
  | enquote
  | dequote
deriving DecidableEq

/-- the loop of `QUOTE_ENQUOTE`, with `d` characters stored -/
def enquoteLoop (maxlen : ℕ) : ℕ → Text → Text
  | _, [] => []
  | d, c :: str =>
    if maxlen - 2 ≤ d then []
    else if c = dquote then
      -- no space for the escape character and the one behind it
      if maxlen - 3 ≤ d then [] else backslash :: c :: enquoteLoop maxlen (d + 2) str
    else c :: enquoteLoop maxlen (d + 1) str

/-- the loop of `QUOTE_DEQUOTE`, with room for so many characters -/
def dequoteLoop : ℕ → Text → Text
  | 0, _ => []
  | _ + 1, [] => []
  | room + 1, c :: str =>
    if (c = dquote ∨ c = backslash) ∧ str.head? = some dquote then dquote :: dequoteLoop room str.tail
    else c :: dequoteLoop room str

/-- `ini_strncpy`: the string left in `dest` -/
def iniStrncpy (source : Text) (maxlen : ℕ) (option : QuoteOption) : Text :=
  match (if option = .enquote ∧ maxlen < 3 then .none else option : QuoteOption) with
  | .none => source.take (maxlen - 1)
  | .enquote => [dquote] ++ enquoteLoop maxlen 1 source ++ [dquote]
  | .dequote => dequoteLoop (maxlen - 1) source

/-- what stands in front of a comment; the flag is `isstring` -/
def beforeComment : Bool → Text → Text
  | _, [] => []
  | isstring, [c] => if (c = ';' ∨ c = '#') ∧ isstring = false then [] else [c]
  | isstring, c :: d :: str =>
    if (c = ';' ∨ c = '#') ∧ isstring = false then []
    else if (c = dquote ∨ c = backslash) ∧ d = dquote then c :: d :: beforeComment isstring str
    else c :: beforeComment (if c = dquote then !isstring else isstring) (d :: str)

/-- `cleanstring`, with the option it sets -/
def cleanstring (string : Text) : Text × QuoteOption :=
  let string := striptrailing (beforeComment false string)
  if string.head? = some dquote ∧ string.getLast? = some dquote then (string.tail.dropLast, .dequote) else (string, .none)

/-- a value with a character that would end it, or with a space at its end, is quoted -/
def checkEnquote (value : Text) : QuoteOption :=
  if value.any (fun c => c = dquote ∨ c = ';' ∨ c = '#') ∨ value.getLast? = some ' ' then .enquote else .none

/-! ## Lines -/

/-- the sign between a key and its value -/
def keyEnd (sp : Text) : Option ℕ := (strchr '=' sp).or (strchr ':' sp)

/-- whether a line is the heading of the section -/
def headingMatches (sect line : Text) : Bool :=
  let sp := skipleading line
  sp.head? = some '[' && strrchr ']' sp = some (sect.length + 1) && strnicmp sect.length sp.tail sect = 0

/-- what `ini_browse` makes of a line -/
inductive IniLine where
  | ignored
  | heading (name : Text)
  | entry (key value : Text)

/-- a line that is not a heading; `room` is the buffer's behind the section name -/
def parseKey (room : ℕ) (sp : Text) : IniLine :=
  match keyEnd sp with
  | none => .ignored
  | some ep =>
    let key := iniStrncpy (striptrailing (sp.take ep)) room .none
    let value := cleanstring (skipleading (sp.drop (ep + 1)))
    .entry key (iniStrncpy value.1 (room - (key.length + 1)) value.2)

def parseLine (room : ℕ) (line : Text) : IniLine :=
  let sp := skipleading line
  if sp = [] ∨ sp.head? = some ';' ∨ sp.head? = some '#' then .ignored
  else
    match strrchr ']' sp with
    | some ep =>
      if sp.head? = some '[' then .heading (iniStrncpy (sp.take ep).tail INI_BUFFERSIZE .none) else parseKey room sp
    | none => parseKey room sp

/-- `writesection`: the line it writes, or nothing -/
def writesection (sect : Text) : Text :=
  if 0 < sect.length then ['['] ++ iniStrncpy sect (INI_BUFFERSIZE - 4) .none ++ [']'] ++ INI_LINETERM else []

/-- `writekey`: the line it writes -/
def writekey (key value : Text) : Text :=
  let key := iniStrncpy key (INI_BUFFERSIZE - 3) .none
  key ++ ['='] ++ iniStrncpy value (INI_BUFFERSIZE - (key.length + 1) - 2) (checkEnquote value) ++ INI_LINETERM

/-- a string as it lies in memory: up to its first NUL -/
def cstring (s : Text) : Text := s.takeWhile (· ≠ nul)

/-! ## Browsing -/

/-- a call of the callback -/
structure Callback where
  sect : Text
  key : Text
  value : Text
deriving DecidableEq

/-- the loop of `ini_browse` on the rest of the file; the section name and its NUL take up the front of the buffer -/
def browseLoop : ℕ → Text → Text → Option (List Callback)
  | 0, _, _ => none
  | fuel + 1, sect, rest =>
    let room := INI_BUFFERSIZE - (sect.length + 1)
    let line := lineOf newline (room - 1) rest
    if line = [] then some []
    else
      let rest := rest.drop line.length
      match parseLine room (cstring line) with
      | .ignored => browseLoop fuel sect rest
      | .heading name => browseLoop fuel name rest
      | .entry key value => (browseLoop fuel sect rest).map fun calls => ⟨sect, key, value⟩ :: calls

/-- `ini_browse` with a callback that always goes on -/
def iniBrowse (file : Text) : Option (List Callback) := browseLoop (file.length + 1) [] file

/-! ## Copying -/

/-- the file that is read, the position in it, the mark and the length of the cache behind it, the buffer, and the strings
handed over for the other file -/
structure Copying where
  content : Text
  pos : ℕ
  mark : ℕ
  cachelen : ℕ
  buffer : ℕ → Char
  writes : List Text

/-- a string stored in the buffer, with the NUL behind it -/
def storeText (buffer : ℕ → Char) (off : ℕ) (str : Text) : ℕ → Char := fun i =>
  if i < off then buffer i else ((str ++ [nul])[i - off]?).getD (buffer i)

/-- the string at a place of the buffer -/
def textAt (buffer : ℕ → Char) (off : ℕ) : Text := cstring ((List.range' off (INI_BUFFERSIZE - off)).map buffer)

namespace Copying

def written (s : Copying) : Text := s.writes.flatten

/-- `ini_read(buffer + off, INI_BUFFERSIZE - off, rfp)` -/
def iniRead (s : Copying) (off : ℕ) : Bool × Copying :=
  let line := lineOf newline (INI_BUFFERSIZE - off - 1) (s.content.drop s.pos)
  if line = [] then (false, s)
  else (true, { s with pos := s.pos + line.length, buffer := storeText s.buffer off line })

def iniWrite (s : Copying) (str : Text) : Copying := { s with writes := s.writes ++ [str] }

/-- `cache_accum(LocalBuffer, &cachelen, INI_BUFFERSIZE)` -/
def cacheAccum (s : Copying) : Bool × Copying :=
  let len := (textAt s.buffer 0).length
  if INI_BUFFERSIZE ≤ s.cachelen + len then (false, s) else (true, { s with cachelen := s.cachelen + len })

/-- the inner loop of `cache_flush`: on to the first NUL, or to the end of the cache -/
def passText (s : Copying) (pos : ℕ) : ℕ :=
  pos + (((List.range' pos (s.cachelen - pos)).map s.buffer).takeWhile (· ≠ nul)).length

/-- the outer loop of `cache_flush` -/
def flushLoop : ℕ → ℕ → Copying → Option (ℕ × Copying)
  | 0, _, _ => none
  | fuel + 1, pos, s =>
    if pos < s.cachelen then
      let s := (s.iniRead pos).2
      flushLoop fuel (s.passText pos) s
    else some (pos, s)

/-- `cache_flush`; the flag says whether the buffer ends with a line end -/
def cacheFlush (fuel : ℕ) (s : Copying) : Option (Bool × Copying) :=
  (flushLoop fuel 0 { s with pos := s.mark, buffer := Function.update s.buffer 0 nul }).map fun (pos, s) =>
    let (pos, s) :=
      if s.buffer 0 ≠ nul then
        let pos := if pos = INI_BUFFERSIZE then pos - 1 else pos
        let s := { s with buffer := Function.update s.buffer pos nul }
        (pos, s.iniWrite (textAt s.buffer 0))
      else (pos, s)
    (decide (pos > INI_LINETERM.length ∧ textAt s.buffer (pos - INI_LINETERM.length) = INI_LINETERM),
      { s with mark := s.pos, cachelen := 0 })

/-- a line that has been read goes to the cache; a full cache is flushed first and the line read again -/
def accumulate (fuel : ℕ) (s : Copying) : Option Copying :=
  if s.cacheAccum.1 then some s.cacheAccum.2
  else (s.cacheFlush fuel).map fun r => (r.2.iniRead 0).2.cacheAccum.2

/-- `(void)ini_tell(&rfp, &mark)` -/
def tell (s : Copying) : Copying := { s with mark := s.pos }

/-- `putsection`; the buffer holds the last line it wrote -/
def putsection (sect : Text) (keys : List (Text × Text)) (s : Copying) : Copying :=
  if keys = [] then s
  else
    let s := if 0 < sect.length then s.iniWrite (writesection sect) else s
    let s := keys.foldl (fun s kv => s.iniWrite (writekey kv.1 kv.2)) s
    let buffer := (keys.getLast?).elim s.buffer fun kv => storeText s.buffer 0 (writekey kv.1 kv.2)
    { s with buffer }.iniWrite INI_LINETERM

/-- the search for the heading: where it starts in the buffer, or none at the end of the file -/
def searchLoop (sect : Text) : ℕ → Copying → Option (Option ℕ × Copying)
  | 0, _ => none
  | fuel + 1, s =>
    match s.iniRead 0 with
    | (false, s) => some (none, s)
    | (true, s) =>
      let line := textAt s.buffer 0
      if headingMatches sect line then some (some (line.length - (skipleading line).length), s)
      else (s.accumulate fuel).bind (searchLoop sect fuel)

/-- the search for the next heading; `sp` points into the buffer once a line has been looked at -/
def skipLoop : ℕ → Option ℕ → Copying → Option (Option ℕ × Copying)
  | 0, _, _ => none
  | fuel + 1, sp, s =>
    match s.iniRead 0 with
    | (false, s) => (s.cacheFlush fuel).map fun r => (sp, r.2.tell)
    | (true, s) =>
      let line := textAt s.buffer 0
      let sp := line.length - (skipleading line).length
      if s.buffer sp = '[' then some (some sp, s) else skipLoop fuel (some sp) s.tell

/-- the loop that copies the rest of the file -/
def copyLoop : ℕ → Copying → Option Copying
  | 0, _ => none
  | fuel + 1, s =>
    match s.iniRead 0 with
    | (false, s) => some s
    | (true, s) => (s.accumulate fuel).bind (copyLoop fuel)

/-- behind the search for the next heading: the section, that heading if there is one, and the rest of the file -/
def insertSection (fuel : ℕ) (sect : Text) (keys : List (Text × Text)) (sp : Option ℕ) (s : Copying) : Option Copying :=
  let flag := sp.any fun sp => s.buffer sp = '['
  (s.cacheFlush fuel).bind fun (_, s) =>
    let s := ((s.putsection sect keys).iniRead 0).2
    -- either the heading that ended the search is copied, or nothing is left
    let s := if flag then s.cacheAccum.2 else s.tell
    (copyLoop fuel s).bind fun s => (s.cacheFlush fuel).map Prod.snd

/-- behind the search for the section's heading: a line is passed over, and what follows it up to the next heading -/
def replaceBody (fuel : ℕ) (sect : Text) (keys : List (Text × Text)) (sp : Option ℕ) (s : Copying) : Option Copying :=
  (s.cacheFlush fuel).bind fun (_, s) =>
    (skipLoop fuel sp (s.iniRead 0).2.tell).bind fun (sp, s) => s.insertSection fuel sect keys sp

/-- `ini_putsection` behind the opening of both files; no heading is looked for where the section has no name -/
def replaceSection (fuel : ℕ) (sect : Text) (keys : List (Text × Text)) (s : Copying) : Option Copying :=
  if 0 < sect.length then
    (searchLoop sect fuel s).bind fun
      | (none, s) =>
        (s.cacheFlush fuel).map fun (flag, s) => (if flag then s else s.iniWrite INI_LINETERM).putsection sect keys
      | (some sp, s) => s.replaceBody fuel sect keys (some sp)
  else s.replaceBody fuel sect keys none

end Copying

/-! ## Files -/

/-- the file and the one with its last character set to a tilde; `none` where there is none -/
structure Folder where
  file : Option Text
  temp : Option Text
deriving DecidableEq

/-- which operations on file names succeed, and how many characters a write stores where it does not store all of them -/
structure IniIo where
  opensRead : Bool
  opensWrite : Bool
  removes : Bool
  renames : Bool
  shortWrite : ℕ → Option ℕ

/-- what reaches the file of the strings handed over -/
def IniIo.stored (io : IniIo) (writes : List Text) : List Text :=
  writes.mapIdx fun i str => (io.shortWrite i).elim str fun n => str.take n

/-- the text of the file at each moment between two writes -/
def prefixes (stored : List Text) : List Text := (List.range (stored.length + 1)).map fun k => (stored.take k).flatten

/-- `close_rename`: the folder behind each of its two steps -/
def closeRename (io : IniIo) (file new : Text) : List Folder :=
  let removed : Folder := ⟨if io.removes then none else some file, some new⟩
  [removed, if io.renames then ⟨some new, none⟩ else removed]

/-- `ini_putsection`: its result, and the folder behind each step -/
def iniPutsection (io : IniIo) (fuel : ℕ) (sect : Text) (keys : List (Text × Text)) (buffer : ℕ → Char) (d : Folder) :
    Option (Bool × List Folder) :=
  match d.file.filter fun _ => io.opensRead with
  | none =>
    if !io.opensWrite then some (false, [])
    else
      let s : Copying := ⟨[], 0, 0, 0, buffer, []⟩
      some (true, (prefixes (io.stored (s.putsection sect keys).writes)).map fun new => ⟨some new, d.temp⟩)
  | some file =>
    if !io.opensWrite then some (false, [])
    else
      (Copying.replaceSection fuel sect keys ⟨file, 0, 0, 0, buffer, []⟩).map fun s =>
        let stored := io.stored s.writes
        (true, (prefixes stored).map (fun new => ⟨some file, some new⟩) ++ closeRename io file stored.flatten)

end RyazhaClk.MinIni
