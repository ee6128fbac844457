/-
What `ini_putsection` leaves behind, for a file without NUL characters. The file goes through a cache of whole lines that
is flushed by reading it again, and the buffer is shared by the cache, the line that is looked at and the lines written.

- `cacheFlush_eq`: a flush writes the lines in the cache, whatever was read since.
- `replaceSection_found`, `replaceSection_absent`, `replaceSection_nameless`: the file that is written.
- `replaceSection_stuck`: where the heading is indented and the last line, a section with keys is never written.
- `replaceSection_spec`: everywhere else the call ends, with one of these files.
-/
import Mathlib.Tactic
import RyazhaClk.Sysmodule.MinIni

namespace RyazhaClk.MinIni

open RyazhaClk.Lines

/-! ## The buffer -/

/-- the buffer holds a string, with its NUL, from the start on -/
structure Holds (buffer : ℕ → Char) (str : Text) : Prop where
  chars : ∀ i, ∀ hi : i < str.length, buffer i = str[i]
  terminated : buffer str.length = nul

variable {buffer : ℕ → Char} {str l : Text}

theorem holds_nil (buffer : ℕ → Char) : Holds (Function.update buffer 0 nul) [] :=
  ⟨fun _ hi => absurd hi (Nat.not_lt_zero _), Function.update_self 0 nul buffer⟩

theorem storeText_of_lt {off i : ℕ} (hi : i < off) : storeText buffer off l i = buffer i := if_pos hi

theorem storeText_char {off i : ℕ} (hi : i < l.length) : storeText buffer off l (off + i) = l[i] := by
  rw [storeText, if_neg (by omega), Nat.add_sub_cancel_left, List.getElem?_append_left hi, List.getElem?_eq_getElem hi,
    Option.getD_some]

theorem storeText_end (off : ℕ) : storeText buffer off l (off + l.length) = nul := by
  simp [storeText]

/-- storing behind a string extends it -/
theorem Holds.storeText (h : Holds buffer str) (l : Text) : Holds (storeText buffer str.length l) (str ++ l) := by
  constructor
  · intro i hi
    rw [List.length_append] at hi
    rcases Nat.lt_or_ge i str.length with hlt | hle
    · rw [storeText_of_lt hlt, h.chars i hlt, List.getElem_append_left]
    · obtain ⟨j, rfl⟩ := Nat.exists_eq_add_of_le hle
      rw [storeText_char (Nat.lt_of_add_lt_add_left hi), List.getElem_append_right (Nat.le_add_right _ _)]
      simp
  · rw [List.length_append, storeText_end]

theorem holds_storeText (buffer : ℕ → Char) (l : Text) : Holds (storeText buffer 0 l) l := by
  constructor
  · intro i hi
    have hchar : storeText buffer 0 l (0 + i) = l[i] := storeText_char hi
    simpa using hchar
  · have hend : storeText buffer 0 l (0 + l.length) = nul := storeText_end 0
    simpa using hend

theorem Holds.slice {read : Text} (h : Holds buffer (read ++ l)) : (List.range' read.length l.length).map buffer = l := by
  apply List.ext_getElem
  · simp
  · intro i hi hi'
    have hin : read.length + i < (read ++ l).length := by
      rw [List.length_append]
      omega
    simp [h.chars _ hin]

theorem cstring_of_notMem (h : nul ∉ str) : cstring str = str := by
  rw [cstring, List.takeWhile_eq_self_iff]
  intro c hc
  simpa using ne_of_mem_of_not_mem hc h

theorem cstring_append_nul (h : nul ∉ str) (rest : Text) : cstring (str ++ nul :: rest) = str := by
  rw [cstring, List.takeWhile_append_of_pos, List.takeWhile_cons_of_neg (by simp), List.append_nil]
  intro c hc
  simpa using ne_of_mem_of_not_mem hc h

/-- a range of places, with one of them taken out -/
theorem range'_eq_append_cons {off k n : ℕ} (hk : k < n) :
    List.range' off n = List.range' off k ++ (off + k) :: List.range' (off + k + 1) (n - k - 1) := by
  rw [← List.range'_succ, List.range'_append_1]
  congr 1
  omega

/-- **A string in the buffer** is read from any place in it. -/
theorem Holds.textAt_drop (h : Holds buffer str) (hnul : nul ∉ str) (hlen : str.length < INI_BUFFERSIZE) {k : ℕ}
    (hk : k ≤ str.length) : textAt buffer k = str.drop k := by
  have hslice : (List.range' k (str.length - k)).map buffer = str.drop k := by
    have hread : Holds buffer (str.take k ++ str.drop k) := by rwa [List.take_append_drop]
    simpa [hk] using hread.slice
  have hend : buffer (k + (str.length - k)) = nul := by
    rw [Nat.add_sub_cancel' hk, h.terminated]
  rw [textAt, range'_eq_append_cons (show str.length - k < INI_BUFFERSIZE - k by omega), List.map_append, List.map_cons,
    hslice, hend, cstring_append_nul fun hmem => hnul (List.mem_of_mem_drop hmem)]

theorem Holds.textAt (h : Holds buffer str) (hnul : nul ∉ str) (hlen : str.length < INI_BUFFERSIZE) :
    textAt buffer 0 = str := by
  simpa using h.textAt_drop hnul hlen (Nat.zero_le _)

/-! ## The lines written -/

theorem length_enquoteLoop (maxlen d : ℕ) (str : Text) : d + (enquoteLoop maxlen d str).length ≤ max d (maxlen - 2) := by
  induction str generalizing d with
  | nil => simp [enquoteLoop]
  | cons c str ih =>
    have hquoted := ih (d + 2)
    have hplain := ih (d + 1)
    rw [enquoteLoop]
    split_ifs <;> simp only [List.length_nil, List.length_cons] <;> omega

theorem length_dequoteLoop (room : ℕ) (str : Text) : (dequoteLoop room str).length ≤ room := by
  fun_induction dequoteLoop room str <;> simp_all

/-- a copy leaves room for its NUL -/
theorem length_iniStrncpy_le (source : Text) (maxlen : ℕ) (option : QuoteOption) :
    (iniStrncpy source maxlen option).length ≤ maxlen - 1 := by
  have hquoted := length_enquoteLoop maxlen 1 source
  have hplain := length_dequoteLoop (maxlen - 1) source
  unfold iniStrncpy
  cases option with
  | none => simp
  | dequote => simpa using hplain
  | enquote =>
    by_cases hshort : maxlen < 3
    · simp [hshort]
    · simp only [hshort, and_false, if_false, List.length_append, List.length_singleton]
      omega

theorem length_writekey_le (key value : Text) : (writekey key value).length ≤ 510 := by
  have hkey := length_iniStrncpy_le key (INI_BUFFERSIZE - 3) .none
  have hvalue := length_iniStrncpy_le value
    (INI_BUFFERSIZE - ((iniStrncpy key (INI_BUFFERSIZE - 3) .none).length + 1) - 2) (checkEnquote value)
  unfold INI_BUFFERSIZE at hkey hvalue
  simp only [writekey, INI_BUFFERSIZE, INI_LINETERM, List.length_append, List.length_singleton]
  omega

/-- the line of a key does not start with a NUL -/
theorem head_writekey {key : Text} (hkey : nul ∉ key) (value : Text) :
    ∃ c line, writekey key value = c :: line ∧ c ≠ nul := by
  cases key with
  | nil => exact ⟨'=', _, rfl, by decide⟩
  | cons c key => exact ⟨c, _, rfl, fun hc => hkey (hc ▸ List.mem_cons_self)⟩

theorem length_cstring_le {i : ℕ} (hi : str[i]? = some nul) : (cstring str).length ≤ i := by
  obtain ⟨hlt, hnul⟩ := List.getElem?_eq_some_iff.1 hi
  by_contra! hlong
  have hmem : str[i] ∈ cstring str := by
    have hprefix : cstring str <+: str := List.takeWhile_prefix _
    rw [← hprefix.getElem hlong]
    exact List.getElem_mem hlong
  simpa [hnul] using List.mem_takeWhile_imp hmem

/-- a line in the buffer, and where it may end before its NUL -/
theorem length_textAt {c : Char} (hc : c ≠ nul) (hlen : l.length < 511) (buffer : ℕ → Char) :
    0 < (textAt (storeText buffer 0 (c :: l)) 0).length ∧
      (textAt (storeText buffer 0 (c :: l)) 0).length ≤ l.length + 1 := by
  have hholds : Holds (storeText buffer 0 (c :: l)) (c :: l) := holds_storeText _ _
  constructor
  · have hfirst : storeText buffer 0 (c :: l) 0 = c := hholds.chars 0 (Nat.succ_pos _)
    rw [textAt, cstring, INI_BUFFERSIZE, Nat.sub_zero, List.range'_succ, List.map_cons, hfirst,
      List.takeWhile_cons_of_pos (by simpa using hc)]
    exact Nat.succ_pos _
  · apply length_cstring_le
    have hin : l.length + 1 < INI_BUFFERSIZE - 0 := by
      unfold INI_BUFFERSIZE
      omega
    rw [List.getElem?_map, List.getElem?_range' hin, Option.map_some]
    simpa using hholds.terminated

/-! ## Headings -/

/-- a line that ends the section in front of it -/
def isHeading (line : Text) : Bool := (skipleading line).head? = some '['

/-- where the first character of a line stands that is not blank -/
def indent (line : Text) : ℕ := line.length - (skipleading line).length

theorem indent_le (line : Text) : indent line ≤ line.length := Nat.sub_le _ _

theorem drop_indent (line : Text) : line.drop (indent line) = skipleading line := by
  have hsuffix : skipleading line <:+ line := List.dropWhile_suffix _
  exact (List.suffix_iff_eq_drop.1 hsuffix).symm

/-- what stands there in the buffer -/
theorem Holds.at_indent (h : Holds buffer l) : buffer (indent l) = '[' ↔ isHeading l = true := by
  have hdrop := drop_indent l
  rw [isHeading, ← hdrop, decide_eq_true_iff, List.head?_drop]
  rcases Nat.lt_or_ge (indent l) l.length with hlt | hge
  · rw [h.chars _ hlt, List.getElem?_eq_getElem hlt, Option.some_inj]
  · have hend : indent l = l.length := le_antisymm (indent_le l) hge
    rw [hend, h.terminated]
    simp [nul]

namespace Copying

variable {file done : Text} {s : Copying} {pending rest : List Text} {fuel : ℕ}

/-! ## Reading a line -/

/-- a read of a line that fits the buffer from a place of it on -/
theorem iniRead_line {off : ℕ} (hrest : s.content.drop s.pos = l ++ rest.flatten)
    (hline : Lined newline 511 (l :: rest)) (hfits : off + l.length ≤ 511) :
    s.iniRead off = (true, { s with pos := s.pos + l.length, buffer := storeText s.buffer off l }) := by
  have hlineOf : lineOf newline (INI_BUFFERSIZE - off - 1) (s.content.drop s.pos) = l := by
    rw [hrest]
    have hsame : lineOf newline (INI_BUFFERSIZE - off - 1) (l ++ rest.flatten) = lineOf newline 511 (l ++ rest.flatten) := by
      apply lineOf_of_length_le
      · rw [hline.2.1]
        unfold INI_BUFFERSIZE
        omega
      · unfold INI_BUFFERSIZE
        omega
    rw [hsame, hline.2.1]
  rw [iniRead, hlineOf]
  simp [hline.1]

theorem iniRead_end {off : ℕ} (hrest : s.content.drop s.pos = []) : s.iniRead off = (false, s) := by
  simp [iniRead, hrest]

/-! ## The cache -/

/-- the lines behind the mark: those in the cache and those that are not read yet; `done` is what a flush completes -/
structure Cached (file done : Text) (s : Copying) (pending rest : List Text) : Prop where
  content : s.content = file
  unread : file.drop s.mark = pending.flatten ++ rest.flatten
  lined : Lined newline 511 (pending ++ rest)
  cachelen : s.cachelen = pending.flatten.length
  fits : s.cachelen ≤ 511
  written : s.written ++ pending.flatten = done

/-- the reader stands behind the cache -/
def AtLine (s : Copying) : Prop := s.pos = s.mark + s.cachelen

theorem Cached.notMem (h : Cached file done s pending rest) (hnul : nul ∉ file) :
    nul ∉ pending.flatten ++ rest.flatten := by
  rw [← h.unread]
  exact fun hmem => hnul (List.mem_of_mem_drop hmem)

theorem Cached.drop_pos (h : Cached file done s pending rest) (hpos : s.AtLine) :
    s.content.drop s.pos = rest.flatten := by
  rw [h.content, hpos, ← List.drop_drop, h.unread, h.cachelen, List.drop_left]

/-- lines are not empty, so there are no more of them than characters -/
theorem length_le_of_lined {ls ls' : List Text} (h : Lined newline 511 (ls ++ ls')) : ls.length ≤ ls.flatten.length := by
  induction ls with
  | nil => exact le_rfl
  | cons l ls ih =>
    have hpos := List.length_pos_iff.2 h.1
    have hle := ih h.2.2
    rw [List.length_cons, List.flatten_cons, List.length_append]
    omega

/-! ## Flushing -/

/-- a stored line ends where its NUL stands -/
theorem passText_eq {read : Text} (hbuffer : Holds s.buffer (read ++ l)) (hnul : nul ∉ l)
    (hlen : read.length + l.length ≤ s.cachelen) : s.passText read.length = read.length + l.length := by
  have hend : s.buffer (read.length + l.length) = nul := by simpa using hbuffer.terminated
  have hpass : ∀ c ∈ l, decide (c ≠ nul) = true := fun c hc => by simpa using ne_of_mem_of_not_mem hc hnul
  rw [passText]
  rcases Nat.lt_or_ge l.length (s.cachelen - read.length) with hlt | hge
  · rw [range'_eq_append_cons hlt, List.map_append, List.map_cons, hbuffer.slice, hend,
      List.takeWhile_append_of_pos hpass, List.takeWhile_cons_of_neg (by simp), List.append_nil]
  · have hsame : s.cachelen - read.length = l.length := by omega
    rw [hsame, hbuffer.slice, List.takeWhile_eq_self_iff.2 hpass]

/-- the lines in front of the loop's position are in the buffer, the others follow one by one -/
theorem flushLoop_eq {todo : List Text} {read : Text} (hrest : s.content.drop s.pos = todo.flatten ++ rest.flatten)
    (hlined : Lined newline 511 (todo ++ rest)) (hbuffer : Holds s.buffer read) (hnul : nul ∉ todo.flatten)
    (hcachelen : s.cachelen = read.length + todo.flatten.length) (hfits : s.cachelen ≤ 511) (hfuel : todo.length < fuel) :
    ∃ buffer', flushLoop fuel read.length s =
        some (s.cachelen, { s with pos := s.pos + todo.flatten.length, buffer := buffer' }) ∧
      Holds buffer' (read ++ todo.flatten) ∧ (todo = [] → buffer' = s.buffer) := by
  induction todo generalizing fuel read s with
  | nil =>
    obtain ⟨fuel, rfl⟩ := Nat.exists_eq_add_of_lt hfuel
    refine ⟨s.buffer, ?_, by simpa using hbuffer, fun _ => rfl⟩
    have hlen : s.cachelen = read.length := by simpa using hcachelen
    cases s
    simp_all [flushLoop]
  | cons l todo ih =>
    obtain ⟨fuel, rfl⟩ := Nat.exists_eq_add_of_le' (Nat.one_le_of_lt hfuel)
    rw [List.flatten_cons, List.length_append] at hcachelen
    rw [List.flatten_cons, List.mem_append, not_or] at hnul
    have hline : Lined newline 511 (l :: (todo ++ rest)) := hlined
    have hpos : 0 < l.length := List.length_pos_iff.2 hline.1
    have hrest' : s.content.drop s.pos = l ++ (todo ++ rest).flatten := by
      rw [hrest, List.flatten_cons, List.flatten_append, List.append_assoc]
    have hread := iniRead_line hrest' hline (show read.length + l.length ≤ 511 by omega)
    have hstored := hbuffer.storeText l
    rw [flushLoop, if_pos (by omega), hread]
    dsimp only
    rw [passText_eq (s := { s with pos := s.pos + l.length, buffer := storeText s.buffer read.length l }) hstored
      hnul.1 (by dsimp only; omega), ← List.length_append]
    obtain ⟨buffer', hloop, hholds, -⟩ := ih
      (s := { s with pos := s.pos + l.length, buffer := storeText s.buffer read.length l })
      (by dsimp only; rw [← List.drop_drop, hrest', List.drop_left, List.flatten_append])
      hline.2.2 hstored hnul.2 (by dsimp only; rw [List.length_append]; omega) hfits
      (show todo.length < fuel by rw [List.length_cons] at hfuel; omega)
    refine ⟨buffer', ?_, by rwa [List.flatten_cons, ← List.append_assoc], by simp⟩
    rw [hloop, List.flatten_cons, List.length_append, ← Nat.add_assoc]

/-- whether the flushed lines end with a line end; a lone line end does not count -/
def endsLine (text : Text) : Bool := 1 < text.length ∧ text.getLast? = some newline

/-- **A flush** writes the lines in the cache, wherever the reader stands. -/
theorem cacheFlush_eq (h : Cached file done s pending rest) (hnul : nul ∉ file) (hfuel : 512 ≤ fuel) :
    ∃ s', s.cacheFlush fuel = some (endsLine pending.flatten, s') ∧ Cached file done s' [] rest ∧ s'.AtLine ∧
      s'.mark = s.mark + s.cachelen ∧ Holds s'.buffer pending.flatten ∧
      (pending = [] → s'.buffer = Function.update s.buffer 0 nul) := by
  have hnul' := h.notMem hnul
  rw [List.mem_append, not_or] at hnul'
  have hlen := length_le_of_lined h.lined
  have hcache := h.cachelen
  have hfits := h.fits
  obtain ⟨buffer', hloop, hholds, hsame⟩ := flushLoop_eq
    (s := { s with pos := s.mark, buffer := Function.update s.buffer 0 nul })
    (by dsimp only; rw [← h.unread, h.content]) h.lined (holds_nil _) hnul'.1 (by simpa using hcache) hfits
    (show pending.length < fuel by omega)
  rw [List.nil_append] at hholds
  have hunread : file.drop (s.mark + s.cachelen) = rest.flatten := by
    rw [← List.drop_drop, h.unread, hcache, List.drop_left]
  have hend : s.mark + pending.flatten.length = s.mark + s.cachelen := by rw [hcache]
  have hloop' : flushLoop fuel 0 { s with pos := s.mark, buffer := Function.update s.buffer 0 nul } =
      some (s.cachelen, { s with pos := s.mark + s.cachelen, buffer := buffer' }) := by
    rw [← hend]
    exact hloop
  rw [cacheFlush, hloop', Option.map_some]
  dsimp only
  by_cases hpending : pending = []
  · subst hpending
    have hzero : s.cachelen = 0 := by simpa using hcache
    have hfirst : buffer' 0 = nul := hholds.terminated
    refine ⟨{ s with pos := s.mark + s.cachelen, mark := s.mark + s.cachelen, cachelen := 0, buffer := buffer' }, ?_, ?_,
      rfl, rfl, hholds, fun _ => hsame rfl⟩
    · simp [hfirst, hzero, endsLine, INI_LINETERM]
    · exact ⟨h.content, by simpa using hunread, h.lined, rfl, Nat.zero_le _, h.written⟩
  · have hpos : 0 < pending.flatten.length := by
      obtain ⟨l, ls, rfl⟩ := List.exists_cons_of_ne_nil hpending
      have hl := List.length_pos_iff.2 h.lined.1
      rw [List.flatten_cons, List.length_append]
      omega
    have hfirst : buffer' 0 ≠ nul := by
      rw [hholds.chars 0 hpos]
      exact ne_of_mem_of_not_mem (List.getElem_mem hpos) hnul'.1
    have hne : s.cachelen ≠ INI_BUFFERSIZE := by
      unfold INI_BUFFERSIZE
      omega
    -- the NUL is there already
    have hupdate : Function.update buffer' s.cachelen nul = buffer' := by
      apply Function.update_eq_self_iff.2
      rw [hcache, hholds.terminated]
    have hlt : pending.flatten.length < INI_BUFFERSIZE := by
      unfold INI_BUFFERSIZE
      omega
    let s' := { s with pos := s.mark + s.cachelen, mark := s.mark + s.cachelen, cachelen := 0, buffer := buffer' }
    refine ⟨{ s' with writes := s.writes ++ [pending.flatten] }, ?_, ?_, rfl, rfl, hholds, fun h => absurd h hpending⟩
    · have hlast : textAt buffer' (s.cachelen - 1) = INI_LINETERM ↔ pending.flatten.getLast? = some newline := by
        rw [hholds.textAt_drop hnul'.1 hlt (by omega), hcache, List.drop_length_sub_one
          (List.length_pos_iff.1 hpos), INI_LINETERM, List.getLast?_eq_some_getLast (List.length_pos_iff.1 hpos)]
        simp
      have hlong : s.cachelen > INI_LINETERM.length ↔ 1 < pending.flatten.length := by
        rw [hcache]
        rfl
      rw [if_pos hfirst, if_neg hne]
      dsimp only [iniWrite]
      rw [hupdate, hholds.textAt hnul'.1 hlt]
      exact congrArg some (Prod.ext (decide_eq_decide.2 (and_congr hlong hlast)) rfl)
    · refine ⟨h.content, by simpa using hunread, h.lined.of_append, rfl, Nat.zero_le _, ?_⟩
      simpa [written] using h.written

/-! ## The cache and the lines -/

/-- a read does not touch what is cached -/
theorem Cached.of_read (h : Cached file done s pending rest) (pos : ℕ) (buffer : ℕ → Char) :
    Cached file done { s with pos, buffer } pending rest := ⟨h.content, h.unread, h.lined, h.cachelen, h.fits, h.written⟩

theorem Cached.line (h : Cached file done s pending (l :: rest)) : Lined newline 511 (l :: rest) := h.lined.of_append

theorem Cached.notMem_line (h : Cached file done s pending (l :: rest)) (hnul : nul ∉ file) : nul ∉ l := fun hmem =>
  h.notMem hnul (by simp [hmem])

/-- the next line, read to the start of the buffer -/
def readLine (s : Copying) (l : Text) : Copying := { s with pos := s.pos + l.length, buffer := storeText s.buffer 0 l }

theorem Cached.readLine (h : Cached file done s pending rest) (l : Text) : Cached file done (s.readLine l) pending rest :=
  h.of_read _ _

theorem Cached.iniRead (h : Cached file done s pending (l :: rest)) (hpos : s.AtLine) :
    s.iniRead 0 = (true, s.readLine l) :=
  iniRead_line (by rw [h.drop_pos hpos, List.flatten_cons]) h.line (by simpa using h.line.length_le)

theorem Cached.iniRead_nil (h : Cached file done s pending []) (hpos : s.AtLine) : s.iniRead 0 = (false, s) :=
  iniRead_end (h.drop_pos hpos)

theorem textAt_readLine (hline : l.length ≤ 511) (hnul : nul ∉ l) : textAt (s.readLine l).buffer 0 = l :=
  (holds_storeText _ _).textAt hnul (Nat.lt_succ_of_le hline)

/-- there is room for one more line -/
theorem Cached.cacheAccum (h : Cached file done s pending (l :: rest)) (hpos : s.AtLine) (hnul : nul ∉ file)
    (hroom : s.cachelen + l.length ≤ 511) :
    ∃ s', (s.readLine l).cacheAccum = (true, s') ∧ Cached file (done ++ l) s' (pending ++ [l]) rest ∧ s'.AtLine := by
  have hlen : (textAt (s.readLine l).buffer 0).length = l.length := by
    rw [textAt_readLine h.line.length_le (h.notMem_line hnul)]
  have hcachelen : s.cachelen = pending.flatten.length := h.cachelen
  refine ⟨{ s.readLine l with cachelen := s.cachelen + l.length }, ?_, ?_, ?_⟩
  · have hnot : ¬ INI_BUFFERSIZE ≤ (s.readLine l).cachelen + l.length := by
      unfold INI_BUFFERSIZE
      exact Nat.not_le.2 (Nat.lt_succ_of_le hroom)
    rw [Copying.cacheAccum, hlen, if_neg hnot]
    rfl
  · refine ⟨h.content, ?_, ?_, ?_, hroom, ?_⟩
    · show file.drop s.mark = _
      rw [h.unread]
      simp
    · simpa using h.lined
    · show s.cachelen + l.length = _
      simp [hcachelen]
    · rw [← h.written]
      simp [Copying.written, Copying.readLine]
  · show s.pos + l.length = s.mark + (s.cachelen + l.length)
    rw [hpos, Nat.add_assoc]

/-- **A line that has been read** is cached, behind a flush where the cache is full. -/
theorem accumulate_eq (h : Cached file done s pending (l :: rest)) (hpos : s.AtLine) (hnul : nul ∉ file)
    (hfuel : 512 ≤ fuel) :
    ∃ s' pending', (s.readLine l).accumulate fuel = some s' ∧ Cached file (done ++ l) s' pending' rest ∧ s'.AtLine := by
  rcases Nat.lt_or_ge (s.cachelen + l.length) INI_BUFFERSIZE with hroom | hfull
  · obtain ⟨s', haccum, hcached, hpos'⟩ := h.cacheAccum hpos hnul (Nat.le_of_lt_succ hroom)
    refine ⟨s', _, ?_, hcached, hpos'⟩
    rw [accumulate, haccum, if_pos rfl]
  · obtain ⟨s₁, hflush, hcached, hpos₁, -⟩ := cacheFlush_eq (h.readLine l) hnul hfuel
    have hempty : s₁.cachelen = 0 := hcached.cachelen
    obtain ⟨s', haccum, hcached', hpos'⟩ := hcached.cacheAccum hpos₁ hnul
      (by rw [hempty, Nat.zero_add]; exact h.line.length_le)
    refine ⟨s', _, ?_, hcached', hpos'⟩
    have hlen : (textAt (s.readLine l).buffer 0).length = l.length := by
      rw [textAt_readLine h.line.length_le (h.notMem_line hnul)]
    have hno : (s.readLine l).cacheAccum.1 = false := by
      rw [Copying.cacheAccum, hlen, if_pos]
      exact hfull
    rw [accumulate, hno, if_neg (by simp), hflush, Option.map_some, hcached.iniRead hpos₁, haccum]

/-! ## The three loops -/

/-- the heading is looked for line by line -/
theorem searchLoop_found {pre post : List Text} {head : Text} (h : Cached file done s pending (pre ++ head :: post))
    (hpos : s.AtLine) (hnul : nul ∉ file) (hpre : ∀ l ∈ pre, headingMatches sect l = false)
    (hhead : headingMatches sect head = true) (hfuel : pre.length + 512 < fuel) :
    ∃ s' pending', searchLoop sect fuel s = some (some (head.length - (skipleading head).length), s') ∧
      Cached file (done ++ pre.flatten) s' pending' (head :: post) ∧ Holds s'.buffer head := by
  induction pre generalizing s done pending fuel with
  | nil =>
    obtain ⟨fuel, rfl⟩ := Nat.exists_eq_add_of_le' (Nat.one_le_of_lt hfuel)
    rw [List.nil_append] at h
    refine ⟨s.readLine head, pending, ?_, by simpa using h.readLine head, holds_storeText _ _⟩
    rw [searchLoop, h.iniRead hpos]
    dsimp only
    rw [textAt_readLine h.line.length_le (h.notMem_line hnul), if_pos hhead]
  | cons l pre ih =>
    obtain ⟨fuel, rfl⟩ := Nat.exists_eq_add_of_le' (Nat.one_le_of_lt hfuel)
    rw [List.length_cons] at hfuel
    rw [List.cons_append] at h
    have hno : headingMatches sect l = false := hpre l List.mem_cons_self
    obtain ⟨s₁, pending₁, haccum, hcached, hpos₁⟩ := accumulate_eq h hpos hnul (show 512 ≤ fuel by omega)
    obtain ⟨s', pending', hloop, hcached', hholds⟩ := ih hcached hpos₁ (fun l hl => hpre l (List.mem_cons_of_mem _ hl))
      (show pre.length + 512 < fuel by omega)
    refine ⟨s', pending', ?_, by simpa using hcached', hholds⟩
    rw [searchLoop, h.iniRead hpos]
    dsimp only
    rw [textAt_readLine h.line.length_le (h.notMem_line hnul), if_neg (by simp [hno]), haccum, Option.bind_some, hloop]

theorem searchLoop_absent (h : Cached file done s pending rest) (hpos : s.AtLine) (hnul : nul ∉ file)
    (hrest : ∀ l ∈ rest, headingMatches sect l = false) (hfuel : rest.length + 512 < fuel) :
    ∃ s' pending', searchLoop sect fuel s = some (none, s') ∧ Cached file (done ++ rest.flatten) s' pending' [] := by
  induction rest generalizing s done pending fuel with
  | nil =>
    obtain ⟨fuel, rfl⟩ := Nat.exists_eq_add_of_le' (Nat.one_le_of_lt hfuel)
    refine ⟨s, pending, ?_, by simpa using h⟩
    rw [searchLoop, h.iniRead_nil hpos]
  | cons l rest ih =>
    obtain ⟨fuel, rfl⟩ := Nat.exists_eq_add_of_le' (Nat.one_le_of_lt hfuel)
    rw [List.length_cons] at hfuel
    have hno : headingMatches sect l = false := hrest l List.mem_cons_self
    obtain ⟨s₁, pending₁, haccum, hcached, hpos₁⟩ := accumulate_eq h hpos hnul (show 512 ≤ fuel by omega)
    obtain ⟨s', pending', hloop, hcached'⟩ := ih hcached hpos₁ (fun l hl => hrest l (List.mem_cons_of_mem _ hl))
      (show rest.length + 512 < fuel by omega)
    refine ⟨s', pending', ?_, by simpa using hcached'⟩
    rw [searchLoop, h.iniRead hpos]
    dsimp only
    rw [textAt_readLine h.line.length_le (h.notMem_line hnul), if_neg (by simp [hno]), haccum, Option.bind_some, hloop]

theorem copyLoop_eq (h : Cached file done s pending rest) (hpos : s.AtLine) (hnul : nul ∉ file)
    (hfuel : rest.length + 512 < fuel) :
    ∃ s' pending', copyLoop fuel s = some s' ∧ Cached file (done ++ rest.flatten) s' pending' [] := by
  induction rest generalizing s done pending fuel with
  | nil =>
    obtain ⟨fuel, rfl⟩ := Nat.exists_eq_add_of_le' (Nat.one_le_of_lt hfuel)
    refine ⟨s, pending, ?_, by simpa using h⟩
    rw [copyLoop, h.iniRead_nil hpos]
  | cons l rest ih =>
    obtain ⟨fuel, rfl⟩ := Nat.exists_eq_add_of_le' (Nat.one_le_of_lt hfuel)
    rw [List.length_cons] at hfuel
    obtain ⟨s₁, pending₁, haccum, hcached, hpos₁⟩ := accumulate_eq h hpos hnul (show 512 ≤ fuel by omega)
    obtain ⟨s', pending', hloop, hcached'⟩ := ih hcached hpos₁ (show rest.length + 512 < fuel by omega)
    refine ⟨s', pending', ?_, by simpa using hcached'⟩
    rw [copyLoop, h.iniRead hpos]
    dsimp only
    rw [haccum, Option.bind_some, hloop]

/-- behind a line that has been read and is not wanted, with an empty cache -/
theorem Cached.pass (h : Cached file done s [] (l :: rest)) (hpos : s.AtLine) :
    Cached file done (s.readLine l).tell [] rest ∧ (s.readLine l).tell.AtLine := by
  have hzero : s.cachelen = 0 := h.cachelen
  refine ⟨⟨h.content, ?_, h.line.2.2, h.cachelen, h.fits, h.written⟩, ?_⟩
  · show file.drop (s.pos + l.length) = _
    rw [← List.drop_drop, ← h.content, h.drop_pos hpos]
    simp
  · show s.pos + l.length = s.pos + l.length + s.cachelen
    rw [hzero, Nat.add_zero]

/-- telling the position at the end of the cache changes nothing -/
theorem AtLine.tell (hpos : s.AtLine) (h : Cached file done s [] rest) : s.tell = s := by
  have hzero : s.cachelen = 0 := h.cachelen
  have hmark : s.pos = s.mark := by rw [hpos, hzero, Nat.add_zero]
  cases s
  exact congrArg (Copying.mk _ _ · _ _ _) hmark

theorem skipLoop_line {sp : Option ℕ} (h : Cached file done s [] (l :: rest)) (hpos : s.AtLine) (hnul : nul ∉ file)
    (hno : isHeading l = false) : skipLoop (fuel + 1) sp s = skipLoop fuel (some (indent l)) (s.readLine l).tell := by
  have hholds : Holds (s.readLine l).buffer l := holds_storeText _ _
  rw [skipLoop, h.iniRead hpos]
  dsimp only
  rw [textAt_readLine h.line.length_le (h.notMem_line hnul)]
  exact if_neg (mt hholds.at_indent.1 (by simp [hno]))

/-- the lines of the section are passed over -/
theorem skipLoop_heading {body post : List Text} {head : Text} (sp : Option ℕ)
    (h : Cached file done s [] (body ++ head :: post)) (hpos : s.AtLine)
    (hbody : ∀ l ∈ body, isHeading l = false) (hhead : isHeading head = true) (hnul : nul ∉ file)
    (hfuel : body.length + 512 < fuel) :
    ∃ s', skipLoop fuel sp s = some (some (indent head), s') ∧ Cached file done s' [] (head :: post) ∧
      Holds s'.buffer head := by
  induction body generalizing s fuel sp with
  | nil =>
    obtain ⟨fuel, rfl⟩ := Nat.exists_eq_add_of_le' (Nat.one_le_of_lt hfuel)
    rw [List.nil_append] at h
    have hholds : Holds (s.readLine head).buffer head := holds_storeText _ _
    refine ⟨s.readLine head, ?_, h.readLine head, hholds⟩
    rw [skipLoop, h.iniRead hpos]
    dsimp only
    rw [textAt_readLine h.line.length_le (h.notMem_line hnul)]
    exact if_pos (hholds.at_indent.2 hhead)
  | cons l body ih =>
    obtain ⟨fuel, rfl⟩ := Nat.exists_eq_add_of_le' (Nat.one_le_of_lt hfuel)
    rw [List.length_cons] at hfuel
    rw [List.cons_append] at h
    have hno : isHeading l = false := hbody l List.mem_cons_self
    obtain ⟨s', hloop, hcached, hholds⟩ := ih (some (indent l)) (h.pass hpos).1 (h.pass hpos).2
      (fun l hl => hbody l (List.mem_cons_of_mem _ hl)) (show body.length + 512 < fuel by omega)
    exact ⟨s', by rw [skipLoop_line h hpos hnul hno, hloop], hcached, hholds⟩

/-- at the end of the file the mark of the next heading may be left over from the section's own -/
theorem skipLoop_end {body : List Text} (sp : Option ℕ) (h : Cached file done s [] body) (hpos : s.AtLine)
    (hbody : ∀ l ∈ body, isHeading l = false) (hnul : nul ∉ file) (hfuel : body.length + 512 < fuel) :
    ∃ s' sp', skipLoop fuel sp s = some (sp', s') ∧ Cached file done s' [] [] ∧ s'.AtLine ∧
      ((sp'.any fun i => s'.buffer i = '[') = true ↔ body = [] ∧ ∃ i, sp = some i ∧ i ≠ 0 ∧ s.buffer i = '[') := by
  induction body generalizing s fuel sp with
  | nil =>
    obtain ⟨fuel, rfl⟩ := Nat.exists_eq_add_of_le' (Nat.one_le_of_lt hfuel)
    obtain ⟨s', hflush, hcached, hpos', hmark, -, hbuffer⟩ := cacheFlush_eq h hnul (show 512 ≤ fuel by omega)
    refine ⟨s'.tell, sp, ?_, ?_, ?_, ?_⟩
    · rw [skipLoop, h.iniRead_nil hpos]
      dsimp only
      rw [hflush, Option.map_some]
    · rwa [hpos'.tell hcached]
    · rwa [hpos'.tell hcached]
    · rw [tell, hbuffer rfl]
      cases sp with
      | none => simp
      | some i =>
        by_cases hi : i = 0
        · simp [hi, nul]
        · simp [hi]
  | cons l body ih =>
    obtain ⟨fuel, rfl⟩ := Nat.exists_eq_add_of_le' (Nat.one_le_of_lt hfuel)
    rw [List.length_cons] at hfuel
    have hno : isHeading l = false := hbody l List.mem_cons_self
    have hholds : Holds (s.readLine l).buffer l := holds_storeText _ _
    obtain ⟨s', sp', hloop, hcached, hpos', hflag⟩ := ih (some (indent l)) (h.pass hpos).1 (h.pass hpos).2
      (fun l hl => hbody l (List.mem_cons_of_mem _ hl)) (show body.length + 512 < fuel by omega)
    refine ⟨s', sp', by rw [skipLoop_line h hpos hnul hno, hloop], hcached, hpos', ?_⟩
    have hblank : ¬ (s.readLine l).tell.buffer (indent l) = '[' := by
      rw [show (s.readLine l).tell.buffer = (s.readLine l).buffer from rfl, hholds.at_indent, hno]
      simp
    rw [hflag]
    simp [hblank]

/-! ## The section -/

/-- what `putsection` writes -/
def sectionText (sect : Text) (keys : List (Text × Text)) : Text :=
  if keys = [] then [] else writesection sect ++ (keys.map fun kv => writekey kv.1 kv.2).flatten ++ INI_LINETERM

theorem foldl_writekey (keys : List (Text × Text)) (s : Copying) :
    keys.foldl (fun s kv => s.iniWrite (writekey kv.1 kv.2)) s =
      { s with writes := s.writes ++ keys.map fun kv => writekey kv.1 kv.2 } := by
  induction keys generalizing s with
  | nil => simp
  | cons kv keys ih =>
    rw [List.foldl_cons, ih]
    simp [iniWrite]

theorem putsection_nil (sect : Text) (s : Copying) : s.putsection sect [] = s := if_pos rfl

/-- the section goes behind what is written, and its last key stays in the buffer -/
theorem putsection_eq {keys : List (Text × Text)} (hkeys : keys ≠ []) (sect : Text) (s : Copying) :
    ∃ new, new.flatten = sectionText sect keys ∧ s.putsection sect keys = { s with
      writes := s.writes ++ new
      buffer := storeText s.buffer 0 (writekey (keys.getLast hkeys).1 (keys.getLast hkeys).2) } := by
  rw [putsection, if_neg hkeys, sectionText, if_neg hkeys, List.getLast?_eq_some_getLast hkeys]
  rcases List.eq_nil_or_concat sect with rfl | ⟨front, c, rfl⟩
  · refine ⟨(keys.map fun kv => writekey kv.1 kv.2) ++ [INI_LINETERM], by simp [writesection], ?_⟩
    simp only [foldl_writekey]
    simp [iniWrite]
  · refine ⟨writesection (front ++ [c]) :: ((keys.map fun kv => writekey kv.1 kv.2) ++ [INI_LINETERM]), by simp, ?_⟩
    simp only [foldl_writekey]
    simp [iniWrite]

theorem Cached.putsection (h : Cached file done s [] rest) (hpos : s.AtLine) (sect : Text) (keys : List (Text × Text)) :
    Cached file (done ++ sectionText sect keys) (s.putsection sect keys) [] rest ∧ (s.putsection sect keys).AtLine := by
  have hwritten := h.written
  by_cases hkeys : keys = []
  · rw [hkeys, putsection_nil, sectionText, if_pos rfl, List.append_nil]
    exact ⟨h, hpos⟩
  · obtain ⟨new, hnew, hput⟩ := putsection_eq hkeys sect s
    rw [hput]
    refine ⟨⟨h.content, h.unread, h.lined, h.cachelen, h.fits, ?_⟩, hpos⟩
    rw [← hwritten, ← hnew]
    simp [Copying.written]

/-! ## The whole copy -/

/-- where a section stands: its heading, and the lines up to the next one -/
structure SectionAt (sect file : Text) (pre : List Text) (head : Text) (body post : List Text) : Prop where
  lines : lines newline 511 file = pre ++ head :: (body ++ post)
  before : ∀ l ∈ pre, headingMatches sect l = false
  heading : headingMatches sect head = true
  inside : ∀ l ∈ body, isHeading l = false
  next : ∀ l ∈ post.head?, isHeading l = true

/-- `ini_putsection` has opened both files -/
def start (file : Text) (buffer : ℕ → Char) : Copying := ⟨file, 0, 0, 0, buffer, []⟩

theorem cached_start (file : Text) (buffer : ℕ → Char) :
    Cached file [] (start file buffer) [] (lines newline 511 file) ∧ (start file buffer).AtLine := by
  have hflatten : (lines newline 511 file).flatten = file := flatten_lines (by norm_num) file
  refine ⟨⟨rfl, ?_, lined_lines (by norm_num) file, rfl, Nat.zero_le _, rfl⟩, rfl⟩
  rw [hflatten]
  rfl

theorem length_lines_le (file : Text) : (lines newline 511 file).length ≤ file.length := by
  have hlined : Lined newline 511 (lines newline 511 file ++ []) := by
    rw [List.append_nil]
    exact lined_lines (by norm_num) file
  calc (lines newline 511 file).length ≤ (lines newline 511 file).flatten.length := length_le_of_lined hlined
    _ = file.length := by rw [flatten_lines (by norm_num)]

/-- what is written when nothing is left to read -/
theorem Cached.written_nil (h : Cached file done s [] []) : s.written = done := by simpa using h.written

/-- the rest of the file is copied and flushed -/
theorem copy_rest (h : Cached file done s pending rest) (hpos : s.AtLine) (hnul : nul ∉ file)
    (hfuel : rest.length + 512 < fuel) :
    ∃ s', ((copyLoop fuel s).bind fun s => (s.cacheFlush fuel).map Prod.snd) = some s' ∧
      s'.written = done ++ rest.flatten := by
  obtain ⟨s₁, pending₁, hcopy, hcached⟩ := copyLoop_eq h hpos hnul hfuel
  obtain ⟨s', hflush, hcached', -⟩ := cacheFlush_eq hcached hnul (show 512 ≤ fuel by omega)
  exact ⟨s', by rw [hcopy, Option.bind_some, hflush, Option.map_some], hcached'.written_nil⟩

variable {sect : Text} {keys : List (Text × Text)} {pre body post : List Text} {head : Text}

/-- both halves of the work: up to the heading, and behind it -/
theorem replaceSection_head (keys : List (Text × Text)) (hsect : sect ≠ [])
    (hat : SectionAt sect file pre head body post) (hnul : nul ∉ file) (hfuel : file.length + 512 < fuel)
    (buffer : ℕ → Char) :
    ∃ s, Cached file pre.flatten s [] (body ++ post) ∧ s.AtLine ∧ Holds s.buffer head ∧
      (start file buffer).replaceSection fuel sect keys =
        (skipLoop fuel (some (indent head)) s).bind fun (sp, s) => s.insertSection fuel sect keys sp := by
  obtain ⟨hcached, hpos⟩ := cached_start file buffer
  have hlines := hat.lines
  have hcount := length_lines_le file
  rw [hlines, List.length_append] at hcount
  rw [hlines] at hcached
  obtain ⟨s₁, pending, hsearch, hcached₁, hholds⟩ :=
    searchLoop_found hcached hpos hnul hat.before hat.heading (show pre.length + 512 < fuel by omega)
  obtain ⟨s₂, hflush, hcached₂, hpos₂, -⟩ := cacheFlush_eq hcached₁ hnul (show 512 ≤ fuel by omega)
  obtain ⟨hcached₃, hpos₃⟩ := hcached₂.pass hpos₂
  refine ⟨(s₂.readLine head).tell, by simpa using hcached₃, hpos₃, holds_storeText _ _, ?_⟩
  rw [replaceSection, if_pos (List.length_pos_iff.2 hsect), hsearch, Option.bind_some]
  dsimp only
  rw [replaceBody, hflush, Option.bind_some]
  dsimp only
  rw [hcached₂.iniRead hpos₂]
  rfl

/-- an empty buffer adds nothing to the cache -/
theorem cacheAccum_nil (h : Cached file done s [] rest) (hholds : Holds s.buffer []) : s.cacheAccum.2 = s := by
  have hlen : (textAt s.buffer 0).length = 0 := by
    rw [hholds.textAt List.not_mem_nil (by norm_num [INI_BUFFERSIZE])]
    rfl
  have hempty : s.cachelen = 0 := h.cachelen
  rw [Copying.cacheAccum, hlen, hempty, if_neg (by norm_num [INI_BUFFERSIZE])]
  cases s
  exact congrArg (Copying.mk _ _ _ · _ _) hempty.symm

/-- behind the line that was passed over: up to the next heading nothing is kept, and the section goes in its place. At the
end of the file nothing may be left in the buffer that looks like a heading. -/
theorem skip_insert (sp : Option ℕ) (sect : Text) (keys : List (Text × Text))
    (h : Cached file done s [] (body ++ post)) (hpos : s.AtLine) (hbody : ∀ l ∈ body, isHeading l = false)
    (hnext : ∀ l ∈ post.head?, isHeading l = true) (hnul : nul ∉ file) (hfuel : (body ++ post).length + 512 < fuel)
    (hgoes : post ≠ [] ∨ body ≠ [] ∨ keys = [] ∨ ∀ i, sp = some i → i = 0 ∨ s.buffer i ≠ '[') :
    ∃ s', ((skipLoop fuel sp s).bind fun (sp, s) => s.insertSection fuel sect keys sp) = some s' ∧
      s'.written = done ++ sectionText sect keys ++ post.flatten := by
  rw [List.length_append] at hfuel
  cases post with
  | cons next post =>
    obtain ⟨s₁, hskip, hcached₁, hholds₁⟩ := skipLoop_heading sp h hpos hbody (hnext next rfl) hnul
      (show body.length + 512 < fuel by omega)
    obtain ⟨s₂, hflush, hcached₂, hpos₂, -⟩ := cacheFlush_eq hcached₁ hnul (show 512 ≤ fuel by omega)
    obtain ⟨hcached₃, hpos₃⟩ := hcached₂.putsection hpos₂ sect keys
    have hempty : (s₂.putsection sect keys).cachelen = 0 := hcached₃.cachelen
    obtain ⟨s₄, haccum, hcached₄, hpos₄⟩ := hcached₃.cacheAccum hpos₃ hnul
      (by rw [hempty, Nat.zero_add]; exact hcached₃.line.length_le)
    obtain ⟨s', hcopy, hwritten⟩ := copy_rest hcached₄ hpos₄ hnul
      (show post.length + 512 < fuel by rw [List.length_cons] at hfuel; omega)
    refine ⟨s', ?_, by simp [hwritten]⟩
    have hflag : ((some (indent next)).any fun i => s₁.buffer i = '[') = true := by
      simpa using hholds₁.at_indent.2 (hnext next rfl)
    rw [hskip, Option.bind_some]
    dsimp only
    rw [insertSection, hflush, Option.bind_some]
    dsimp only
    rw [hcached₃.iniRead hpos₃, if_pos hflag, haccum, hcopy]
  | nil =>
    rw [List.append_nil] at h
    obtain ⟨s₁, sp', hskip, hcached₁, hpos₁, hflag⟩ := skipLoop_end sp h hpos hbody hnul
      (show body.length + 512 < fuel by omega)
    obtain ⟨s₂, hflush, hcached₂, hpos₂, -, hholds₂, -⟩ := cacheFlush_eq hcached₁ hnul (show 512 ≤ fuel by omega)
    obtain ⟨hcached₃, hpos₃⟩ := hcached₂.putsection hpos₂ sect keys
    have hsame : (if (sp'.any fun i => s₁.buffer i = '[') = true then (s₂.putsection sect keys).cacheAccum.2
        else (s₂.putsection sect keys).tell) = s₂.putsection sect keys := by
      split_ifs with hleft
      · obtain ⟨rfl, i, hi, hne, hbracket⟩ := hflag.1 hleft
        obtain hpost | hbody | rfl | hclear := hgoes
        · exact absurd rfl hpost
        · exact absurd rfl hbody
        · rw [putsection_nil, cacheAccum_nil hcached₂ hholds₂]
        · exact absurd hbracket ((hclear i hi).resolve_left hne)
      · exact hpos₃.tell hcached₃
    obtain ⟨s', hcopy, hwritten⟩ := copy_rest hcached₃ hpos₃ hnul
      (show ([] : List Text).length + 512 < fuel by rw [List.length_nil]; omega)
    refine ⟨s', ?_, by simpa using hwritten⟩
    rw [hskip, Option.bind_some]
    dsimp only
    rw [insertSection, hflush, Option.bind_some]
    dsimp only
    rw [hcached₃.iniRead_nil hpos₃, hsame, hcopy]

/-- **The section is replaced**, with everything up to the next heading. -/
theorem replaceSection_found (hsect : sect ≠ []) (hat : SectionAt sect file pre head body post) (hnul : nul ∉ file)
    (hfuel : file.length + 512 < fuel) (buffer : ℕ → Char) (hgoes : post ≠ [] ∨ body ≠ [] ∨ indent head = 0 ∨ keys = []) :
    ∃ s', (start file buffer).replaceSection fuel sect keys = some s' ∧
      s'.written = pre.flatten ++ sectionText sect keys ++ post.flatten := by
  obtain ⟨s, hcached, hpos, -, hreplace⟩ := replaceSection_head keys hsect hat hnul hfuel buffer
  have hcount := length_lines_le file
  rw [hat.lines, List.length_append, List.length_cons] at hcount
  rw [hreplace]
  have hbehind : (body ++ post).length + 512 < fuel := by omega
  apply skip_insert (some (indent head)) sect keys hcached hpos hat.inside hat.next hnul hbehind
  obtain hpost | hbody | hzero | hkeys := hgoes
  · exact Or.inl hpost
  · exact Or.inr (Or.inl hbody)
  · refine Or.inr (Or.inr (Or.inr fun i hi => Or.inl ?_))
    rw [← Option.some.inj hi, hzero]
  · exact Or.inr (Or.inr (Or.inl hkeys))

/-- what a section without a name leaves of a file: the lines from the first heading behind the first line on -/
def behindFront (file : Text) : List Text := ((lines newline 511 file).drop 1).dropWhile fun l => !isHeading l

/-- **A section without a name** goes in the place of everything up to the first heading behind the first line. -/
theorem replaceSection_nameless (keys : List (Text × Text)) (hnul : nul ∉ file) (hfuel : file.length + 512 < fuel)
    (buffer : ℕ → Char) :
    ∃ s', (start file buffer).replaceSection fuel [] keys = some s' ∧
      s'.written = sectionText [] keys ++ (behindFront file).flatten := by
  obtain ⟨hcached, hpos⟩ := cached_start file buffer
  have hcount := length_lines_le file
  obtain ⟨s₁, hflush, hcached₁, hpos₁, -⟩ := cacheFlush_eq hcached hnul (show 512 ≤ fuel by omega)
  -- the first line is passed over, if there is one
  have hfront : Cached file [] (s₁.iniRead 0).2.tell [] ((lines newline 511 file).drop 1) ∧
      (s₁.iniRead 0).2.tell.AtLine := by
    cases hlines : lines newline 511 file with
    | nil =>
      rw [hlines] at hcached₁
      rw [hcached₁.iniRead_nil hpos₁, hpos₁.tell hcached₁]
      exact ⟨hcached₁, hpos₁⟩
    | cons l rest =>
      rw [hlines] at hcached₁
      rw [hcached₁.iniRead hpos₁]
      exact hcached₁.pass hpos₁
  have hsplit := List.takeWhile_append_dropWhile (p := fun l => !isHeading l) (l := (lines newline 511 file).drop 1)
  have hcached₂ : Cached file [] (s₁.iniRead 0).2.tell []
      ((((lines newline 511 file).drop 1).takeWhile fun l => !isHeading l) ++ behindFront file) := by
    rw [behindFront, hsplit]
    exact hfront.1
  have hcount₂ : ((((lines newline 511 file).drop 1).takeWhile fun l => !isHeading l) ++ behindFront file).length + 512 <
      fuel := by
    rw [behindFront, hsplit, List.length_drop]
    omega
  have hbody : ∀ l ∈ ((lines newline 511 file).drop 1).takeWhile fun l => !isHeading l, isHeading l = false := by
    intro l hl
    simpa using List.mem_takeWhile_imp hl
  have hnext : ∀ l ∈ (behindFront file).head?, isHeading l = true := by
    intro l hl
    have hhead := List.head?_dropWhile_not (fun l => !isHeading l) ((lines newline 511 file).drop 1)
    rw [behindFront] at hl
    rw [Option.mem_def.1 hl] at hhead
    simpa using hhead
  obtain ⟨s', hinsert, hwritten⟩ := skip_insert none [] keys hcached₂ hfront.2 hbody hnext hnul hcount₂
    (Or.inr (Or.inr (Or.inr fun _ hi => nomatch hi)))
  refine ⟨s', ?_, by simpa using hwritten⟩
  rw [replaceSection, if_neg (by simp), replaceBody, hflush, Option.bind_some]
  exact hinsert

/-! ## A heading that ends the file -/

/-- the cache counts characters that are not in the file -/
theorem flushLoop_stuck (hzero : s.buffer 0 = nul) (hcount : 0 < s.cachelen) (hend : s.content.drop s.pos = []) (fuel : ℕ) :
    flushLoop fuel 0 s = none := by
  have hpass : s.passText 0 = 0 := by
    obtain ⟨n, hn⟩ := Nat.exists_eq_add_of_le' hcount
    rw [passText, hn, Nat.sub_zero, List.range'_succ, List.map_cons, hzero, List.takeWhile_cons_of_neg (by simp)]
    rfl
  induction fuel with
  | zero => rfl
  | succ fuel ih =>
    rw [flushLoop, if_pos hcount, iniRead_end hend]
    dsimp only
    rw [hpass, ih]

theorem copy_stuck (hcount : 0 < s.cachelen) (hend : s.content.drop s.pos = []) (hmark : s.content.drop s.mark = [])
    (fuel : ℕ) :
    ((copyLoop fuel s).bind fun s => (s.cacheFlush fuel).map Prod.snd) = none := by
  cases fuel with
  | zero => rfl
  | succ fuel =>
    have hcopy : copyLoop (fuel + 1) s = some s := by
      rw [copyLoop, iniRead_end hend]
    have hstuck : flushLoop (fuel + 1) 0 { s with pos := s.mark, buffer := Function.update s.buffer 0 nul } = none := by
      apply flushLoop_stuck
      · exact Function.update_self 0 nul s.buffer
      · exact hcount
      · exact hmark
    rw [hcopy, Option.bind_some, cacheFlush, hstuck]
    rfl

/-- the string in the buffer is counted, whatever it is -/
theorem cacheAccum_counts (hempty : s.cachelen = 0) (hroom : (textAt s.buffer 0).length < INI_BUFFERSIZE) :
    s.cacheAccum.2 = { s with cachelen := (textAt s.buffer 0).length } := by
  rw [Copying.cacheAccum, hempty, Nat.zero_add, if_neg (Nat.not_le.2 hroom)]

/-- **An indented heading that ends the file** is taken for the next heading once more, and the key that is left in the
buffer for its line. -/
theorem replaceSection_stuck (hsect : sect ≠ []) (hat : SectionAt sect file pre head [] []) (hnul : nul ∉ file)
    (hfuel : file.length + 512 < fuel) (buffer : ℕ → Char) (hindent : indent head ≠ 0) (hkeys : keys ≠ [])
    (hkey : nul ∉ (keys.getLast hkeys).1) : (start file buffer).replaceSection fuel sect keys = none := by
  obtain ⟨s, hcached, hpos, hholds, hreplace⟩ := replaceSection_head keys hsect hat hnul hfuel buffer
  rw [List.append_nil] at hcached
  obtain ⟨s₁, sp, hskip, hcached₁, hpos₁, hflag⟩ := skipLoop_end (some (indent head)) hcached hpos hat.inside
    hnul (show ([] : List Text).length + 512 < fuel by rw [List.length_nil]; omega)
  have hheading : isHeading head = true := by
    have hmatches := hat.heading
    simp only [headingMatches, Bool.and_eq_true] at hmatches
    exact hmatches.1.1
  have hleft := hflag.2 ⟨rfl, _, rfl, hindent, hholds.at_indent.2 hheading⟩
  obtain ⟨s₂, hflush, hcached₂, hpos₂, -⟩ := cacheFlush_eq hcached₁ hnul (show 512 ≤ fuel by omega)
  obtain ⟨hcached₃, hpos₃⟩ := hcached₂.putsection hpos₂ sect keys
  obtain ⟨new, -, hput⟩ := putsection_eq hkeys sect s₂
  obtain ⟨c, line, hline, hc⟩ := head_writekey hkey (keys.getLast hkeys).2
  have hbuffer : (s₂.putsection sect keys).buffer = storeText s₂.buffer 0 (c :: line) := by rw [hput, hline]
  have hbound := length_writekey_le (keys.getLast hkeys).1 (keys.getLast hkeys).2
  rw [hline, List.length_cons] at hbound
  obtain ⟨hlower, hupper⟩ := length_textAt hc (show line.length < 511 by omega) s₂.buffer
  have hempty : (s₂.putsection sect keys).cachelen = 0 := hcached₃.cachelen
  have haccum := cacheAccum_counts hempty (by rw [hbuffer, INI_BUFFERSIZE]; omega)
  rw [hreplace, hskip, Option.bind_some]
  dsimp only
  rw [insertSection, hflush, Option.bind_some]
  dsimp only
  rw [hcached₃.iniRead_nil hpos₃, if_pos hleft, haccum]
  apply copy_stuck
  · rwa [← hbuffer] at hlower
  · exact hcached₃.drop_pos hpos₃
  · have hmark : (s₂.putsection sect keys).pos = (s₂.putsection sect keys).mark := by rw [hpos₃, hempty, Nat.add_zero]
    simpa [hmark] using hcached₃.drop_pos hpos₃

/-! ## A file without the section -/

/-- **A section that is not there** goes to the end of the file, on a line of its own. -/
theorem replaceSection_absent (keys : List (Text × Text)) (hsect : sect ≠ [])
    (hnone : ∀ l ∈ lines newline 511 file, headingMatches sect l = false) (hnul : nul ∉ file)
    (hfuel : file.length + 512 < fuel) (buffer : ℕ → Char) :
    ∃ s' sep, (start file buffer).replaceSection fuel sect keys = some s' ∧
      s'.written = file ++ sep ++ sectionText sect keys ∧
      (sep = [newline] ∨ sep = [] ∧ file.getLast? = some newline) := by
  obtain ⟨hcached, hpos⟩ := cached_start file buffer
  have hcount := length_lines_le file
  obtain ⟨s₁, pending, hsearch, hcached₁⟩ := searchLoop_absent hcached hpos hnul hnone
    (show (lines newline 511 file).length + 512 < fuel by omega)
  rw [List.nil_append, flatten_lines (by norm_num)] at hcached₁
  obtain ⟨s₂, hflush, hcached₂, hpos₂, -⟩ := cacheFlush_eq hcached₁ hnul (show 512 ≤ fuel by omega)
  rw [replaceSection, if_pos (List.length_pos_iff.2 hsect), hsearch, Option.bind_some]
  dsimp only
  rw [hflush, Option.map_some]
  dsimp only
  cases hend : endsLine pending.flatten with
  | true =>
    refine ⟨_, [], rfl, ?_, Or.inr ⟨rfl, ?_⟩⟩
    · rw [if_pos rfl, (hcached₂.putsection hpos₂ sect keys).1.written_nil, List.append_nil]
    · rw [endsLine, decide_eq_true_iff] at hend
      rw [← hcached₁.written, List.getLast?_append, hend.2]
      rfl
  | false =>
    refine ⟨_, [newline], rfl, ?_, Or.inl rfl⟩
    have hcached₃ : Cached file (file ++ [newline]) (s₂.iniWrite INI_LINETERM) [] [] := by
      refine ⟨hcached₂.content, hcached₂.unread, hcached₂.lined, hcached₂.cachelen, hcached₂.fits, ?_⟩
      rw [← hcached₂.written_nil]
      simp [Copying.written, iniWrite, INI_LINETERM]
    rw [if_neg (by simp), (hcached₃.putsection hpos₂ sect keys).1.written_nil]

/-! ## The call -/

/-- the first heading of that name, if there is one, and the lines of its section -/
theorem exists_sectionAt_or (sect file : Text) :
    (∃ pre head body post, SectionAt sect file pre head body post) ∨
      ∀ l ∈ lines newline 511 file, headingMatches sect l = false := by
  rcases hfind : (lines newline 511 file).dropWhile (fun l => !headingMatches sect l) with _ | ⟨head, after⟩
  · right
    intro l hl
    simpa using List.dropWhile_eq_nil_iff.1 hfind l hl
  · left
    refine ⟨(lines newline 511 file).takeWhile fun l => !headingMatches sect l, head,
      after.takeWhile fun l => !isHeading l, after.dropWhile fun l => !isHeading l, ?_, ?_, ?_, ?_, ?_⟩
    · rw [List.takeWhile_append_dropWhile, ← hfind, List.takeWhile_append_dropWhile]
    · intro l hl
      simpa using List.mem_takeWhile_imp hl
    · have hhead := List.head?_dropWhile_not (fun l => !headingMatches sect l) (lines newline 511 file)
      rw [hfind, List.head?_cons] at hhead
      simpa using hhead
    · intro l hl
      simpa using List.mem_takeWhile_imp hl
    · intro l hl
      have hhead := List.head?_dropWhile_not (fun l => !isHeading l) after
      rw [Option.mem_def.1 hl] at hhead
      simpa using hhead

/-- what `ini_putsection` makes of a file, for a section with a name -/
def Rewritten (sect : Text) (keys : List (Text × Text)) (old new : Text) : Prop :=
  (∃ pre head body post, SectionAt sect old pre head body post ∧
    new = pre.flatten ++ sectionText sect keys ++ post.flatten) ∨
  (∀ l ∈ lines newline 511 old, headingMatches sect l = false) ∧
    ∃ sep, new = old ++ sep ++ sectionText sect keys ∧ (sep = [newline] ∨ sep = [] ∧ old.getLast? = some newline)

/-- what `ini_putsection` makes of a file -/
def Copied (sect : Text) (keys : List (Text × Text)) (old new : Text) : Prop :=
  if sect = [] then new = sectionText [] keys ++ (behindFront old).flatten else Rewritten sect keys old new

/-- a heading on the last line, behind a blank -/
def EndsWithIndented (sect file : Text) : Prop := ∃ pre head, SectionAt sect file pre head [] [] ∧ indent head ≠ 0

/-- the call ends unless the section's heading is indented and the last line, and there are keys to write -/
theorem replaceSection_eq_none_iff (hsect : sect ≠ []) (hnul : nul ∉ file) (hkeys : ∀ kv ∈ keys, nul ∉ kv.1)
    (hfuel : file.length + 512 < fuel) (buffer : ℕ → Char) :
    (start file buffer).replaceSection fuel sect keys = none ↔ keys ≠ [] ∧ EndsWithIndented sect file := by
  constructor
  · intro hnone
    obtain ⟨pre, head, body, post, hat⟩ | habsent := exists_sectionAt_or sect file
    · by_contra hends
      have hgoes : post ≠ [] ∨ body ≠ [] ∨ indent head = 0 ∨ keys = [] := by
        by_contra! hstuck
        obtain ⟨rfl, rfl, hindent, hne⟩ := hstuck
        exact hends ⟨hne, pre, head, hat, hindent⟩
      obtain ⟨s', hsome, -⟩ := replaceSection_found hsect hat hnul hfuel buffer hgoes
      rw [hsome] at hnone
      cases hnone
    · obtain ⟨s', sep, hsome, -⟩ := replaceSection_absent keys hsect habsent hnul hfuel buffer
      rw [hsome] at hnone
      cases hnone
  · rintro ⟨hne, pre, head, hat, hindent⟩
    exact replaceSection_stuck hsect hat hnul hfuel buffer hindent hne (hkeys _ (List.getLast_mem hne))

/-- what is written when the call ends -/
theorem replaceSection_rewritten (hsect : sect ≠ []) (hnul : nul ∉ file) (hkeys : ∀ kv ∈ keys, nul ∉ kv.1)
    (hfuel : file.length + 512 < fuel) {buffer : ℕ → Char} {s' : Copying}
    (hends : (start file buffer).replaceSection fuel sect keys = some s') : Rewritten sect keys file s'.written := by
  obtain ⟨pre, head, body, post, hat⟩ | habsent := exists_sectionAt_or sect file
  · have hgoes : post ≠ [] ∨ body ≠ [] ∨ indent head = 0 ∨ keys = [] := by
      by_contra! hstuck
      obtain ⟨rfl, rfl, hindent, hne⟩ := hstuck
      have hnone := (replaceSection_eq_none_iff hsect hnul hkeys hfuel buffer).2 ⟨hne, pre, head, hat, hindent⟩
      rw [hends] at hnone
      cases hnone
    obtain ⟨s, hsome, hwritten⟩ := replaceSection_found hsect hat hnul hfuel buffer hgoes
    obtain rfl : s' = s := by
      rw [hends] at hsome
      exact Option.some.inj hsome
    exact Or.inl ⟨pre, head, body, post, hat, hwritten⟩
  · obtain ⟨s, sep, hsome, hwritten, hsep⟩ := replaceSection_absent keys hsect habsent hnul hfuel buffer
    obtain rfl : s' = s := by
      rw [hends] at hsome
      exact Option.some.inj hsome
    exact Or.inr ⟨habsent, sep, hwritten, hsep⟩

theorem replaceSection_copied (hnul : nul ∉ file) (hkeys : ∀ kv ∈ keys, nul ∉ kv.1) (hfuel : file.length + 512 < fuel)
    {buffer : ℕ → Char} {s' : Copying} (hends : (start file buffer).replaceSection fuel sect keys = some s') :
    Copied sect keys file s'.written := by
  unfold Copied
  split_ifs with hsect
  · obtain ⟨s, hsome, hwritten⟩ := replaceSection_nameless keys hnul hfuel buffer
    rw [hsect, hsome] at hends
    obtain rfl := Option.some.inj hends
    exact hwritten
  · exact replaceSection_rewritten hsect hnul hkeys hfuel hends

/-- **The whole call.** On every file without NULs, whatever the buffer holds, the copy ends exactly where the section has
no name, its heading is not both indented and the last line, or there is nothing to write; and then the file it writes is
the old one with the section, up to the next heading, replaced, or with the section behind it, or, for a section without a
name, with everything up to the first heading behind the first line replaced. -/
theorem replaceSection_spec (hnul : nul ∉ file) (hkeys : ∀ kv ∈ keys, nul ∉ kv.1) (hfuel : file.length + 512 < fuel)
    (buffer : ℕ → Char) :
    ((start file buffer).replaceSection fuel sect keys = none ↔ sect ≠ [] ∧ keys ≠ [] ∧ EndsWithIndented sect file) ∧
      ∀ s', (start file buffer).replaceSection fuel sect keys = some s' → Copied sect keys file s'.written := by
  refine ⟨?_, fun _ hends => replaceSection_copied hnul hkeys hfuel hends⟩
  by_cases hsect : sect = []
  · obtain ⟨s', hsome, -⟩ := replaceSection_nameless keys hnul hfuel buffer
    rw [hsect, hsome]
    simp
  · rw [replaceSection_eq_none_iff hsect hnul hkeys hfuel buffer]
    simp [hsect]

/-- an indented heading as the last line is never copied; with a line behind it the section is replaced; and keys without
a section go in the place of the first section -/
theorem sample_copies :
    (start "[a]\nk=1\n [b]".toList fun _ => nul).replaceSection 600 "b".toList [("k".toList, "2".toList)] = none ∧
    (∃ s, (start "[a]\nk=1\n [b]\nk=1\n".toList fun _ => nul).replaceSection 600 "b".toList
        [("k".toList, "2".toList)] = some s ∧
      Copied "b".toList [("k".toList, "2".toList)] "[a]\nk=1\n [b]\nk=1\n".toList s.written ∧
      s.written = "[a]\nk=1\n[b]\nk=2\n\n".toList) ∧
    ∃ s, (start "[x]\na=1\n[y]\nb=1\n".toList fun _ => nul).replaceSection 600 [] [("k".toList, "2".toList)] = some s ∧
      Copied [] [("k".toList, "2".toList)] "[x]\na=1\n[y]\nb=1\n".toList s.written ∧
      s.written = "k=2\n\n[y]\nb=1\n".toList := by
  have hat : SectionAt "b".toList "[a]\nk=1\n [b]".toList ["[a]\n".toList, "k=1\n".toList] " [b]".toList [] [] :=
    ⟨by decide +kernel, by decide +kernel, by decide +kernel, nofun, nofun⟩
  refine ⟨(replaceSection_spec (by decide +kernel) (by decide +kernel) (by decide +kernel) fun _ => nul).1.2
    ⟨by simp, by simp, _, _, hat, by decide +kernel⟩, ?_, ?_⟩
  · have hwritten : ((start "[a]\nk=1\n [b]\nk=1\n".toList fun _ => nul).replaceSection 600 "b".toList
        [("k".toList, "2".toList)]).map written = some "[a]\nk=1\n[b]\nk=2\n\n".toList := by decide +kernel
    obtain ⟨s, hs, hnew⟩ := Option.map_eq_some_iff.1 hwritten
    exact ⟨s, hs, (replaceSection_spec (by decide +kernel) (by decide +kernel) (by decide +kernel) fun _ => nul).2 s hs,
      hnew⟩
  · have hwritten : ((start "[x]\na=1\n[y]\nb=1\n".toList fun _ => nul).replaceSection 600 []
        [("k".toList, "2".toList)]).map written = some "k=2\n\n[y]\nb=1\n".toList := by decide +kernel
    obtain ⟨s, hs, hnew⟩ := Option.map_eq_some_iff.1 hwritten
    exact ⟨s, hs, (replaceSection_spec (by decide +kernel) (by decide +kernel) (by decide +kernel) fun _ => nul).2 s hs,
      hnew⟩

end Copying

end RyazhaClk.MinIni
