/-
The CUST table in the KIP file (`kip.hpp`) on streams: `cust_find_offset` reads windows of 512 bytes into one buffer, in
which the bytes of earlier windows stay behind a short one, and moves its position by `fseek`; `cust_read_table` and
`cust_write_table` go on from the offset it finds. `fread` answers as many bytes as it is asked for, or what is left of
the file. `fwrite` counts the bytes the stream takes; they reach the card in order, some at once and the others when the
stream is flushed and closed, and a card that fails then keeps the bytes of before.

- `findLoop_eq`: the search on the stream ends and answers what the search on the whole content does.
- `readTable_eq`, `writeTable_eq`: what the two functions answer, and the file they leave.
- `cust_table_iff`: a table that was written is read back exactly when the bytes that never reach the card are in the
  file already; the search, reading, and a failure before the write are always right.
- `full_card_reported_written`: the results of `fflush` and `fclose` are dropped, so a card that stores nothing is
  reported as a success.
-/
import Mathlib.Tactic
import RyazhaClk.Sysmodule.KipTable

namespace RyazhaClk.KipFile

open RyazhaClk.WordBytes RyazhaClk.Layout

variable {content : List UInt8}

/-- the file with the bytes over those at `off` -/
def overwritten (content table : List UInt8) (off : ℕ) : List UInt8 :=
  content.take off ++ table ++ content.drop (off + table.length)

/-! ## Streams -/

/-- an open file: what the card holds, the position in it, and the bytes written at that position that are still in the
stream's buffer. The functions seek and read only while there are none. -/
structure Stream where
  content : List UInt8
  pos : ℕ
  pending : List UInt8

namespace Stream

/-- `fseek(f, pos, SEEK_SET)` -/
def fseek (f : Stream) (pos : ℕ) : Stream := { f with pos := pos }

/-- `fseek(f, 0, SEEK_END)` -/
def fseekEnd (f : Stream) : Stream := { f with pos := f.content.length }

def ftell (f : Stream) : ℕ := f.pos

/-- the bytes read, at most `n` -/
def fread (f : Stream) (n : ℕ) : List UInt8 × Stream :=
  let out := (f.content.drop f.pos).take n
  (out, { f with pos := f.pos + out.length })

/-- the card stores the first `n` bytes of the buffer -/
def drain (f : Stream) (n : ℕ) : Stream :=
  let out := f.pending.take n
  { content := overwritten f.content out f.pos
    pos := f.pos + out.length
    pending := f.pending.drop n }

/-- the stream takes the first `taken` bytes of `data` and counts them; `passed` of them reach the card at once -/
def fwrite (f : Stream) (taken passed : ℕ) (data : List UInt8) : ℕ × Stream :=
  let buffered := data.take taken
  (buffered.length, { f with pending := buffered }.drain passed)

def fflush (f : Stream) (stored : ℕ) : Stream := f.drain stored

/-- the file that is left; bytes the card does not store now are lost -/
def fclose (f : Stream) (stored : ℕ) : List UInt8 := (f.drain stored).content

end Stream

/-- what happens to the calls of one `cust_write_table`: whether the file opens, how many bytes the stream takes, and how
many of them the card stores in `fwrite`, in `fflush` and in `fclose` -/
structure StreamIo where
  opens : Bool
  taken : ℕ
  passed : ℕ
  flushed : ℕ
  closed : ℕ

/-- the bytes the card has stored in the end -/
def StreamIo.stored (io : StreamIo) : ℕ := io.passed + io.flushed + io.closed

/-- a write whose bytes reach the card as they are counted -/
def StreamIo.unbuffered (io : KipIo) : StreamIo := ⟨io.opens, io.stored, io.stored, 0, 0⟩

/-! ## The functions of kip.hpp -/

/-- `memcmp(&buf[i], CUST_MAGIC, CUST_MAGIC_LEN) == 0` -/
def magicIn (buf : List UInt8) (i : ℕ) : Bool := (buf.drop i).take 4 == custMagic

/-- the loop of `cust_find_offset`, from the position of the stream on; `none` when the fuel runs out first -/
def findLoop : ℕ → Stream → List UInt8 → ℕ → Option (Option ℕ × Stream)
  | 0, _, _, _ => none
  | fuel + 1, f, buf, pos =>
    let (out, f) := f.fread 512
    -- bytes of earlier windows stay behind the ones just read
    let buf := out ++ buf.drop out.length
    let r := out.length
    if r < 4 then some (none, f)
    else
      match (List.range (r - 4 + 1)).find? fun i => magicIn buf i with
      | some i => some (some (pos + i), f)
      | none => findLoop fuel (f.fseek (pos + (r - (4 - 1)))) buf (pos + (r - (4 - 1)))

/-- `cust_find_offset`; `buf` is what the buffer holds before -/
def findOffset (f : Stream) (buf : List UInt8) : Option (Option ℕ × Stream) :=
  findLoop (f.content.length + 1) (f.fseek 0) buf 0

/-- `cust_read_table`: the bytes of the table, and the file afterwards; a file that cannot be opened is `none` -/
def readTable (buf : List UInt8) (file : Option (List UInt8)) : Option (Option (List UInt8) × Option (List UInt8)) :=
  match file with
  | none => some (none, none)
  | some content =>
    (findOffset ⟨content, 0, []⟩ buf).bind fun
      | (none, f) => some (none, some f.content)
      | (some off, f) =>
        let f := f.fseekEnd
        if f.ftell < off + kipTableBytes then some (none, some f.content)
        else
          let (out, f) := (f.fseek off).fread kipTableBytes
          let ok := out.length = kipTableBytes
          some (if ok ∧ out.take 4 = custMagic then some out else none, some f.content)

/-- `cust_write_table`: whether it succeeds, and the file afterwards; what `fflush` and `fclose` answer is not looked at -/
def writeTable (io : StreamIo) (buf : List UInt8) (file : Option (List UInt8)) (table : List UInt8) :
    Option (Bool × Option (List UInt8)) :=
  match file with
  | none => some (false, none)
  | some content =>
    if !io.opens then some (false, some content)
    else
      (findOffset ⟨content, 0, []⟩ buf).bind fun
        | (none, f) => some (false, some f.content)
        | (some off, f) =>
          let f := f.fseekEnd
          if f.ftell < off + kipTableBytes then some (false, some f.content)
          else
            let (count, f) := (f.fseek off).fwrite io.taken io.passed table
            let f := f.fflush io.flushed
            some (count = kipTableBytes, some (f.fclose io.closed))

/-! ## The search -/

/-- in the bytes just read the buffer and the file agree, whatever stays behind them -/
theorem magicIn_window (stale : List UInt8) {pos i : ℕ} (hi : i + 4 ≤ ((content.drop pos).take 512).length) :
    magicIn ((content.drop pos).take 512 ++ stale) i = magicAt content (pos + i) := by
  have hi512 : i + 4 ≤ 512 := hi.trans (List.length_take_le _ _)
  have hwindow : (((content.drop pos).take 512 ++ stale).drop i).take 4 = (content.drop (pos + i)).take 4 := by
    rw [List.drop_append_of_le_length (by omega), List.take_append_of_le_length, List.drop_take, List.take_take,
      List.drop_drop, min_eq_left (by omega)]
    rw [List.length_drop]
    omega
  rw [magicIn, magicAt, hwindow]

/-- **The search on the stream** ends and answers what the search on the content does. -/
theorem findLoop_eq (fuel pos : ℕ) (buf : List UInt8) (hfuel : content.length < fuel + pos)
    (hpos : pos ≤ content.length) :
    ∃ f, findLoop fuel ⟨content, pos, []⟩ buf pos = some (custFindFrom content fuel pos, f) ∧ f.content = content := by
  induction fuel generalizing pos buf with
  | zero => omega
  | succ fuel ih =>
    have hread : ((content.drop pos).take 512).length = min 512 (content.length - pos) := by
      rw [List.length_take, List.length_drop]
    rw [findLoop, custFindFrom]
    simp only [Stream.fread, hread]
    by_cases hr : min 512 (content.length - pos) < 4
    · rw [if_pos hr, if_pos hr]
      exact ⟨_, rfl, rfl⟩
    · rw [if_neg hr, if_neg hr]
      have hcount : min 512 (content.length - pos) - 4 + 1 = min 512 (content.length - pos) - 3 := by omega
      have hfind : ((List.range (min 512 (content.length - pos) - 4 + 1)).find? fun i =>
            magicIn ((content.drop pos).take 512 ++ buf.drop (min 512 (content.length - pos))) i) =
          (List.range (min 512 (content.length - pos) - 3)).find? fun i => magicAt content (pos + i) := by
        rw [hcount]
        apply List.find?_congr
        intro i hi
        have hlt := List.mem_range.1 hi
        exact magicIn_window _ (by rw [hread]; omega)
      rw [hfind]
      cases hfound : (List.range (min 512 (content.length - pos) - 3)).find? fun i => magicAt content (pos + i) with
      | some i => exact ⟨_, rfl, rfl⟩
      | none => exact ih (pos + (min 512 (content.length - pos) - 3)) _ (by omega) (by omega)

theorem findOffset_eq (content buf : List UInt8) (pos : ℕ) :
    ∃ f, findOffset ⟨content, pos, []⟩ buf = some (custFindOffset content, f) ∧ f.content = content :=
  findLoop_eq (content.length + 1) 0 buf (Nat.lt_succ_self _) (Nat.zero_le _)

/-! ## Reading -/

/-- the bytes of the table at the first occurrence, if they are all there -/
def tableIn (content : List UInt8) : Option (List UInt8) :=
  (custFindOffset content).bind fun off =>
    if content.length < off + kipTableBytes then none else some ((content.drop off).take kipTableBytes)

theorem length_take_table {off : ℕ} (h : off + kipTableBytes ≤ content.length) :
    ((content.drop off).take kipTableBytes).length = kipTableBytes := by
  rw [List.length_take, List.length_drop]
  omega

/-- at an offset that was found the magic is there -/
theorem take_four_table {off : ℕ} (hoff : custFindOffset content = some off) :
    ((content.drop off).take kipTableBytes).take 4 = custMagic := by
  have hmagic := (custFindOffset_eq_some_iff.1 hoff).1
  rw [List.take_take, min_eq_left (by decide)]
  simpa [magicAt] using hmagic

theorem tableIn_eq_some_iff {table : List UInt8} : tableIn content = some table ↔
    ∃ off, custFindOffset content = some off ∧ off + kipTableBytes ≤ content.length ∧
      (content.drop off).take kipTableBytes = table := by
  rw [tableIn, Option.bind_eq_some_iff]
  refine exists_congr fun off => and_congr_right fun _ => ?_
  split_ifs with hlen
  · simp [not_le.2 hlen]
  · simp [not_lt.1 hlen]

/-- **Reading** answers the table and leaves the file. -/
theorem readTable_eq (buf content : List UInt8) :
    readTable buf (some content) = some (tableIn content, some content) := by
  obtain ⟨f, hfind, hcontent⟩ := findOffset_eq content buf 0
  rw [readTable]
  dsimp only
  rw [hfind, Option.bind_some]
  cases hoff : custFindOffset content with
  | none => simp [tableIn, hoff, hcontent]
  | some off =>
    by_cases hlen : content.length < off + kipTableBytes
    · simp [tableIn, hoff, hcontent, Stream.fseekEnd, Stream.ftell, hlen]
    · have hfull := length_take_table (not_lt.1 hlen)
      have hmagic := take_four_table hoff
      simp only [tableIn, hoff, hcontent, Stream.fseekEnd, Stream.ftell, Stream.fseek, Stream.fread, hlen, if_false,
        Option.bind_some, hfull, hmagic, true_and, if_true]

/-- as words this is the table that the rest of the sysmodule works on -/
theorem custReadTable_eq (content : List UInt8) : custReadTable content = (tableIn content).map toWords := by
  rw [custReadTable, tableIn]
  cases hoff : custFindOffset content with
  | none => rfl
  | some off =>
    rw [Option.bind_some, Option.bind_some]
    split_ifs with hlen
    · rfl
    · exact if_pos (take_four_table hoff)

/-! ## Writing -/

theorem length_overwritten {table : List UInt8} {off : ℕ} (h : off + table.length ≤ content.length) :
    (overwritten content table off).length = content.length := by
  simp [overwritten]
  omega

theorem getElem?_overwritten {table : List UInt8} {off i : ℕ} (h : off + table.length ≤ content.length)
    (hi : i < off ∨ off + table.length ≤ i) : (overwritten content table off)[i]? = content[i]? := by
  have hoff : (content.take off).length = off := List.length_take_of_le (by omega)
  rw [overwritten, List.append_assoc]
  rcases hi with hi | hi
  · rw [List.getElem?_append_left (by omega), List.getElem?_take_of_lt hi]
  · rw [List.getElem?_append_right (by omega), List.getElem?_append_right (by omega), hoff, List.getElem?_drop]
    congr 1
    omega

/-- bytes written behind bytes just written -/
theorem overwritten_append (table rest : List UInt8) {off : ℕ} (h : off ≤ content.length) :
    overwritten (overwritten content table off) rest (off + table.length) = overwritten content (table ++ rest) off := by
  have hfront : (content.take off ++ table).length = off + table.length := by
    rw [List.length_append, List.length_take_of_le h]
  have hbehind : (overwritten content table off).drop (off + table.length + rest.length) =
      content.drop (off + (table ++ rest).length) := by
    rw [overwritten, ← hfront, List.drop_length_add_append, List.drop_drop, hfront, List.length_append, Nat.add_assoc]
  rw [overwritten, hbehind, overwritten, overwritten, List.take_left' hfront, List.append_assoc (content.take off)]

/-- two parts of a buffer stored one behind the other are stored together -/
theorem Stream.drain_drain (f : Stream) (m n : ℕ) (hpos : f.pos ≤ f.content.length) :
    (f.drain m).drain n = f.drain (m + n) := by
  have hparts : f.pending.take (m + n) = f.pending.take m ++ (f.pending.drop m).take n := List.take_add
  simp only [Stream.drain, hparts, overwritten_append _ _ hpos, List.drop_drop, List.length_append, Nat.add_assoc]

/-- **Writing** goes as far as the file opens, holds the magic and is long enough; then the bytes that reach the card stand
over those of before. -/
theorem writeTable_eq (io : StreamIo) (buf content table : List UInt8) :
    writeTable io buf (some content) table = some (
      if io.opens = true then
        match custFindOffset content with
        | none => (false, some content)
        | some off =>
          if content.length < off + kipTableBytes then (false, some content)
          else ((table.take io.taken).length = kipTableBytes,
            some (overwritten content ((table.take io.taken).take io.stored) off))
      else (false, some content)) := by
  obtain ⟨f, hfind, hcontent⟩ := findOffset_eq content buf 0
  rw [writeTable]
  dsimp only
  by_cases hopens : io.opens = true
  · rw [if_neg (by simp [hopens]), if_pos hopens, hfind, Option.bind_some]
    cases hoff : custFindOffset content with
    | none => simp [hcontent]
    | some off =>
      by_cases hlen : content.length < off + kipTableBytes
      · simp [hcontent, Stream.fseekEnd, Stream.ftell, hlen]
      · -- the three places at which bytes reach the card are one
        have hpos : off ≤ content.length := by omega
        simp only [hcontent, Stream.fseekEnd, Stream.ftell, Stream.fseek, Stream.fwrite, Stream.fflush, Stream.fclose,
          hlen, if_false]
        rw [Stream.drain_drain ⟨content, off, table.take io.taken⟩ _ _ hpos,
          Stream.drain_drain ⟨content, off, table.take io.taken⟩ _ _ hpos]
        rfl
  · rw [if_pos (by simpa using hopens), if_neg hopens]

/-- as words this is the write that the rest of the sysmodule works on, where the bytes that are counted are stored -/
theorem writeTable_ofWords (io : KipIo) (buf content : List UInt8) {words : List ℕ}
    (hlen : words.length = size kipLayout) :
    writeTable (.unbuffered io) buf (some content) (ofWords words) =
      some ((custWriteTable io content words).1, some (custWriteTable io content words).2) := by
  have hbytes : (ofWords words).length = kipTableBytes := by rw [length_ofWords, hlen, kipTableBytes]
  have hcount : ((ofWords words).take io.stored).length = min io.stored kipTableBytes := by
    rw [List.length_take, hbytes]
  have htake : (ofWords words).take io.stored = (ofWords words).take (min io.stored kipTableBytes) := by
    rw [← List.take_take, List.take_of_length_le (l := ofWords words) hbytes.le]
  have hstored : ((ofWords words).take io.stored).take (StreamIo.unbuffered io).stored =
      (ofWords words).take io.stored := List.take_of_length_le (by simp [StreamIo.unbuffered, StreamIo.stored])
  have htaken : (StreamIo.unbuffered io).taken = io.stored := rfl
  have hopens : (StreamIo.unbuffered io).opens = io.opens := rfl
  rw [writeTable_eq, custWriteTable, htaken, hopens, hstored]
  simp only [overwritten, htake]
  cases io.opens with
  | false => rfl
  | true =>
    cases custFindOffset content with
    | none => rfl
    | some off =>
      by_cases hshort : content.length < off + kipTableBytes
      · simp [hshort]
      · simp [hshort, hbytes, Bool.beq_eq_decide_eq]

/-- the bytes of a `CustomizeTable` that begins with the magic -/
structure CustTable where
  bytes : List UInt8
  length_bytes : bytes.length = kipTableBytes
  magic : bytes.take 4 = custMagic

/-- the table that was written is the one that is found -/
theorem tableIn_overwritten (t : CustTable) {off : ℕ} (hoff : custFindOffset content = some off)
    (h : off + kipTableBytes ≤ content.length) : tableIn (overwritten content t.bytes off) = some t.bytes := by
  have hlen := t.length_bytes
  have htake : (content.take off).length = off := List.length_take_of_le (by omega)
  have hfound : custFindOffset (overwritten content t.bytes off) = some off := by
    have hmagic := take_four_table hoff
    rw [List.take_take, min_eq_left (by decide)] at hmagic
    exact custFindOffset_replaced hoff (by omega) (by rw [hlen]; decide) (t.magic.trans hmagic.symm)
  have hbytes : ((overwritten content t.bytes off).drop off).take kipTableBytes = t.bytes := by
    rw [overwritten, List.append_assoc, List.drop_append_of_le_length htake.ge, List.drop_of_length_le htake.le,
      List.nil_append, ← hlen, List.take_left]
  rw [tableIn_eq_some_iff]
  refine ⟨off, hfound, ?_, hbytes⟩
  rw [length_overwritten (by omega)]
  exact h

/-- the offset of the first occurrence of the magic -/
def FirstAt (content : List UInt8) (off : ℕ) : Prop := magicAt content off = true ∧ ∀ j < off, magicAt content j = false

/-! ## Bytes that do not reach the card -/

/-- the first `n` bytes of the table, and behind them what the file holds -/
def storedOver (content table : List UInt8) (off n : ℕ) : List UInt8 :=
  table.take n ++ ((content.drop off).take kipTableBytes).drop n

theorem length_storedOver (t : CustTable) {off : ℕ} (h : off + kipTableBytes ≤ content.length) (n : ℕ) :
    (storedOver content t.bytes off n).length = kipTableBytes := by
  rw [storedOver, List.length_append, List.length_take, List.length_drop, length_take_table h, t.length_bytes]
  omega

/-- the first bytes of a table over the file are that mixture over it -/
theorem overwritten_take (t : CustTable) {off : ℕ} (h : off + kipTableBytes ≤ content.length) (n : ℕ) :
    overwritten content (t.bytes.take n) off = overwritten content (storedOver content t.bytes off n) off := by
  have hrest : ((content.drop off).take kipTableBytes).drop n ++ (content.drop off).drop kipTableBytes =
      (content.drop off).drop (min n kipTableBytes) := by
    rcases Nat.le_total n kipTableBytes with hn | hn
    · rw [min_eq_left hn, ← List.drop_append_of_le_length (by rw [length_take_table h]; exact hn), List.take_append_drop]
    · rw [min_eq_right hn, List.drop_of_length_le (by rw [length_take_table h]; exact hn), List.nil_append]
  rw [overwritten, overwritten, length_storedOver t h, storedOver, List.length_take, t.length_bytes, ← List.drop_drop,
    ← List.drop_drop, ← hrest]
  simp only [List.append_assoc]

/-- whatever reaches the card, the table of the file begins with the magic -/
def mixedTable (t : CustTable) {off : ℕ} (hoff : custFindOffset content = some off)
    (h : off + kipTableBytes ≤ content.length) (n : ℕ) : CustTable where
  bytes := storedOver content t.bytes off n
  length_bytes := length_storedOver t h n
  magic := by
    have hfile := take_four_table hoff
    rcases Nat.lt_or_ge n 4 with hn | hn
    · have hfront : (t.bytes.take n).length = n := by
        apply List.length_take_of_le
        rw [t.length_bytes]
        exact hn.le.trans (by decide)
      have hsplit : (storedOver content t.bytes off n).take 4 =
          (t.bytes.take 4).take n ++ (((content.drop off).take kipTableBytes).take 4).drop n := by
        have hback : (((content.drop off).take kipTableBytes).take 4).drop n =
            (((content.drop off).take kipTableBytes).drop n).take (4 - n) := List.drop_take
        rw [storedOver, List.take_append, hfront, List.take_of_length_le (by omega), List.take_take,
          min_eq_left hn.le, hback]
      rw [hsplit, t.magic, hfile, List.take_append_drop]
    · rw [storedOver, List.take_append_of_le_length, List.take_take, min_eq_left hn, t.magic]
      rw [List.length_take, t.length_bytes]
      exact le_min hn (by decide)

/-- the file holds a table after every write that came so far: the stored bytes of the new one, the others of the old -/
theorem tableIn_written (t : CustTable) {off : ℕ} (hoff : custFindOffset content = some off)
    (h : off + kipTableBytes ≤ content.length) (n : ℕ) :
    tableIn (overwritten content (t.bytes.take n) off) = some (storedOver content t.bytes off n) := by
  rw [overwritten_take t h]
  exact tableIn_overwritten (mixedTable t hoff h n) hoff h

/-- the table that was written is in the file exactly when the bytes that were not stored are in it already -/
theorem storedOver_eq_iff (t : CustTable) (off n : ℕ) :
    storedOver content t.bytes off n = t.bytes ↔
      ((content.drop off).take kipTableBytes).drop n = t.bytes.drop n := by
  constructor
  · intro heq
    have happend : t.bytes.take n ++ ((content.drop off).take kipTableBytes).drop n =
        t.bytes.take n ++ t.bytes.drop n := by
      rw [List.take_append_drop]
      exact heq
    exact List.append_cancel_left happend
  · intro heq
    rw [storedOver, heq, List.take_append_drop]

/-! ## What the file should hold -/

/-- what a write that succeeds leaves behind -/
structure Written (t : CustTable) (off : ℕ) (content content' : List UInt8) : Prop where
  found : FirstAt content off
  fits : off + kipTableBytes ≤ content.length
  read : ∀ buf, readTable buf (some content') = some (some t.bytes, some content')
  length : content'.length = content.length
  outside : ∀ i, i < off ∨ off + kipTableBytes ≤ i → content'[i]? = content[i]?

/-- the search ends with the first occurrence exactly where there is one, reading leaves the file, and a write ends,
succeeds only with the whole table in the file, and fails without a change unless `fwrite` is short -/
structure CustTableHolds (io : StreamIo) (buf : List UInt8) (file : Option (List UInt8)) (t : CustTable) : Prop where
  location : ∀ content buf, ∃ r f, findOffset ⟨content, 0, []⟩ buf = some (r, f) ∧ f.content = content ∧
    (∀ off, r = some off ↔ FirstAt content off) ∧ (r = none ↔ ∀ i, magicAt content i = false)
  reading : ∀ buf file, ∃ table, readTable buf file = some (table, file)
  writing : ∃ ok after, writeTable io buf file t.bytes = some (ok, after) ∧
    (ok = true → ∃ content content' off, file = some content ∧ after = some content' ∧ Written t off content content') ∧
    (ok = false → after = file ∨ ∃ content off, file = some content ∧ io.opens = true ∧ FirstAt content off ∧
      off + kipTableBytes ≤ content.length ∧ io.taken < kipTableBytes)

/-- where the stream takes the whole table, the bytes of it that have not reached the card once the stream is closed are
in the file already -/
def StoredByClose (io : StreamIo) (file : Option (List UInt8)) (t : CustTable) : Prop :=
  ∀ content off, file = some content → io.opens = true → FirstAt content off → off + kipTableBytes ≤ content.length →
    kipTableBytes ≤ io.taken → ((content.drop off).take kipTableBytes).drop io.stored = t.bytes.drop io.stored

theorem firstAt_iff {off : ℕ} : FirstAt content off ↔ custFindOffset content = some off :=
  custFindOffset_eq_some_iff.symm

/-- the search ends with the first occurrence exactly where there is one -/
theorem findOffset_spec (content buf : List UInt8) :
    ∃ r f, findOffset ⟨content, 0, []⟩ buf = some (r, f) ∧ f.content = content ∧
      (∀ off, r = some off ↔ FirstAt content off) ∧ (r = none ↔ ∀ i, magicAt content i = false) := by
  obtain ⟨f, hfind, hcontent⟩ := findOffset_eq content buf 0
  have hiff : ∀ off, custFindOffset content = some off ↔ FirstAt content off := fun off => firstAt_iff.symm
  refine ⟨_, f, hfind, hcontent, hiff, ?_⟩
  constructor
  · intro hnone i
    induction i using Nat.strongRecOn with
    | ind i ih =>
      by_contra hmagic
      have hfirst : FirstAt content i := ⟨by simpa using hmagic, ih⟩
      have hsome := (hiff i).2 hfirst
      rw [hnone] at hsome
      cases hsome
  · intro hall
    cases hoff : custFindOffset content with
    | none => rfl
    | some off =>
      have hmagic := ((hiff off).1 hoff).1
      rw [hall off] at hmagic
      cases hmagic

theorem readTable_spec (buf : List UInt8) (file : Option (List UInt8)) :
    ∃ table, readTable buf file = some (table, file) := by
  cases file with
  | none => exact ⟨none, rfl⟩
  | some content => exact ⟨tableIn content, readTable_eq buf content⟩

/-- a write that comes to `fwrite`, in a file whose first table begins at `off` -/
theorem writeTable_reached {io : StreamIo} {off : ℕ} (buf : List UInt8) (t : CustTable) (hopens : io.opens = true)
    (hoff : custFindOffset content = some off) (h : off + kipTableBytes ≤ content.length) :
    writeTable io buf (some content) t.bytes = some (decide (kipTableBytes ≤ io.taken),
      some (overwritten content ((t.bytes.take io.taken).take io.stored) off)) := by
  have hcount : (t.bytes.take io.taken).length = kipTableBytes ↔ kipTableBytes ≤ io.taken := by
    rw [List.length_take, t.length_bytes]
    exact min_eq_right_iff
  rw [writeTable_eq, if_pos hopens, hoff]
  dsimp only
  rw [if_neg (not_lt.2 h), decide_eq_decide.2 hcount]

/-- a write that does not come to `fwrite` fails and leaves the file -/
theorem writeTable_refused {io : StreamIo} (buf : List UInt8) (t : CustTable)
    (h : ¬ ∃ off, io.opens = true ∧ custFindOffset content = some off ∧ off + kipTableBytes ≤ content.length) :
    writeTable io buf (some content) t.bytes = some (false, some content) := by
  rw [writeTable_eq]
  by_cases hopens : io.opens = true
  · rw [if_pos hopens]
    cases hoff : custFindOffset content with
    | none => rfl
    | some off =>
      dsimp only
      rw [if_pos (not_le.1 fun hfits => h ⟨off, hopens, hoff, hfits⟩)]
  · rw [if_neg hopens]

/-- a write whose stream takes the table is read back exactly when the rest of it is in the file -/
theorem written_iff (t : CustTable) {off : ℕ} (hoff : custFindOffset content = some off)
    (h : off + kipTableBytes ≤ content.length) (n : ℕ) :
    Written t off content (overwritten content (t.bytes.take n) off) ↔
      ((content.drop off).take kipTableBytes).drop n = t.bytes.drop n := by
  have hlen := length_storedOver t h n
  rw [← storedOver_eq_iff t]
  constructor
  · intro hw
    have hread := (readTable_eq [] _).symm.trans (hw.read [])
    rw [tableIn_written t hoff h] at hread
    simpa using hread
  · intro heq
    refine ⟨firstAt_iff.2 hoff, h, ?_, ?_, ?_⟩
    · intro buf
      rw [readTable_eq, tableIn_written t hoff h, heq]
    · rw [overwritten_take t h]
      exact length_overwritten (by rw [hlen]; exact h)
    · intro i hi
      rw [overwritten_take t h]
      apply getElem?_overwritten
      all_goals rw [hlen]
      · exact h
      · exact hi

theorem CustTableHolds.storedByClose {io : StreamIo} {buf : List UInt8} {file : Option (List UInt8)} {t : CustTable}
    (h : CustTableHolds io buf file t) : StoredByClose io file t := by
  intro content off hfile hopens hfirst hfits htaken
  have hoff := firstAt_iff.1 hfirst
  obtain ⟨ok, after, hwrite, hok, -⟩ := h.writing
  rw [hfile, writeTable_reached buf t hopens hoff hfits] at hwrite
  obtain ⟨rfl, rfl⟩ := Prod.mk.inj (Option.some.inj hwrite)
  obtain ⟨content₁, content', off', h₁, h', hw⟩ := hok (by simpa using htaken)
  obtain rfl := Option.some.inj (hfile.symm.trans h₁)
  obtain rfl := Option.some.inj h'
  obtain rfl : off = off' := Option.some.inj (hoff.symm.trans (firstAt_iff.1 hw.found))
  rw [List.take_of_length_le (t.length_bytes.trans_le htaken)] at hw
  exact (written_iff t hoff hfits _).1 hw

theorem StoredByClose.custTableHolds {io : StreamIo} {file : Option (List UInt8)} {t : CustTable}
    (h : StoredByClose io file t) (buf : List UInt8) : CustTableHolds io buf file t := by
  refine ⟨findOffset_spec, readTable_spec, ?_⟩
  rcases file with _ | content
  · exact ⟨false, none, rfl, by simp, fun _ => Or.inl rfl⟩
  by_cases hreach : ∃ off, io.opens = true ∧ custFindOffset content = some off ∧ off + kipTableBytes ≤ content.length
  · obtain ⟨off, hopens, hoff, hfits⟩ := hreach
    refine ⟨_, _, writeTable_reached buf t hopens hoff hfits, ?_, ?_⟩
    · intro hok
      have htaken : kipTableBytes ≤ io.taken := by simpa using hok
      refine ⟨content, _, off, rfl, rfl, ?_⟩
      rw [List.take_of_length_le (t.length_bytes.trans_le htaken)]
      exact (written_iff t hoff hfits _).2 (h content off rfl hopens (firstAt_iff.2 hoff) hfits htaken)
    · intro hok
      exact Or.inr ⟨content, off, rfl, hopens, firstAt_iff.2 hoff, hfits, by simpa using hok⟩
  · exact ⟨false, some content, writeTable_refused buf t hreach, by simp, fun _ => Or.inl rfl⟩

/-- **When the CUST table is right**: the search, reading and a failure before the write always are, and a write that
succeeds is read back exactly when the bytes that never reach the card are in the file already. -/
theorem cust_table_iff (io : StreamIo) (buf : List UInt8) (file : Option (List UInt8)) (t : CustTable) :
    CustTableHolds io buf file t ↔ StoredByClose io file t :=
  ⟨CustTableHolds.storedByClose, fun h => h.custTableHolds buf⟩

/-- a card that stores everything meets the condition -/
theorem storedByClose_of_stored {io : StreamIo} {file : Option (List UInt8)} {t : CustTable}
    (h : kipTableBytes ≤ io.stored) : StoredByClose io file t := by
  intro content off _ _ _ hfits _
  rw [List.drop_of_length_le (by rw [length_take_table hfits]; exact h),
    List.drop_of_length_le (t.length_bytes.trans_le h)]

/-! ## Witnesses -/

/-- a table that is its magic and one byte repeated -/
def plainTable (b : UInt8) : CustTable where
  bytes := custMagic ++ List.replicate (kipTableBytes - 4) b
  length_bytes := by
    rw [List.length_append, List.length_replicate]
    rfl
  magic := rfl

/-- the stream takes the whole table, and the card has no room for any of it -/
def fullCard : StreamIo := ⟨true, kipTableBytes, 0, 0, 0⟩

/-- **A full card is reported as written.** The table is in the stream's buffer when `fwrite` counts it; what `fflush` and
`fclose` answer is dropped, and the file holds the old table. -/
theorem full_card_reported_written : ¬ ∀ io buf file t, CustTableHolds io buf file t := by
  intro hclaim
  have hfits : 0 + kipTableBytes ≤ (plainTable 0).bytes.length := by rw [(plainTable 0).length_bytes, Nat.zero_add]
  have hrest := (hclaim fullCard [] (some (plainTable 0).bytes) (plainTable 1)).storedByClose _ 0 rfl rfl
    ⟨rfl, by simp⟩ hfits (le_refl _)
  exact absurd (congrArg (fun bytes => bytes[4]?) hrest) (by decide)

end RyazhaClk.KipFile
