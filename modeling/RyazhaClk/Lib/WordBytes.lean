/-
Words of 32 bits and the bytes they are stored in, lowest byte first.

- `toWords_ofWords`, `ofWords_toWords`: the two directions undo each other on words below 2^32 and on whole words.
- `readWords_writeWords`, `writeBytes_of_outside`: words written to a memory are read back, and nothing else changes.
-/
import Mathlib.Tactic

namespace RyazhaClk.WordBytes

/-- the four bytes of a word -/
def bytesOf (w : ℕ) : List UInt8 :=
  [UInt8.ofNat w, UInt8.ofNat (w / 2 ^ 8), UInt8.ofNat (w / 2 ^ 16), UInt8.ofNat (w / 2 ^ 24)]

def wordOf (a b c d : UInt8) : ℕ := a.toNat + b.toNat * 2 ^ 8 + c.toNat * 2 ^ 16 + d.toNat * 2 ^ 24

/-- the bytes of a list of words -/
def ofWords (ws : List ℕ) : List UInt8 := ws.flatMap bytesOf

/-- the whole words of a list of bytes -/
def toWords : List UInt8 → List ℕ
  | a :: b :: c :: d :: bs => wordOf a b c d :: toWords bs
  | _ => []

theorem wordOf_bytesOf {w : ℕ} (h : w < 2 ^ 32) :
    wordOf (UInt8.ofNat w) (UInt8.ofNat (w / 2 ^ 8)) (UInt8.ofNat (w / 2 ^ 16)) (UInt8.ofNat (w / 2 ^ 24)) = w := by
  simp only [wordOf, UInt8.toNat_ofNat']
  omega

theorem bytesOf_wordOf (a b c d : UInt8) : bytesOf (wordOf a b c d) = [a, b, c, d] := by
  have ha := a.toNat_lt
  have hb := b.toNat_lt
  have hc := c.toNat_lt
  have hd := d.toNat_lt
  simp only [bytesOf, wordOf, List.cons.injEq, and_true]
  refine ⟨?_, ?_, ?_, ?_⟩ <;>
  · apply UInt8.toNat_inj.1
    simp only [UInt8.toNat_ofNat']
    omega

theorem wordOf_lt (a b c d : UInt8) : wordOf a b c d < 2 ^ 32 := by
  have ha := a.toNat_lt
  have hb := b.toNat_lt
  have hc := c.toNat_lt
  have hd := d.toNat_lt
  unfold wordOf
  omega

theorem toWords_lt {bs : List UInt8} {w : ℕ} (h : w ∈ toWords bs) : w < 2 ^ 32 := by
  induction bs using toWords.induct with
  | case1 a b c d bs ih =>
    rcases List.mem_cons.1 h with rfl | h
    · exact wordOf_lt a b c d
    · exact ih h
  | case2 bs hbs =>
    rw [toWords] at h
    · cases h
    · exact hbs

theorem length_ofWords (ws : List ℕ) : (ofWords ws).length = 4 * ws.length := by
  induction ws with
  | nil => rfl
  | cons w ws ih =>
    have hcons : ofWords (w :: ws) = bytesOf w ++ ofWords ws := rfl
    rw [hcons, List.length_append, ih, List.length_cons]
    simp only [bytesOf, List.length_cons, List.length_nil]
    omega

theorem length_toWords {n : ℕ} {bs : List UInt8} (h : bs.length = 4 * n) : (toWords bs).length = n := by
  induction n generalizing bs with
  | zero =>
    obtain rfl := List.length_eq_zero_iff.1 h
    rfl
  | succ n ih =>
    match bs, h with
    | a :: b :: c :: d :: bs, h =>
      have hlen : bs.length = 4 * n := by
        simp only [List.length_cons] at h
        omega
      rw [toWords, List.length_cons, ih hlen]

/-- **Words survive storage.** -/
theorem toWords_ofWords {ws : List ℕ} (h : ∀ w ∈ ws, w < 2 ^ 32) : toWords (ofWords ws) = ws := by
  induction ws with
  | nil => rfl
  | cons w ws ih =>
    have hcons : toWords (ofWords (w :: ws)) = wordOf (UInt8.ofNat w) (UInt8.ofNat (w / 2 ^ 8)) (UInt8.ofNat (w / 2 ^ 16))
        (UInt8.ofNat (w / 2 ^ 24)) :: toWords (ofWords ws) := rfl
    have hrest : ∀ x ∈ ws, x < 2 ^ 32 := by
      intro x hx
      exact h x (List.mem_cons_of_mem w hx)
    rw [hcons, wordOf_bytesOf (h w (by simp)), ih hrest]

/-- **Whole words of bytes survive the other way round.** -/
theorem ofWords_toWords {n : ℕ} {bs : List UInt8} (h : bs.length = 4 * n) : ofWords (toWords bs) = bs := by
  induction n generalizing bs with
  | zero =>
    obtain rfl := List.length_eq_zero_iff.1 h
    rfl
  | succ n ih =>
    match bs, h with
    | a :: b :: c :: d :: bs, h =>
      have hlen : bs.length = 4 * n := by
        simp only [List.length_cons] at h
        omega
      have hcons : ofWords (toWords (a :: b :: c :: d :: bs)) = bytesOf (wordOf a b c d) ++ ofWords (toWords bs) := rfl
      rw [hcons, bytesOf_wordOf, ih hlen]
      rfl

/-! ## A memory of bytes -/

/-- a byte at each address -/
abbrev ByteMemory := ℕ → UInt8

def readBytes (m : ByteMemory) (address n : ℕ) : List UInt8 := (List.range n).map fun i => m (address + i)

def writeBytes (m : ByteMemory) (address : ℕ) (bs : List UInt8) : ByteMemory := fun a =>
  if address ≤ a ∧ a < address + bs.length then bs.getD (a - address) 0 else m a

def readWords (m : ByteMemory) (address n : ℕ) : List ℕ := toWords (readBytes m address (4 * n))

def writeWords (m : ByteMemory) (address : ℕ) (ws : List ℕ) : ByteMemory := writeBytes m address (ofWords ws)

variable {m : ByteMemory} {address : ℕ}

@[simp] theorem length_readBytes (n : ℕ) : (readBytes m address n).length = n := by simp [readBytes]

theorem getElem?_readBytes {n i : ℕ} (h : i < n) : (readBytes m address n)[i]? = some (m (address + i)) := by
  rw [readBytes, List.getElem?_map, List.getElem?_range h, Option.map_some]

/-- a part of what was read is what is read there -/
theorem readBytes_drop_take (n i k : ℕ) (h : i + k ≤ n) :
    ((readBytes m address n).drop i).take k = readBytes m (address + i) k := by
  apply List.ext_getElem?
  intro j
  rw [List.getElem?_take, List.getElem?_drop]
  by_cases hj : j < k
  · rw [if_pos hj, getElem?_readBytes (by omega), getElem?_readBytes hj, Nat.add_assoc]
  · rw [if_neg hj, List.getElem?_eq_none (by rw [length_readBytes]; omega)]

theorem readBytes_writeBytes (bs : List UInt8) : readBytes (writeBytes m address bs) address bs.length = bs := by
  apply List.ext_getElem?
  intro i
  by_cases hi : i < bs.length
  · rw [getElem?_readBytes hi, writeBytes, if_pos ⟨Nat.le_add_right _ _, Nat.add_lt_add_left hi address⟩,
      Nat.add_sub_cancel_left, List.getD_eq_getElem?_getD, List.getElem?_eq_getElem hi]
    rfl
  · rw [List.getElem?_eq_none (by rw [length_readBytes]; omega), List.getElem?_eq_none (by omega)]

theorem writeBytes_of_outside {bs : List UInt8} {a : ℕ} (h : a < address ∨ address + bs.length ≤ a) :
    writeBytes m address bs a = m a := by
  rw [writeBytes, if_neg (by omega)]

/-- **words written to a memory are read back** -/
theorem readWords_writeWords {ws : List ℕ} (h : ∀ w ∈ ws, w < 2 ^ 32) :
    readWords (writeWords m address ws) address ws.length = ws := by
  rw [readWords, writeWords, ← length_ofWords, readBytes_writeBytes, toWords_ofWords h]

theorem length_readWords (n : ℕ) : (readWords m address n).length = n :=
  length_toWords (length_readBytes _)

end RyazhaClk.WordBytes
