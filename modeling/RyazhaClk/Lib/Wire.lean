/-
Values of a fixed number of bytes: machine words, pairs, arrays over a list of keys, and padding. A receiver takes a value
from the front of the bytes it was given, or finds too few; a writer replaces the front of a buffer, or finds it too short.

- `Codec.read_encode`: a value is read back, whatever stands behind it.
- `Codec.read_congr`: what is read depends on the front of the bytes only.
- `overwrite_eq_some_iff`: a write that fits keeps the length of the buffer and what stands behind the value.
-/
import Mathlib.Tactic
import RyazhaClk.Lib.WordBytes

namespace RyazhaClk.Wire

open WordBytes

/-- values of one size -/
structure Codec (α : Type*) where
  size : ℕ
  encode : α → List UInt8
  decode : List UInt8 → α
  length_encode : ∀ a, (encode a).length = size
  decode_encode : ∀ a rest, decode (encode a ++ rest) = a
  /-- only the front of the bytes is decoded -/
  decode_take : ∀ bs, decode (bs.take size) = decode bs

/-- `bs` in place of the front of a buffer -/
def overwrite (buf bs : List UInt8) : Option (List UInt8) :=
  if bs.length ≤ buf.length then some (bs ++ buf.drop bs.length) else none

theorem overwrite_of_le {buf bs : List UInt8} (h : bs.length ≤ buf.length) :
    overwrite buf bs = some (bs ++ buf.drop bs.length) := if_pos h

theorem length_overwritten {buf bs : List UInt8} (h : bs.length ≤ buf.length) :
    (bs ++ buf.drop bs.length).length = buf.length := by
  rw [List.length_append, List.length_drop]
  omega

namespace Codec

variable {α β κ : Type*}

/-- the value at the front, if there are enough bytes for one -/
def read (c : Codec α) (bs : List UInt8) : Option α := if c.size ≤ bs.length then some (c.decode bs) else none

theorem read_of_le {c : Codec α} {bs : List UInt8} (h : c.size ≤ bs.length) : c.read bs = some (c.decode bs) := if_pos h

/-- **a value is read back**, whatever stands behind it -/
theorem read_encode (c : Codec α) (a : α) (rest : List UInt8) : c.read (c.encode a ++ rest) = some a := by
  rw [read_of_le (by rw [List.length_append, c.length_encode]; omega), c.decode_encode]

theorem read_encode_self (c : Codec α) (a : α) : c.read (c.encode a) = some a := by
  have h := c.read_encode a []
  rwa [List.append_nil] at h

theorem decode_take_of_le (c : Codec α) {n : ℕ} (h : c.size ≤ n) (bs : List UInt8) : c.decode (bs.take n) = c.decode bs := by
  rw [← c.decode_take, List.take_take, min_eq_left h, c.decode_take]

/-- **what stands behind a value** is not looked at -/
theorem read_congr {c : Codec α} {bs bs' : List UInt8} (hlen : bs.length = bs'.length)
    (h : bs.take c.size = bs'.take c.size) : c.read bs = c.read bs' := by
  unfold read
  rw [hlen, ← c.decode_take bs, h, c.decode_take]

/-! ## Composition -/

def map (c : Codec α) (f : α → β) (g : β → α) (hfg : ∀ b, f (g b) = b) : Codec β where
  size := c.size
  encode b := c.encode (g b)
  decode bs := f (c.decode bs)
  length_encode b := c.length_encode (g b)
  decode_encode b rest := by rw [c.decode_encode, hfg]
  decode_take bs := by rw [c.decode_take]

def pair (c : Codec α) (d : Codec β) : Codec (α × β) where
  size := c.size + d.size
  encode ab := c.encode ab.1 ++ d.encode ab.2
  decode bs := (c.decode bs, d.decode (bs.drop c.size))
  length_encode ab := by rw [List.length_append, c.length_encode, d.length_encode]
  decode_encode ab rest := by
    have hdrop : (c.encode ab.1 ++ (d.encode ab.2 ++ rest)).drop c.size = d.encode ab.2 ++ rest := by
      rw [← c.length_encode ab.1, List.drop_left]
    rw [List.append_assoc, c.decode_encode, hdrop, d.decode_encode]
  decode_take bs := by
    rw [c.decode_take_of_le (Nat.le_add_right _ _), List.drop_take, Nat.add_sub_cancel_left, d.decode_take]

/-- bytes behind the value that no reader looks at -/
def padded (c : Codec α) (padding : List UInt8) : Codec α where
  size := c.size + padding.length
  encode a := c.encode a ++ padding
  decode := c.decode
  length_encode a := by rw [List.length_append, c.length_encode]
  decode_encode a rest := by rw [List.append_assoc, c.decode_encode]
  decode_take := c.decode_take_of_le (Nat.le_add_right _ _)

/-- the padding does not matter to a reader -/
theorem read_padded {c : Codec α} {p q : List UInt8} (h : p.length = q.length) (a : α) (rest : List UInt8) :
    (c.padded p).read ((c.padded q).encode a ++ rest) = some a := by
  have hsize : (c.padded p).size = (c.padded q).size := congrArg (c.size + ·) h
  rw [← (c.padded q).read_encode a rest, read, read, hsize]
  rfl

section Array

variable (c : Codec α)

theorem length_slots (f : κ → α) (keys : List κ) :
    (keys.flatMap fun k => c.encode (f k)).length = c.size * keys.length := by
  induction keys with
  | nil => rfl
  | cons k keys ih =>
    rw [List.flatMap_cons, List.length_append, c.length_encode, ih, List.length_cons, Nat.mul_succ, Nat.add_comm]

theorem length_flatMap (as : List α) : (as.flatMap c.encode).length = c.size * as.length := c.length_slots id as

theorem drop_flatMap (as : List α) (n : ℕ) : (as.flatMap c.encode).drop (c.size * n) = (as.drop n).flatMap c.encode := by
  induction n generalizing as with
  | zero => rfl
  | succ n ih =>
    cases as with
    | nil => simp
    | cons a as =>
      rw [List.flatMap_cons, Nat.mul_succ, Nat.add_comm, ← List.drop_drop, ← c.length_encode a, List.drop_left,
        c.length_encode, ih, List.drop_succ_cons]

variable [DecidableEq κ]

theorem decode_slot (f : κ → α) {keys : List κ} {k : κ} (h : k ∈ keys) (rest : List UInt8) :
    c.decode (((keys.flatMap fun k => c.encode (f k)) ++ rest).drop (c.size * keys.idxOf k)) = f k := by
  induction keys with
  | nil => cases h
  | cons k' keys ih =>
    rw [List.flatMap_cons, List.append_assoc]
    by_cases hk : k' = k
    · subst hk
      rw [List.idxOf_cons_self, Nat.mul_zero, List.drop_zero, c.decode_encode]
    · have hmem : k ∈ keys := (List.mem_cons.1 h).resolve_left (Ne.symm hk)
      rw [List.idxOf_cons_ne _ hk, Nat.mul_succ, Nat.add_comm, ← List.drop_drop,
        ← c.length_encode (f k'), List.drop_left, c.length_encode]
      exact ih hmem

/-- a value for each key, in the order of the list -/
def array (keys : List κ) (hkeys : ∀ k, k ∈ keys) : Codec (κ → α) where
  size := c.size * keys.length
  encode f := keys.flatMap fun k => c.encode (f k)
  decode bs k := c.decode (bs.drop (c.size * keys.idxOf k))
  length_encode f := c.length_slots f keys
  decode_encode f rest := by
    funext k
    exact c.decode_slot f (hkeys k) rest
  decode_take bs := by
    funext k
    have hk : keys.idxOf k + 1 ≤ keys.length := List.idxOf_lt_length_iff.2 (hkeys k)
    have hroom := Nat.mul_le_mul_left c.size hk
    rw [Nat.mul_succ] at hroom
    rw [List.drop_take, c.decode_take_of_le (by omega)]

/-- a list in place of the front of an array -/
theorem array_overwrite {n : ℕ} (f : Fin n → α) (as : List α) (h : as.length ≤ n) :
    as.flatMap c.encode ++ ((c.array (List.finRange n) List.mem_finRange).encode f).drop (as.flatMap c.encode).length =
      (c.array (List.finRange n) List.mem_finRange).encode fun i => if hi : i < as.length then as[i] else f i := by
  have hlist : ∀ g : Fin n → α, (c.array (List.finRange n) List.mem_finRange).encode g =
      ((List.finRange n).map g).flatMap c.encode := by
    intro g
    rw [List.flatMap_map]
    rfl
  rw [hlist, hlist, c.length_flatMap, c.drop_flatMap, ← List.flatMap_append]
  congr 1
  apply List.ext_getElem
  · simp
    omega
  · intro i hi _
    by_cases hia : i < as.length
    · rw [List.getElem_append_left hia]
      simp [hia]
    · have hplace : as.length + (i - as.length) = i := by omega
      rw [List.getElem_append_right (by omega)]
      simp [hia, hplace]

end Array

/-! ## Words -/

def u8 : Codec UInt8 where
  size := 1
  encode a := [a]
  decode bs := bs.headD 0
  length_encode _ := rfl
  decode_encode _ _ := rfl
  decode_take bs := by cases bs <;> rfl

def u32 : Codec UInt32 where
  size := 4
  encode a := bytesOf a.toNat
  decode
    | a :: b :: c :: d :: _ => UInt32.ofNat (wordOf a b c d)
    | _ => 0
  length_encode _ := rfl
  decode_encode a rest := by
    show UInt32.ofNat (wordOf _ _ _ _) = a
    rw [wordOf_bytesOf a.toNat_lt, UInt32.ofNat_toNat]
  decode_take bs := by rcases bs with _ | ⟨_, _ | ⟨_, _ | ⟨_, _ | ⟨_, _⟩⟩⟩⟩ <;> rfl

/-- the low word first -/
def u64 : Codec UInt64 :=
  (u32.pair u32).map (fun w => UInt64.ofNat (w.1.toNat + w.2.toNat * 2 ^ 32))
    (fun a => (UInt32.ofNat a.toNat, UInt32.ofNat (a.toNat / 2 ^ 32))) (by
      intro a
      have ha := a.toNat_lt
      have hword : (UInt32.ofNat a.toNat).toNat + (UInt32.ofNat (a.toNat / 2 ^ 32)).toNat * 2 ^ 32 = a.toNat := by
        simp only [UInt32.toNat_ofNat']
        omega
      dsimp only
      rw [hword, UInt64.ofNat_toNat])

end Codec

end RyazhaClk.Wire
