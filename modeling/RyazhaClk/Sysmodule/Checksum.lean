/-
The checksum of the KIP (`crc32.cpp`): `crc32` over a buffer, `checksum_file` over the chunks that `fread` answers, and
what a comparison of two checksums tells `GetKipData`. The inner loop is a shift register of 32 bits, fed with the bits
of the content, the lowest bit of a byte first.

- `checksum_file_eq_crc32`: the chunked checksum is the one of the whole content.
- `crcFold_eq_feed`: the loops are the shift register's.
- `kip_checksum`: contents that differ within 32 consecutive bits only have different checksums, so `GetKipData` takes
  such a content for a new KIP.
-/
import Mathlib.Tactic
import RyazhaClk.Lib.ShiftRegister
import RyazhaClk.Sysmodule.Kip

namespace RyazhaClk

open RyazhaClk.ShiftRegister

/-! ## The two functions -/

/-- the outer loop over a buffer -/
def crcFold (crc : UInt32) (data : List UInt8) : UInt32 := data.foldl crcByte crc

/-- `crc32(data, length)` -/
def crc32 (data : List UInt8) : UInt32 := ~~~ crcFold 0xFFFFFFFF data

/-- the loop of `checksum_file`: `fread` answers 1024 bytes, or what is left; `none` when the fuel runs out first -/
def checksumLoop : ℕ → List UInt8 → UInt32 → Option UInt32
  | 0, _, _ => none
  | fuel + 1, file, crc =>
    let buffer := file.take 1024
    if 0 < buffer.length then checksumLoop fuel (file.drop 1024) (crcFold crc buffer) else some crc

/-- `checksum_file`; 0 where the file cannot be opened -/
def checksum_file (file : Option (List UInt8)) : Option UInt32 :=
  match file with
  | none => some 0
  | some content => (checksumLoop (content.length + 1) content 0xFFFFFFFF).map (~~~ ·)

/-! ## Chunks -/

theorem crcFold_append (crc : UInt32) (a b : List UInt8) : crcFold crc (a ++ b) = crcFold (crcFold crc a) b :=
  List.foldl_append

/-- every chunk that is not empty moves on, and the state goes through all of them -/
theorem checksumLoop_eq (fuel : ℕ) (file : List UInt8) (crc : UInt32) (hfuel : file.length < fuel) :
    checksumLoop fuel file crc = some (crcFold crc file) := by
  induction fuel generalizing file crc with
  | zero => exact absurd hfuel (Nat.not_lt_zero _)
  | succ fuel ih =>
    rw [checksumLoop]
    by_cases hempty : file = []
    · simp [hempty, crcFold]
    · have hpos : 0 < file.length := List.length_pos_iff.2 hempty
      have hread : 0 < (file.take 1024).length := by
        rw [List.length_take]
        omega
      have hrest : (file.drop 1024).length < fuel := by
        rw [List.length_drop]
        omega
      calc (if 0 < (file.take 1024).length then checksumLoop fuel (file.drop 1024) (crcFold crc (file.take 1024))
            else some crc)
          = checksumLoop fuel (file.drop 1024) (crcFold crc (file.take 1024)) := if_pos hread
        _ = some (crcFold (crcFold crc (file.take 1024)) (file.drop 1024)) := ih _ _ hrest
        _ = some (crcFold crc file) := by rw [← crcFold_append, List.take_append_drop]

theorem checksum_file_eq_crc32 (content : List UInt8) : checksum_file (some content) = some (crc32 content) := by
  rw [checksum_file, checksumLoop_eq _ _ _ (Nat.lt_succ_self _)]
  rfl

theorem checksumFile_eq_crc32 (content : List UInt8) : checksumFile content = (crc32 content).toNat := rfl

/-! ## The shift register -/

/-- the polynomial, lowest power in the top bit -/
def crcPoly : BitVec 32 := 0xEDB88320

/-- the bits of a byte, lowest first -/
def byteBits (b : UInt8) : List Bool := (List.range 8).map b.toBitVec.getLsbD

def contentBits (content : List UInt8) : List Bool := content.flatMap byteBits

/-- one turn of the inner loop is one step -/
theorem crcStep_eq (crc : UInt32) :
    ((crc >>> 1) ^^^ (0xEDB88320 &&& -(crc &&& 1))).toBitVec = step crcPoly crc.toBitVec := by
  have hmask : (-(crc &&& 1)).toBitVec = if crc.toBitVec.getLsbD 0 then BitVec.allOnes 32 else 0 := by
    have hlow : (crc &&& 1).toBitVec = BitVec.setWidth 32 (BitVec.ofBool (crc.toBitVec.getLsbD 0)) :=
      BitVec.and_one_eq_setWidth_ofBool_getLsbD
    rw [UInt32.toBitVec_neg, hlow]
    cases crc.toBitVec.getLsbD 0 <;> rfl
  rw [step, UInt32.toBitVec_xor, UInt32.toBitVec_and, hmask]
  cases crc.toBitVec.getLsbD 0
  · simp
  · simp [crcPoly]

theorem crcTurns_eq (n : ℕ) (crc : UInt32) :
    ((List.range n).foldl (fun (crc : UInt32) _ => (crc >>> 1) ^^^ (0xEDB88320 &&& -(crc &&& 1))) crc).toBitVec =
      (step crcPoly)^[n] crc.toBitVec := by
  induction n with
  | zero => rfl
  | succ n ih => rw [List.range_succ, List.foldl_append, Function.iterate_succ_apply', ← ih, ← crcStep_eq]; rfl

theorem ofBits_byteBits (b : UInt8) : (ofBits (byteBits b) : BitVec 32) = b.toUInt32.toBitVec := by
  apply BitVec.eq_of_getLsbD_eq
  intro i hi
  rw [getLsbD_ofBits, UInt8.toBitVec_toUInt32, BitVec.getLsbD_setWidth, byteBits, List.getD_eq_getElem?_getD]
  by_cases hbit : i < 8
  · simp [hbit]
  · simp [hbit, BitVec.getLsbD_of_ge b.toBitVec i (by omega)]

/-- **Eight turns of the inner loop feed the eight bits of a byte.** -/
theorem crcByte_eq_feed (crc : UInt32) (b : UInt8) :
    (crcByte crc b).toBitVec = feed crcPoly crc.toBitVec (byteBits b) := by
  have hlen : (byteBits b).length = 8 := by simp [byteBits]
  rw [crcByte, crcTurns_eq, feed_eq_iterate _ (by omega), hlen, ofBits_byteBits, UInt32.toBitVec_xor]

theorem crcFold_eq_feed (crc : UInt32) (content : List UInt8) :
    (crcFold crc content).toBitVec = feed crcPoly crc.toBitVec (contentBits content) := by
  induction content generalizing crc with
  | nil => rfl
  | cons b content ih =>
    calc (crcFold crc (b :: content)).toBitVec = (crcFold (crcByte crc b) content).toBitVec := rfl
      _ = feed crcPoly (feed crcPoly crc.toBitVec (byteBits b)) (contentBits content) := by rw [ih, crcByte_eq_feed]
      _ = feed crcPoly crc.toBitVec (contentBits (b :: content)) := by rw [← feed_append]; rfl

/-! ## Detection -/

/-- bit `k` of a content: bit `k % 8`, counted from the lowest, of byte `k / 8` -/
def bitAt (content : List UInt8) (k : ℕ) : Option Bool := content[k / 8]?.map fun b => b.toBitVec.getLsbD (k % 8)

theorem getElem?_contentBits (content : List UInt8) (k : ℕ) : (contentBits content)[k]? = bitAt content k := by
  induction content generalizing k with
  | nil => simp [contentBits, bitAt]
  | cons b content ih =>
    have hlen : (byteBits b).length = 8 := by simp [byteBits]
    have hcons : contentBits (b :: content) = byteBits b ++ contentBits content := rfl
    rw [hcons]
    rcases Nat.lt_or_ge k 8 with hk | hk
    · rw [List.getElem?_append_left (by omega), bitAt, Nat.div_eq_of_lt hk, Nat.mod_eq_of_lt hk]
      simp [byteBits, hk]
    · obtain ⟨j, rfl⟩ := Nat.exists_eq_add_of_le' hk
      rw [List.getElem?_append_right (by omega), hlen, Nat.add_sub_cancel, ih, bitAt, bitAt,
        Nat.add_div_right _ (by decide), Nat.add_mod_right, List.getElem?_cons_succ]

theorem length_contentBits (content : List UInt8) : (contentBits content).length = 8 * content.length := by
  induction content with
  | nil => rfl
  | cons b content ih =>
    have hcons : contentBits (b :: content) = byteBits b ++ contentBits content := rfl
    rw [hcons, List.length_append, ih, List.length_cons, byteBits]
    simp
    omega

/-- bits tell contents apart -/
theorem contentBits_injective : Function.Injective contentBits := by
  intro content content' h
  apply List.ext_getElem?
  intro i
  have hbits : ∀ j < 8, content[i]?.map (fun b => b.toBitVec.getLsbD j) =
      content'[i]?.map fun b => b.toBitVec.getLsbD j := by
    intro j hj
    have hbit : bitAt content (8 * i + j) = bitAt content' (8 * i + j) := by
      rw [← getElem?_contentBits, ← getElem?_contentBits, h]
    have hdiv : (8 * i + j) / 8 = i := by omega
    have hmod : (8 * i + j) % 8 = j := by omega
    simpa only [bitAt, hdiv, hmod] using hbit
  cases hb : content[i]? with
  | none =>
    have h0 := hbits 0 (by decide)
    rw [hb, Option.map_none] at h0
    exact (Option.map_eq_none_iff.1 h0.symm).symm
  | some b =>
    obtain ⟨b', hb'⟩ : ∃ b', content'[i]? = some b' := by
      have h0 := hbits 0 (by decide)
      rw [hb, Option.map_some] at h0
      obtain ⟨b', hb', _⟩ := Option.map_eq_some_iff.1 h0.symm
      exact ⟨b', hb'⟩
    rw [hb', Option.some.injEq]
    apply UInt8.eq_of_toBitVec_eq
    apply BitVec.eq_of_getLsbD_eq
    intro j hj
    have hbit := hbits j hj
    rw [hb, hb', Option.map_some, Option.map_some] at hbit
    exact Option.some.inj hbit

/-- the two contents agree outside the 32 bits from bit `k` on -/
def AgreeOutside (k : ℕ) (old new : List UInt8) : Prop := ∀ i, i < k ∨ k + 32 ≤ i → bitAt old i = bitAt new i

/-- **Every change within 32 consecutive bits changes the checksum.** -/
theorem crc32_ne {old new : List UInt8} (hlen : old.length = new.length) (hne : old ≠ new) {k : ℕ}
    (hout : AgreeOutside k old new) : crc32 old ≠ crc32 new := by
  intro h
  have hfold : crcFold 0xFFFFFFFF old = crcFold 0xFFFFFFFF new := UInt32.not_inj.1 h
  have hstate : feed crcPoly (0xFFFFFFFF : UInt32).toBitVec (contentBits old) =
      feed crcPoly (0xFFFFFFFF : UInt32).toBitVec (contentBits new) := by
    rw [← crcFold_eq_feed, ← crcFold_eq_feed, hfold]
  apply hne
  apply contentBits_injective
  apply feed_window (by decide) _ (by rw [length_contentBits, length_contentBits, hlen]) k _ hstate
  intro i hi
  rw [getElem?_contentBits, getElem?_contentBits]
  exact hout i hi

/-- contents that agree outside four consecutive bytes agree outside the window of their bits -/
theorem agreeOutside_of_bytes {old new : List UInt8} {off : ℕ} (h : ∀ i, i < off ∨ off + 4 ≤ i → old[i]? = new[i]?) :
    AgreeOutside (8 * off) old new := by
  intro i hi
  rw [bitAt, bitAt, h (i / 8) (by omega)]

/-- with the checksum of the old content stored, the test of `GetKipData` fires unless this is a first load -/
theorem foreign_of_changed {values : HocClkConfigValue → ℕ} {old new : List UInt8}
    (hstored : values .kipCrc32 = checksumFile old) (hne : crc32 old ≠ crc32 new) :
    checksumFile new ≠ values .kipCrc32 ∧ (KipState.Foreign values new ↔ values .isFirstLoad = 0) := by
  have hchecksum : checksumFile new ≠ values .kipCrc32 := by
    rw [hstored, checksumFile_eq_crc32, checksumFile_eq_crc32]
    exact fun h => hne (UInt32.toNat_inj.1 h.symm)
  exact ⟨hchecksum, and_iff_right hchecksum⟩

/-- **The checksum of the KIP.** It is that of the whole content; contents of one length that differ within 32
consecutive bits only have different ones; so a change of the table within such a window, or within four bytes at any
offset, is noticed by `GetKipData`. -/
theorem kip_checksum :
    (∀ content, checksum_file (some content) = some (crc32 content)) ∧
    (∀ old new k, old.length = new.length → old ≠ new → AgreeOutside k old new →
      checksum_file (some old) ≠ checksum_file (some new)) ∧
    (∀ (values : HocClkConfigValue → ℕ) old new k, old.length = new.length → old ≠ new → AgreeOutside k old new →
      values .kipCrc32 = checksumFile old →
      checksumFile new ≠ values .kipCrc32 ∧ (KipState.Foreign values new ↔ values .isFirstLoad = 0)) ∧
    ∀ (values : HocClkConfigValue → ℕ) (old new : List UInt8) off, old.length = new.length → old ≠ new →
      (∀ i, i < off ∨ off + 4 ≤ i → old[i]? = new[i]?) → values .kipCrc32 = checksumFile old →
      checksumFile new ≠ values .kipCrc32 ∧ (KipState.Foreign values new ↔ values .isFirstLoad = 0) := by
  refine ⟨checksum_file_eq_crc32, ?_, ?_, ?_⟩
  · intro old new k hlen hne hout
    rw [checksum_file_eq_crc32, checksum_file_eq_crc32]
    exact fun h => crc32_ne hlen hne hout (Option.some.inj h)
  · intro values old new k hlen hne hout hstored
    exact foreign_of_changed hstored (crc32_ne hlen hne hout)
  · intro values old new off hlen hne hbytes hstored
    exact foreign_of_changed hstored (crc32_ne hlen hne (agreeOutside_of_bytes hbytes))

/-- the check value of CRC-32: the digits from 1 to 9 -/
example : crc32 [0x31, 0x32, 0x33, 0x34, 0x35, 0x36, 0x37, 0x38, 0x39] = 0xCBF43926 := by decide +kernel

end RyazhaClk
