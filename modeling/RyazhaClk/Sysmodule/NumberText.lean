/-
Numbers as the configuration file spells them, and what `strtoul` reads back.

- `strtoul_repr`: the decimal text of a 64-bit number, read in base 10 or with the base left open.
- `strtoul_formatTid`: the section name of a title, read in base 16; `strtoul_sameCase`: in whatever case.
-/
import Mathlib.Tactic
import RyazhaClk.Sysmodule.Config

namespace RyazhaClk

/-! ## Reading digits -/

theorem readDigits_append {b : ℕ} {l : List Char} (hl : ∀ c ∈ l, ∃ d < b, digitVal c = some d) (acc : ℕ)
    (m : List Char) : readDigits b acc (l ++ m) = readDigits b (readDigits b acc l) m := by
  induction l generalizing acc with
  | nil => rfl
  | cons c l ih =>
    obtain ⟨d, hd, hc⟩ := hl c (by simp)
    have hl' : ∀ x ∈ l, ∃ d < b, digitVal x = some d := by
      intro x hx
      exact hl x (by simp [hx])
    simp only [List.cons_append, readDigits, hc, if_pos hd]
    exact ih hl' _

theorem readDigits_zeros (b : ℕ) (hb : 0 < b) (k : ℕ) (m : List Char) :
    readDigits b 0 (List.replicate k '0' ++ m) = readDigits b 0 m := by
  induction k with
  | zero => rfl
  | succ k ih =>
    have h0 : digitVal '0' = some 0 := rfl
    rw [List.replicate_succ, List.cons_append, readDigits, h0]
    simp only [if_pos hb, Nat.zero_mul, Nat.add_zero]
    exact ih

/-- digits in base `b`, spelled by `f`, read back as the number -/
theorem readDigits_toDigits {b : ℕ} (hb : 1 < b) (f : Char → Char)
    (hf : ∀ d < b, digitVal (f d.digitChar) = some d) (n : ℕ) :
    readDigits b 0 ((Nat.toDigits b n).map f) = n ∧
      ∀ c ∈ (Nat.toDigits b n).map f, ∃ d < b, digitVal c = some d := by
  induction n using Nat.base_induction b hb with
  | single d hd =>
    rw [Nat.toDigits_of_lt_base hd]
    constructor
    · simp [readDigits, hf d hd, hd]
    · intro c hc
      obtain rfl := List.mem_singleton.1 hc
      exact ⟨d, hd, hf d hd⟩
  | digit n d hd hn ih =>
    obtain ⟨hread, hdigits⟩ := ih
    rw [← Nat.toDigits_append_toDigits hb hn hd, Nat.toDigits_of_lt_base hd, List.map_append]
    constructor
    · rw [readDigits_append hdigits, hread]
      simp [readDigits, hf d hd, hd, Nat.mul_comm]
    · intro c hc
      rcases List.mem_append.1 hc with hc | hc
      · exact hdigits c hc
      · obtain rfl := List.mem_singleton.1 hc
        exact ⟨d, hd, hf d hd⟩

/-! ## strtoul on digits -/

theorem zero_le_of_digitVal {c : Char} (hc : (digitVal c).isSome) : '0' ≤ c := by
  unfold digitVal at hc
  split_ifs at hc with h0 ha hA
  · exact h0.1
  · exact Char.le_trans (by decide) ha.1
  · exact Char.le_trans (by decide) hA.1
  · exact absurd hc (by decide)

/-- nothing is skipped in front of a digit -/
theorem strtoul_of_digit {str : String} {c : Char} {cs : List Char} (hs : str.toList = c :: cs)
    (hc : (digitVal c).isSome) (b : ℕ) :
    strtoul str b =
      if 2 ^ 64 ≤ readDigits (splitBase b (c :: cs)).1 0 (splitBase b (c :: cs)).2 then 2 ^ 64 - 1
      else readDigits (splitBase b (c :: cs)).1 0 (splitBase b (c :: cs)).2 := by
  have hspace : (c = ' ' || ('\t' ≤ c && c ≤ '\r')) = false := by
    have h0 := zero_le_of_digitVal hc
    have hle : ¬ c ≤ '\r' := by
      intro hle
      exact absurd (Char.le_trans h0 hle) (by decide)
    have hne : c ≠ ' ' := by
      rintro rfl
      exact absurd h0 (by decide)
    simp [hne, hle]
  have hminus : c ≠ '-' := by
    rintro rfl
    exact absurd hc (by decide)
  have hplus : c ≠ '+' := by
    rintro rfl
    exact absurd hc (by decide)
  unfold strtoul
  rw [hs, List.dropWhile_cons_of_neg (by simp [hspace])]
  simp [hminus, hplus]

/-! ## Decimal text -/

theorem digitVal_digitChar {d : ℕ} (hd : d < 10) : digitVal d.digitChar = some d := by
  interval_cases d <;> rfl

theorem toDigits_head_ne_zero {n : ℕ} (hn : 0 < n) : ∃ c cs, Nat.toDigits 10 n = c :: cs ∧ c ≠ '0' ∧
    (digitVal c).isSome := by
  induction n using Nat.base_induction 10 (by omega) with
  | single d hd =>
    refine ⟨d.digitChar, [], Nat.toDigits_of_lt_base hd, ?_, by simp [digitVal_digitChar hd]⟩
    interval_cases d <;> decide
  | digit n d hd hpos ih =>
    obtain ⟨c, cs, hcs, hc⟩ := ih hpos
    refine ⟨c, cs ++ Nat.toDigits 10 d, ?_, hc⟩
    rw [← Nat.toDigits_append_toDigits (by omega) hpos hd, hcs, List.cons_append]

theorem splitBase_of_ne_zero {c : Char} (hc : c ≠ '0') (cs : List Char) : splitBase 0 (c :: cs) = (10, c :: cs) := by
  unfold splitBase
  split
  · next h => exact absurd (List.cons.inj h).1 hc
  · next h => exact absurd (List.cons.inj h).1 hc
  · rfl

theorem splitBase_ten (s : List Char) : splitBase 10 s = (10, s) := by
  unfold splitBase
  split <;> simp

/-- **Decimal text.** A 64-bit number printed in decimal reads back as itself, whether the base is 10 or left open. -/
theorem strtoul_repr {n : ℕ} (hn : n < 2 ^ 64) {base : ℕ} (hbase : base = 0 ∨ base = 10) :
    strtoul n.repr base = n := by
  have hlist : n.repr.toList = Nat.toDigits 10 n := Nat.toList_repr
  have hread : readDigits 10 0 (Nat.toDigits 10 n) = n := by
    simpa using (readDigits_toDigits (by omega) id (fun d hd => digitVal_digitChar hd) n).1
  rcases Nat.eq_zero_or_pos n with rfl | hpos
  · rcases hbase with rfl | rfl <;> rfl
  · obtain ⟨c, cs, hcs, hc, hd⟩ := toDigits_head_ne_zero hpos
    have hsplit : splitBase base (c :: cs) = (10, c :: cs) := by
      rcases hbase with rfl | rfl
      · exact splitBase_of_ne_zero hc cs
      · exact splitBase_ten _
    rw [strtoul_of_digit (hlist.trans hcs) hd, hsplit, ← hcs, hread, if_neg (by omega)]

/-- the empty text of a reset key -/
theorem strtoul_empty (base : ℕ) (hbase : base = 0 ∨ base = 10) : strtoul "" base = 0 := by
  rcases hbase with rfl | rfl <;> rfl

/-! ## Section names of titles -/

/-- `snprintf(section, "%016lX", tid)` -/
def formatTid (tid : ℕ) : String :=
  let digits := (Nat.toDigits 16 tid).map Char.toUpper
  String.ofList (List.replicate (16 - digits.length) '0' ++ digits)

theorem digitVal_toUpper_digitChar {d : ℕ} (hd : d < 16) : digitVal d.digitChar.toUpper = some d := by
  interval_cases d <;> rfl

theorem formatTid_length {tid : ℕ} (h : tid < 2 ^ 64) : (formatTid tid).length = 16 := by
  have hle : (Nat.toDigits 16 tid).length ≤ 16 := (Nat.length_toDigits_le_iff (by omega) (by omega)).2 (by simpa using h)
  simp [formatTid, ← String.length_toList]
  omega

theorem formatTid_digits (tid : ℕ) : ∀ c ∈ (formatTid tid).toList, ∃ d < 16, digitVal c = some d := by
  intro c hc
  simp only [formatTid, String.toList_ofList, List.mem_append] at hc
  rcases hc with hc | hc
  · rw [List.eq_of_mem_replicate hc]
    exact ⟨0, by omega, rfl⟩
  · exact (readDigits_toDigits (by omega) _ (fun d hd => digitVal_toUpper_digitChar hd) tid).2 c hc

theorem splitBase_sixteen {s : List Char} (hs : ∀ c ∈ s, ∃ d < 16, digitVal c = some d) :
    splitBase 16 s = (16, s) := by
  unfold splitBase
  split
  · next x d cs =>
    have hx : ¬ (x = 'x' ∨ x = 'X') := by
      obtain ⟨v, hv, hval⟩ := hs x (by simp)
      rintro (rfl | rfl)
      · exact absurd hval (by simp [digitVal]; omega)
      · exact absurd hval (by simp [digitVal]; omega)
    simp [hx]
  · rfl
  · rfl

theorem readDigits_formatTid (tid : ℕ) : readDigits 16 0 (formatTid tid).toList = tid := by
  rw [formatTid, String.toList_ofList, readDigits_zeros 16 (by omega)]
  exact (readDigits_toDigits (by omega) _ (fun d hd => digitVal_toUpper_digitChar hd) tid).1

theorem digitVal_toUpper (c : Char) : digitVal c.toUpper = digitVal c := by
  by_cases h : 'a' ≤ c ∧ c ≤ 'z'
  · have hlo : 97 ≤ c.toNat := h.1
    have hhi : c.toNat ≤ 122 := h.2
    obtain ⟨n, hn⟩ : ∃ n, n = c.toNat := ⟨_, rfl⟩
    have hc : c = Char.ofNat n := by rw [hn, Char.ofNat_toNat]
    rw [← hn] at hlo hhi
    subst hc
    clear h hn
    interval_cases n <;> rfl
  · have hup : c.toUpper = c := by
      unfold Char.toUpper
      exact dif_neg h
    rw [hup]

theorem readDigits_toUpper (b acc : ℕ) (l : List Char) : readDigits b acc (l.map Char.toUpper) = readDigits b acc l := by
  induction l generalizing acc with
  | nil => rfl
  | cons c l ih =>
    rw [List.map_cons, readDigits, readDigits, digitVal_toUpper]
    cases digitVal c with
    | none => rfl
    | some d =>
      dsimp only
      rw [ih]

/-- a section's name is read as the title in whatever case it is spelled -/
theorem strtoul_sameCase {name : String} {tid : ℕ} (h : tid < 2 ^ 64)
    (hname : name.toList.map Char.toUpper = (formatTid tid).toList.map Char.toUpper) : strtoul name 16 = tid := by
  have hlen : name.toList.length = 16 := by
    have hl := congrArg List.length hname
    rwa [List.length_map, List.length_map, String.length_toList (s := formatTid tid), formatTid_length h] at hl
  have hdigits : ∀ c ∈ name.toList, ∃ d < 16, digitVal c = some d := by
    intro c hc
    have hmem : c.toUpper ∈ (formatTid tid).toList.map Char.toUpper := hname ▸ List.mem_map_of_mem hc
    obtain ⟨x, hx, hxc⟩ := List.mem_map.1 hmem
    obtain ⟨d, hd, hval⟩ := formatTid_digits tid x hx
    exact ⟨d, hd, by rw [← digitVal_toUpper, ← hxc, digitVal_toUpper, hval]⟩
  have hread : readDigits 16 0 name.toList = tid := by
    rw [← readDigits_toUpper, hname, readDigits_toUpper]
    exact readDigits_formatTid tid
  cases hl : name.toList with
  | nil =>
    rw [hl] at hlen
    exact absurd hlen (by decide)
  | cons c cs =>
    obtain ⟨d, -, hd⟩ := hdigits c (by simp [hl])
    rw [strtoul_of_digit hl (by simp [hd]), ← hl, splitBase_sixteen hdigits, hread, if_neg (by omega)]

/-- **Section names.** The section written for a title is read back as the title. -/
theorem strtoul_formatTid {tid : ℕ} (h : tid < 2 ^ 64) : strtoul (formatTid tid) 16 = tid := strtoul_sameCase h rfl

example : formatTid 0x0100F2C0115B6000 = "0100F2C0115B6000" := by decide

end RyazhaClk
