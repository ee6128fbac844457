/-
Texts read line by line through a buffer. A line ends with its terminator, with the text, or where the buffer is full.

- `flatten_lines`: the lines of a text, one behind the other, are the text.
- `lines_eq_cons`: reading goes on behind each line as it started.
- `Lined`: lists of lines that are read as they are; every end of such a list is one, `lined_lines` is the main example.
- `lineOf_of_length_le`: a line that fits a smaller buffer is read the same through it.
-/
import Mathlib.Tactic

namespace RyazhaClk.Lines

variable {α : Type*} [DecidableEq α] (nl : α)

/-- the next line of a text, at most `n` elements of it -/
def lineOf : ℕ → List α → List α
  | 0, _ => []
  | _ + 1, [] => []
  | n + 1, a :: s => if a = nl then [a] else a :: lineOf n s

/-- put an element in front of the first line -/
def consHead (a : α) : List (List α) → List (List α)
  | [] => [[a]]
  | l :: ls => (a :: l) :: ls

/-- the lines of a text when `room` elements are left in the buffer of the first one -/
def linesFrom (n : ℕ) : ℕ → List α → List (List α)
  | _, [] => []
  | room, a :: s => if a = nl ∨ room ≤ 1 then [a] :: linesFrom n n s else consHead a (linesFrom n (room - 1) s)

/-- the lines of a text, read through a buffer of `n` elements -/
def lines (n : ℕ) (s : List α) : List (List α) := linesFrom nl n n s

variable {nl}

/-! ## One line -/

@[simp] theorem lineOf_nil (n : ℕ) : lineOf nl n [] = [] := by
  cases n <;> rfl

theorem lineOf_isPrefix (n : ℕ) (s : List α) : lineOf nl n s <+: s := by
  induction s generalizing n with
  | nil => simp
  | cons a s ih =>
    cases n with
    | zero => exact List.nil_prefix
    | succ n =>
      rw [lineOf]
      split_ifs
      · exact ⟨s, rfl⟩
      · exact (List.prefix_cons_inj a).2 (ih n)

theorem length_lineOf_le (n : ℕ) (s : List α) : (lineOf nl n s).length ≤ n := by
  induction s generalizing n with
  | nil => simp
  | cons a s ih =>
    cases n with
    | zero => exact le_rfl
    | succ n =>
      rw [lineOf]
      split_ifs
      · simp
      · exact Nat.succ_le_succ (ih n)

theorem lineOf_append_drop (n : ℕ) (s : List α) : lineOf nl n s ++ s.drop (lineOf nl n s).length = s :=
  (List.prefix_append_drop (lineOf_isPrefix n s)).symm

theorem lineOf_eq_nil_iff {n : ℕ} (hn : 0 < n) (s : List α) : lineOf nl n s = [] ↔ s = [] := by
  obtain ⟨n, rfl⟩ := Nat.exists_eq_add_of_lt hn
  cases s with
  | nil => simp
  | cons a s =>
    rw [Nat.zero_add, lineOf]
    split_ifs <;> simp

/-- **A line that fits a smaller buffer** is read the same through it. -/
theorem lineOf_of_length_le {m n : ℕ} {s : List α} (hm : (lineOf nl n s).length ≤ m) (hle : m ≤ n) :
    lineOf nl m s = lineOf nl n s := by
  induction s generalizing m n with
  | nil => simp
  | cons a s ih =>
    cases n with
    | zero =>
      obtain rfl : m = 0 := by omega
      rfl
    | succ n =>
      rw [lineOf] at hm ⊢
      split_ifs at hm ⊢ with ha
      · obtain ⟨m, rfl⟩ := Nat.exists_eq_add_of_le' hm
        simp [lineOf, ha]
      · rw [List.length_cons] at hm
        obtain ⟨m, rfl⟩ := Nat.exists_eq_add_of_le' (Nat.le_of_add_left_le hm)
        rw [lineOf, if_neg ha, ih (Nat.le_of_succ_le_succ hm) (Nat.le_of_succ_le_succ hle)]

/-- a line that ends with the terminator is read as it is, whatever follows -/
theorem lineOf_terminated {n : ℕ} {l : List α} (hl : nl ∉ l) (hn : l.length < n) (rest : List α) :
    lineOf nl n (l ++ [nl] ++ rest) = l ++ [nl] := by
  induction l generalizing n with
  | nil =>
    obtain ⟨n, rfl⟩ := Nat.exists_eq_add_of_lt hn
    simp [lineOf]
  | cons a l ih =>
    obtain ⟨n, rfl⟩ := Nat.exists_eq_add_of_le' (Nat.one_le_of_lt hn)
    rw [List.mem_cons, not_or] at hl
    rw [List.cons_append, List.cons_append, lineOf, if_neg (Ne.symm hl.1), ih hl.2 (Nat.lt_of_succ_lt_succ hn)]

/-- a line with its terminator -/
def Terminated (nl : α) (l : List α) : Prop := ∃ body, nl ∉ body ∧ l = body ++ [nl]

/-- a line that is neither the end of the text nor fills the buffer has its terminator -/
theorem lineOf_isTerminated {n : ℕ} {s : List α} (hmore : (lineOf nl n s).length < s.length)
    (hroom : (lineOf nl n s).length < n) : Terminated nl (lineOf nl n s) := by
  induction s generalizing n with
  | nil => exact absurd hmore (Nat.not_lt_zero _)
  | cons a s ih =>
    obtain ⟨n, rfl⟩ := Nat.exists_eq_add_of_le' (Nat.one_le_of_lt hroom)
    rw [lineOf] at hmore hroom ⊢
    split_ifs at hmore hroom ⊢ with ha
    · exact ⟨[], List.not_mem_nil, by rw [ha, List.nil_append]⟩
    · rw [List.length_cons] at hmore hroom
      obtain ⟨body, hbody, hline⟩ := ih (Nat.lt_of_succ_lt_succ hmore) (Nat.lt_of_succ_lt_succ hroom)
      refine ⟨a :: body, ?_, by rw [hline, List.cons_append]⟩
      rw [List.mem_cons, not_or]
      exact ⟨Ne.symm ha, hbody⟩

/-- a terminator stands at the end of a line only -/
theorem terminated_of_getLast {n : ℕ} {s : List α} (h : (lineOf nl n s).getLast? = some nl) :
    Terminated nl (lineOf nl n s) := by
  induction s generalizing n with
  | nil => simp at h
  | cons a s ih =>
    cases n with
    | zero => cases h
    | succ n =>
      rw [lineOf] at h ⊢
      split_ifs at h ⊢ with ha
      · exact ⟨[], List.not_mem_nil, by rw [ha, List.nil_append]⟩
      · have hne : lineOf nl n s ≠ [] := by
          intro hnil
          rw [hnil] at h
          exact ha (by simpa using h)
        rw [List.getLast?_cons_of_ne_nil hne] at h
        obtain ⟨body, hbody, hline⟩ := ih h
        refine ⟨a :: body, ?_, by rw [hline, List.cons_append]⟩
        rw [List.mem_cons, not_or]
        exact ⟨Ne.symm ha, hbody⟩

/-- a line without its terminator -/
theorem notMem_of_getLast {n : ℕ} {s : List α} (h : (lineOf nl n s).getLast? ≠ some nl) : nl ∉ lineOf nl n s := by
  induction s generalizing n with
  | nil => simp
  | cons a s ih =>
    cases n with
    | zero => exact List.not_mem_nil
    | succ n =>
      rw [lineOf] at h ⊢
      split_ifs at h ⊢ with ha
      · exact absurd (by rw [ha]; rfl) h
      · rw [List.mem_cons, not_or]
        refine ⟨Ne.symm ha, ih fun hlast => h ?_⟩
        rw [List.getLast?_cons_of_ne_nil (by rintro hnil; simp [hnil] at hlast), hlast]

/-! ## All lines -/

@[simp] theorem lines_nil (n : ℕ) : lines nl n [] = [] := rfl

theorem linesFrom_eq_cons (n room : ℕ) (hroom : 0 < room) {s : List α} (hs : s ≠ []) :
    linesFrom nl n room s = lineOf nl room s :: lines nl n (s.drop (lineOf nl room s).length) := by
  induction s generalizing room with
  | nil => exact absurd rfl hs
  | cons a s ih =>
    obtain ⟨room, rfl⟩ := Nat.exists_eq_add_of_le' hroom
    rw [linesFrom, lineOf]
    by_cases ha : a = nl
    · simp [ha, lines]
    · rw [if_neg ha]
      rcases Nat.eq_zero_or_pos room with rfl | hpos
      · simp [lineOf, lines]
      · rw [if_neg (by simp [ha, hpos.ne']), Nat.add_sub_cancel]
        by_cases hs' : s = []
        · simp [hs', linesFrom, consHead]
        · rw [ih room hpos hs']
          rfl

/-- **Reading goes on** behind each line as it started. -/
theorem lines_eq_cons {n : ℕ} (hn : 0 < n) {s : List α} (hs : s ≠ []) :
    lines nl n s = lineOf nl n s :: lines nl n (s.drop (lineOf nl n s).length) := linesFrom_eq_cons n n hn hs

/-- lines that are read as they are, one behind the other -/
def Lined (nl : α) (n : ℕ) : List (List α) → Prop
  | [] => True
  | l :: ls => l ≠ [] ∧ lineOf nl n (l ++ ls.flatten) = l ∧ Lined nl n ls

theorem Lined.of_append {n : ℕ} {ls ls' : List (List α)} (h : Lined nl n (ls ++ ls')) : Lined nl n ls' := by
  induction ls with
  | nil => exact h
  | cons l ls ih => exact ih h.2.2

theorem Lined.length_le {n : ℕ} {l : List α} {ls : List (List α)} (h : Lined nl n (l :: ls)) : l.length ≤ n := by
  rw [← h.2.1]
  exact length_lineOf_le _ _

/-- every line but the last has its terminator, unless it fills the buffer -/
theorem Lined.terminated {n : ℕ} {l : List α} {ls : List (List α)} (h : Lined nl n (l :: ls)) (hls : ls ≠ [])
    (hroom : l.length < n) : Terminated nl l := by
  have hline := h.2.1
  have hmore : l.length < (l ++ ls.flatten).length := by
    obtain ⟨l', ls', rfl⟩ := List.exists_cons_of_ne_nil hls
    have hpos := List.length_pos_iff.2 h.2.2.1
    rw [List.flatten_cons, List.length_append, List.length_append]
    omega
  have hterminated : Terminated nl (lineOf nl n (l ++ ls.flatten)) :=
    lineOf_isTerminated (by rwa [hline]) (by rwa [hline])
  rwa [hline] at hterminated

/-- terminated lines are read as they are -/
theorem Lined.cons {n : ℕ} {l : List α} {ls : List (List α)} (hl : Terminated nl l) (hlen : l.length ≤ n)
    (h : Lined nl n ls) : Lined nl n (l :: ls) := by
  obtain ⟨body, hbody, rfl⟩ := hl
  rw [List.length_append, List.length_singleton] at hlen
  exact ⟨by simp, lineOf_terminated hbody hlen _, h⟩

theorem Lined.append {n : ℕ} {ls ls' : List (List α)} (hls : ∀ l ∈ ls, Terminated nl l ∧ l.length ≤ n)
    (h : Lined nl n ls') : Lined nl n (ls ++ ls') := by
  induction ls with
  | nil => exact h
  | cons l ls ih =>
    have hl := hls l List.mem_cons_self
    exact (ih fun l hl => hls l (List.mem_cons_of_mem _ hl)).cons hl.1 hl.2

/-- lines in front of another one have their terminators, unless they fill the buffer -/
theorem Lined.all_terminated {n : ℕ} {ls ls' : List (List α)} (h : Lined nl n (ls ++ ls')) (hls' : ls' ≠ [])
    (hroom : ∀ l ∈ ls, l.length < n) : ∀ l ∈ ls, Terminated nl l := by
  induction ls with
  | nil => exact fun _ hl => absurd hl List.not_mem_nil
  | cons a ls ih =>
    intro l hl
    obtain rfl | hl := List.mem_cons.1 hl
    · exact h.terminated (by simp [hls']) (hroom _ List.mem_cons_self)
    · exact ih h.2.2 (fun l hl => hroom l (List.mem_cons_of_mem _ hl)) l hl

variable (nl) in
/-- induction on a text, a line at a time -/
theorem line_induction {n : ℕ} (hn : 0 < n) {motive : List α → Prop} (nil : motive [])
    (line : ∀ s, s ≠ [] → motive (s.drop (lineOf nl n s).length) → motive s) (s : List α) : motive s := by
  induction hlen : s.length using Nat.strong_induction_on generalizing s with
  | _ k ih =>
    by_cases hs : s = []
    · rw [hs]
      exact nil
    · have hpos : 0 < (lineOf nl n s).length := List.length_pos_iff.2 (mt (lineOf_eq_nil_iff hn s).1 hs)
      have hslen : 0 < s.length := List.length_pos_iff.2 hs
      apply line s hs
      apply ih _ _ _ rfl
      rw [List.length_drop]
      omega

/-- **The lines are the text.** -/
@[simp] theorem flatten_lines {n : ℕ} (hn : 0 < n) (s : List α) : (lines nl n s).flatten = s := by
  induction s using line_induction nl hn with
  | nil => rfl
  | line s hs ih => rw [lines_eq_cons hn hs, List.flatten_cons, ih, lineOf_append_drop]

theorem lined_lines {n : ℕ} (hn : 0 < n) (s : List α) : Lined nl n (lines nl n s) := by
  induction s using line_induction nl hn with
  | nil => exact True.intro
  | line s hs ih =>
    rw [lines_eq_cons hn hs]
    refine ⟨mt (lineOf_eq_nil_iff hn s).1 hs, ?_, ih⟩
    rw [flatten_lines hn, lineOf_append_drop]

/-- lists that are read as they are have no other split -/
theorem Lined.lines_flatten {n : ℕ} (hn : 0 < n) {ls : List (List α)} (h : Lined nl n ls) :
    lines nl n ls.flatten = ls := by
  induction ls with
  | nil => rfl
  | cons l ls ih =>
    have hne : (l :: ls).flatten ≠ [] := by simp [h.1]
    rw [lines_eq_cons hn hne, List.flatten_cons, h.2.1, List.drop_left, ih h.2.2]

end RyazhaClk.Lines
