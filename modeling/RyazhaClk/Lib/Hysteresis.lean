/-
A follower with a hold on the way down. Each poll brings a computed value and a value to be programmed that is at least
the computed one. The follower programs at once, unless the computed value is below the value it programmed last; then
it waits for the `n`th such poll in a row, with one counter that is started, decremented and tested in the same poll.
Histories list the newest poll first.

- `Tracks.cons`: what the counter says about the history, kept by every poll.
- `Tracks.pollOk_iff`: a poll does what a follower is for, except where the value to be programmed has risen above the
  last one while the computed value is below it.
-/
import Mathlib.Tactic

namespace RyazhaClk.Hysteresis

section History

variable {β : Type*}

/-- each element of a list, with those before it, newest first -/
def Along (Q : List β → β → Prop) : List β → List β → Prop
  | _, [] => True
  | h, r :: l => Q h r ∧ Along Q (r :: h) l

end History

variable {α : Type*} [LinearOrder α]

structure Poll (α : Type*) where
  computed : α
  programs : α
  wrote : Bool
deriving DecidableEq

/-- the value programmed last -/
def lastProgrammed : List (Poll α) → Option α
  | [] => none
  | r :: h => if r.wrote then some r.programs else lastProgrammed h

/-- the last `k` polls found values below `L`, which the poll before them programmed -/
inductive Held (L : α) : List (Poll α) → ℕ → Prop
  | programmed {w : Poll α} {h : List (Poll α)} : w.wrote = true → w.programs = L → Held L (w :: h) 0
  | held {q : Poll α} {h : List (Poll α)} {k : ℕ} :
      q.wrote = false → q.computed < L → Held L h k → Held L (q :: h) (k + 1)

/-- what a follower is for -/
structure PollOk (n : ℕ) (h : List (Poll α)) (r : Poll α) : Prop where
  /-- it lowers only at the `n`th poll in a row below what it programmed last -/
  lowers : ∀ L, lastProgrammed h = some L → r.wrote = true → r.programs < L → r.computed < L ∧ Held L h (n - 1)
  /-- it raises at once -/
  raises : ∀ L, lastProgrammed h = some L → L < r.programs → r.wrote = true
  /-- of `n` polls in a row below what was programmed before them, one programs -/
  sustained : ∀ mid pre L, h = mid ++ pre → mid.length = n - 1 → lastProgrammed pre = some L →
    (∀ q ∈ r :: mid, q.computed < L) → ∃ q ∈ r :: mid, q.wrote = true

/-- the counter after a poll -/
def hold (n : ℕ) (down : Bool) (k : ℕ) : ℕ := (if !down then 0 else if k = 0 then n else k) - 1

/-- what the counter and the last value say about the history -/
inductive Tracks (n : ℕ) : List (Poll α) → ℕ → Option α → Prop
  | fresh : Tracks n [] 0 none
  | held {h : List (Poll α)} {L : α} {j : ℕ} : Held L h j → j < n → Tracks n h (if j = 0 then 0 else n - j) (some L)

variable {n j k : ℕ} {h mid pre : List (Poll α)} {r : Poll α} {L : α} {last : Option α} {down : Bool}

theorem Held.lastProgrammed_eq (hh : Held L h j) : lastProgrammed h = some L := by
  induction hh with
  | programmed hw hL => simp [lastProgrammed, hw, hL]
  | held hq _ _ ih => simp [lastProgrammed, hq, ih]

theorem Tracks.last_eq (ht : Tracks n h k last) : lastProgrammed h = last := by
  cases ht with
  | fresh => rfl
  | held hh _ => exact hh.lastProgrammed_eq

theorem Tracks.held_of_some (ht : Tracks n h k (some L)) : ∃ j, Held L h j ∧ j < n ∧ k = if j = 0 then 0 else n - j := by
  cases ht with
  | held hh hj => exact ⟨_, hh, hj, rfl⟩

/-- polls that did not program are held ones -/
theorem Held.append (hh : Held L (mid ++ pre) j) (hmid : ∀ q ∈ mid, q.wrote = false) : mid.length ≤ j := by
  induction mid generalizing j with
  | nil => exact Nat.zero_le j
  | cons q mid ih =>
    cases hh with
    | programmed hw _ => exact absurd hw (by simp [hmid q List.mem_cons_self])
    | held _ _ hh => exact Nat.succ_le_succ (ih hh fun q hq => hmid q (List.mem_cons_of_mem _ hq))

omit [LinearOrder α] in
theorem lastProgrammed_append (hmid : ∀ q ∈ mid, q.wrote = false) : lastProgrammed (mid ++ pre) = lastProgrammed pre := by
  induction mid with
  | nil => rfl
  | cons q mid ih =>
    have hq : q.wrote = false := hmid q List.mem_cons_self
    simp only [List.cons_append, lastProgrammed, hq, Bool.false_eq_true, if_false]
    exact ih fun q hq => hmid q (List.mem_cons_of_mem _ hq)

/-- on the way down the counter runs out at the `n`th poll -/
theorem hold_down (hj : j < n) : hold n true (if j = 0 then 0 else n - j) = n - 1 - j := by
  unfold hold
  by_cases h0 : j = 0
  · simp [h0]
  · have hne : n - j ≠ 0 := by omega
    simp only [h0, hne, if_false, Bool.not_true, Bool.false_eq_true]
    omega

/-- **a poll keeps the counter in step with the history** -/
theorem Tracks.cons (ht : Tracks n h k last) (hn : 0 < n)
    (hdown : down = true ↔ ∃ L, last = some L ∧ r.computed < L) (hwrote : r.wrote = (!down || hold n down k == 0)) :
    Tracks n (r :: h) (hold n down k) (if r.wrote then some r.programs else last) := by
  have hwritten : r.wrote = true → Tracks n (r :: h) 0 (some r.programs) := fun hw =>
    .held (j := 0) (.programmed hw rfl) hn
  cases down with
  | false =>
    have hw : r.wrote = true := by simpa using hwrote
    rw [if_pos hw]
    exact hwritten hw
  | true =>
    obtain ⟨L, rfl, hlt⟩ := hdown.1 rfl
    obtain ⟨j, hh, hj, rfl⟩ := ht.held_of_some
    rw [hold_down hj] at hwrote ⊢
    by_cases hlast : n - 1 - j = 0
    · have hw : r.wrote = true := by simp [hwrote, hlast]
      rw [if_pos hw, hlast]
      exact hwritten hw
    · have hw : r.wrote = false := by simpa [hwrote] using hlast
      rw [if_neg (by simp [hw])]
      have hnext : n - 1 - j = if j + 1 = 0 then 0 else n - (j + 1) := by
        rw [if_neg (Nat.succ_ne_zero j)]
        omega
      rw [hnext]
      exact .held (.held hw hlt hh) (by omega)

section Poll

variable (ht : Tracks n h k last) (hdown : down = true ↔ ∃ L, last = some L ∧ r.computed < L)
  (hwrote : r.wrote = (!down || hold n down k == 0))

include hdown hwrote

theorem wrote_iff_of_below (hL : last = some L) (hlt : r.computed < L) : r.wrote = true ↔ hold n true k = 0 := by
  obtain rfl := hdown.2 ⟨L, hL, hlt⟩
  simp [hwrote]

theorem wrote_of_not_below (hL : last = some L) (hle : ¬ r.computed < L) : r.wrote = true := by
  have hup : down ≠ true := by
    rw [Ne, hdown]
    rintro ⟨L', hL', hlt'⟩
    obtain rfl := Option.some.inj (hL.symm.trans hL')
    exact hle hlt'
  simp [hwrote, Bool.eq_false_iff.2 hup]

include ht

/-- a poll below the last value writes only behind `n - 1` held ones -/
theorem Tracks.held_of_wrote (hL : last = some L) (hlt : r.computed < L) (hw : r.wrote = true) : Held L h (n - 1) := by
  subst hL
  have hzero := (wrote_iff_of_below hdown hwrote rfl hlt).1 hw
  obtain ⟨j, hh, hj, rfl⟩ := ht.held_of_some
  rw [hold_down hj] at hzero
  rwa [show n - 1 = j by omega]

/-- behind `n - 1` polls that did not write it does write -/
theorem Tracks.wrote_of_idle (hh : h = mid ++ pre) (hlen : mid.length = n - 1) (hL : lastProgrammed pre = some L)
    (hlt : r.computed < L) (hmid : ∀ q ∈ mid, q.wrote = false) : r.wrote = true := by
  subst hh
  have hlast := ht.last_eq
  rw [lastProgrammed_append hmid, hL] at hlast
  subst hlast
  rw [wrote_iff_of_below hdown hwrote rfl hlt]
  obtain ⟨j, hh, hj, rfl⟩ := ht.held_of_some
  have := hh.append hmid
  rw [hold_down hj]
  omega

/-- **when a poll does what a follower is for** -/
theorem Tracks.pollOk_iff (hle : r.computed ≤ r.programs) :
    PollOk n h r ↔ ∀ L, last = some L → r.computed < L → L < r.programs → hold n true k = 0 := by
  constructor
  · intro hok L hL hlt habove
    exact (wrote_iff_of_below hdown hwrote hL hlt).1 (hok.raises L (ht.last_eq.trans hL) habove)
  · intro hcond
    constructor
    case lowers =>
      intro L hL hw hbelow
      have hlt : r.computed < L := hle.trans_lt hbelow
      exact ⟨hlt, ht.held_of_wrote hdown hwrote (ht.last_eq.symm.trans hL) hlt hw⟩
    case raises =>
      intro L hL habove
      rw [ht.last_eq] at hL
      by_cases hlt : r.computed < L
      · exact (wrote_iff_of_below hdown hwrote hL hlt).2 (hcond L hL hlt habove)
      · exact wrote_of_not_below hdown hwrote hL hlt
    case sustained =>
      intro mid pre L hh hlen hL hbelow
      by_contra hnone
      have hmid : ∀ q ∈ mid, q.wrote = false := fun q hq =>
        Bool.eq_false_iff.2 fun hw => hnone ⟨q, List.mem_cons_of_mem _ hq, hw⟩
      exact hnone ⟨r, List.mem_cons_self,
        ht.wrote_of_idle hdown hwrote hh hlen hL (hbelow r List.mem_cons_self) hmid⟩

end Poll

end RyazhaClk.Hysteresis
