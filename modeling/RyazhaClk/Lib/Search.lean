/-
Naive search for a needle: at each position the needle is compared until a place differs. What the search answers and which
places it reads, for a text that is only known below a bound.

- `compareReads_lt_iff`: a comparison stays below the bound exactly when the needle ends below it or differs below it.
- `passes_iff`: the search finds nothing and stays below the bound exactly when every position differs below it.
- `hits_iff`: it finds the first match and stays below the bound exactly when that match ends below it.
- `DiffersBefore.congr`, `MatchAt.congr`: both depend on the text below the bound only.
-/
import Mathlib.Tactic

namespace RyazhaClk.Search

section Positions

variable {α : Type*}

/-- the needle stands at `p` -/
def MatchAt (m : ℕ → α) (needle : List α) (p : ℕ) : Prop := ∀ k q, needle[k]? = some q → m (p + k) = q

/-- the answer of a search through `count` positions -/
inductive IsFirstMatch (m : ℕ → α) (needle : List α) (count : ℕ) : Option ℕ → Prop where
  | nothing : (∀ p < count, ¬ MatchAt m needle p) → IsFirstMatch m needle count none
  | found {i : ℕ} : i < count → MatchAt m needle i → (∀ p < i, ¬ MatchAt m needle p) → IsFirstMatch m needle count (some i)

/-- a place below the bound differs from the needle at `p` -/
def DiffersBefore (m : ℕ → α) (needle : List α) (n p : ℕ) : Prop := ∃ k q, needle[k]? = some q ∧ p + k < n ∧ m (p + k) ≠ q

variable {m m' : ℕ → α} {needle : List α} {n p : ℕ}

theorem differsBefore_cons {q : α} {qs : List α} :
    DiffersBefore m (q :: qs) n p ↔ p < n ∧ m p ≠ q ∨ DiffersBefore m qs n (p + 1) := by
  constructor
  · rintro ⟨k, r, hr, hlt, hne⟩
    cases k with
    | zero => exact Or.inl ⟨hlt, Option.some.inj hr ▸ hne⟩
    | succ k =>
      refine Or.inr ⟨k, r, hr, ?_, ?_⟩
      · omega
      · rwa [Nat.add_assoc, Nat.add_comm 1 k]
  · rintro (⟨hlt, hne⟩ | ⟨k, r, hr, hlt, hne⟩)
    · exact ⟨0, q, rfl, hlt, hne⟩
    · refine ⟨k + 1, r, hr, by omega, ?_⟩
      rwa [Nat.add_comm k 1, ← Nat.add_assoc]

theorem DiffersBefore.not_matchAt (h : DiffersBefore m needle n p) : ¬ MatchAt m needle p := by
  obtain ⟨k, q, hq, -, hne⟩ := h
  exact fun hmatch => hne (hmatch k q hq)

/-- a needle that ends below the bound matches or differs below it -/
theorem not_matchAt_iff (hn : p + needle.length ≤ n) : ¬ MatchAt m needle p ↔ DiffersBefore m needle n p := by
  constructor
  · intro h
    unfold MatchAt at h
    push Not at h
    obtain ⟨k, q, hq, hne⟩ := h
    have hk := (List.getElem?_eq_some_iff.1 hq).1
    exact ⟨k, q, hq, by omega, hne⟩
  · exact DiffersBefore.not_matchAt

theorem MatchAt.congr (h : ∀ j < n, m j = m' j) (hn : p + needle.length ≤ n) : MatchAt m needle p ↔ MatchAt m' needle p := by
  refine forall₃_congr fun k q hq => ?_
  have hk := (List.getElem?_eq_some_iff.1 hq).1
  rw [h (p + k) (by omega)]

theorem DiffersBefore.congr (h : ∀ j < n, m j = m' j) : DiffersBefore m needle n p ↔ DiffersBefore m' needle n p := by
  refine exists₂_congr fun k q => and_congr_right fun _ => and_congr_right fun hlt => ?_
  rw [h (p + k) hlt]

end Positions

section Reads

variable {α : Type*} [DecidableEq α]

/-- the places compared at `p` -/
def compareReads (m : ℕ → α) : ℕ → List α → List ℕ
  | _, [] => []
  | p, q :: qs => p :: if m p = q then compareReads m (p + 1) qs else []

/-- the positions of a search that finds nothing, or finds a match -/
def positions (count : ℕ) (found : Option ℕ) : List ℕ := List.range (found.elim count (· + 1))

/-- the places read by a search through `count` positions -/
def searchReads (m : ℕ → α) (needle : List α) (count : ℕ) (found : Option ℕ) : List ℕ :=
  (positions count found).flatMap fun p => compareReads m p needle

variable {m : ℕ → α} {needle : List α} {n p i count : ℕ}

/-- one comparison -/
theorem compareReads_lt_iff (hp : p ≤ n) :
    (∀ j ∈ compareReads m p needle, j < n) ↔ DiffersBefore m needle n p ∨ p + needle.length ≤ n := by
  induction needle generalizing p with
  | nil => simp [compareReads, hp]
  | cons q qs ih =>
    rw [compareReads, List.forall_mem_cons, differsBefore_cons, List.length_cons]
    rcases hp.lt_or_eq with hlt | rfl
    · by_cases hq : m p = q
      · rw [if_pos hq, ih hlt]
        simp only [hlt, hq, true_and, ne_eq, not_true_eq_false, and_false, false_or]
        exact or_congr_right (by omega)
      · simp [hlt, hq]
    · -- nothing below the bound is left
      constructor
      · exact fun h => absurd h.1 (lt_irrefl p)
      · rintro ((⟨hlt, -⟩ | ⟨k, -, -, hlt, -⟩) | hle) <;> omega

theorem compareReads_lt_iff_of_ne (hneedle : needle ≠ []) :
    (∀ j ∈ compareReads m p needle, j < n) ↔ DiffersBefore m needle n p ∨ p + needle.length ≤ n := by
  by_cases hp : p ≤ n
  · exact compareReads_lt_iff hp
  · cases needle with
    | nil => exact absurd rfl hneedle
    | cons q qs =>
      rw [compareReads, List.forall_mem_cons]
      constructor
      · exact fun h => absurd h.1.le hp
      · rintro (⟨k, -, -, hlt, -⟩ | hle) <;> omega

theorem searchReads_lt_iff {found : Option ℕ} : (∀ j ∈ searchReads m needle count found, j < n) ↔
    ∀ p ∈ positions count found, ∀ j ∈ compareReads m p needle, j < n := by
  unfold searchReads
  exact List.forall_mem_flatMap

variable {found : Option ℕ}

/-- **A search that passes** below the bound. -/
theorem passes_iff (hneedle : needle ≠ []) (h : IsFirstMatch m needle count found) :
    (found = none ∧ ∀ j ∈ searchReads m needle count found, j < n) ↔ ∀ p < count, DiffersBefore m needle n p := by
  cases h with
  | nothing hno =>
    rw [searchReads_lt_iff]
    constructor
    · rintro ⟨-, hreads⟩ p hp
      rcases (compareReads_lt_iff_of_ne hneedle).1 (hreads p (List.mem_range.2 hp)) with hdiff | hend
      · exact hdiff
      · exact (not_matchAt_iff hend).1 (hno p hp)
    · exact fun hdiff => ⟨rfl, fun p hp => (compareReads_lt_iff_of_ne hneedle).2 (Or.inl (hdiff p (List.mem_range.1 hp)))⟩
  | found hi hmatch hbefore =>
    constructor
    · rintro ⟨h, -⟩
      cases h
    · exact fun hdiff => absurd hmatch (hdiff _ hi).not_matchAt

/-- **A search that finds its needle** below the bound. -/
theorem hits_iff (hneedle : needle ≠ []) (h : IsFirstMatch m needle count found) :
    (found = some i ∧ ∀ j ∈ searchReads m needle count found, j < n) ↔
      i < count ∧ i + needle.length ≤ n ∧ MatchAt m needle i ∧ ∀ p < i, DiffersBefore m needle n p := by
  cases h with
  | nothing hno =>
    constructor
    · rintro ⟨h, -⟩
      cases h
    · exact fun ⟨hi, _, hmatch, _⟩ => absurd hmatch (hno i hi)
  | @found i' hi' hmatch' hbefore =>
    rw [searchReads_lt_iff]
    constructor
    · rintro ⟨h, hreads⟩
      obtain rfl := Option.some.inj h
      have hdecided : ∀ p < i' + 1, DiffersBefore m needle n p ∨ p + needle.length ≤ n := fun p hp =>
        (compareReads_lt_iff_of_ne hneedle).1 (hreads p (List.mem_range.2 hp))
      refine ⟨hi', (hdecided i' i'.lt_succ_self).resolve_left fun hdiff => hdiff.not_matchAt hmatch', hmatch', fun p hp => ?_⟩
      rcases hdecided p (hp.trans i'.lt_succ_self) with hdiff | hend
      · exact hdiff
      · exact (not_matchAt_iff hend).1 (hbefore p hp)
    · rintro ⟨hi, hend, hmatch, hdiff⟩
      have hsame : i' = i := by
        rcases lt_trichotomy i' i with hlt | heq | hgt
        · exact absurd hmatch' (hdiff i' hlt).not_matchAt
        · exact heq
        · exact absurd hmatch (hbefore i hgt)
      subst hsame
      refine ⟨rfl, fun p hp => (compareReads_lt_iff_of_ne hneedle).2 ?_⟩
      rcases (Nat.lt_succ_iff.1 (List.mem_range.1 hp)).lt_or_eq with hlt | rfl
      · exact Or.inl (hdiff p hlt)
      · exact Or.inr hend

end Reads

end RyazhaClk.Search
