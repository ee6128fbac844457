/-
Strictly ascending lists with a top: a list is closed by a bound when the bound is appended unless it already is the
last element, and cut when only its first elements are kept.

- `closeAt_pairwise`: closing an ascending list below the bound keeps it ascending.
- `getLast?_take_closeAt_iff`: after a cut the bound is the last element exactly when nothing was cut off.
- `isGreatest_takeWhile`: read up to a bound, an ascending list ends with its greatest element up to it.
- `isLeast_find?`, `isGreatest_find?_reverse`: searched from its start, an ascending list answers the least element that
  passes, searched from its end the greatest.
- `isLeast_findIdx?_getD`: searched by index with the last index to fall back on, it answers the least index whose
  element reaches the target or the top.
- `count_eq_one`: in an ascending list each element is found once.
- `mem_take_iff`: a cut at `n` keeps the elements with fewer than `n` others below them.
-/
import Mathlib.Data.List.TakeWhile
import Mathlib.Data.Set.Card
import Mathlib.Tactic

namespace RyazhaClk.Ascending

variable {α : Type*} [LinearOrder α]

/-- `l`, with `m` behind it unless `l` ends in `m` -/
def closeAt (m : α) (l : List α) : List α :=
  if l.getLast? ≠ some m then l ++ [m] else l

variable {m : α} {l : List α}

theorem length_closeAt_le : (closeAt m l).length ≤ l.length + 1 := by
  unfold closeAt
  by_cases h : l.getLast? ≠ some m
  · rw [if_pos h, List.length_append, List.length_singleton]
  · rw [if_neg h]
    exact Nat.le_succ _

theorem getLast?_closeAt : (closeAt m l).getLast? = some m := by
  unfold closeAt
  by_cases h : l.getLast? ≠ some m
  · rw [if_pos h, List.getLast?_append]
    rfl
  · rw [if_neg h]
    exact not_not.1 h

theorem prefix_closeAt : l <+: closeAt m l := by
  unfold closeAt
  by_cases h : l.getLast? ≠ some m
  · rw [if_pos h]
    exact List.prefix_append l [m]
  · rw [if_neg h]

/-- in an ascending list the largest possible element can only be the last one -/
theorem getLast?_of_mem (hl : l.Pairwise (· < ·)) (hm : ∀ x ∈ l, x ≤ m) (h : m ∈ l) : l.getLast? = some m := by
  obtain ⟨init, tail, rfl⟩ := List.append_of_mem h
  have htail : tail = [] := by
    cases tail with
    | nil => rfl
    | cons y tail =>
      have hlt : m < y := by
        have hsuffix := (List.pairwise_append.1 hl).2.1
        exact (List.pairwise_cons.1 hsuffix).1 y List.mem_cons_self
      exact absurd (hm y (by simp)) (not_le.2 hlt)
  rw [htail, List.getLast?_append]
  rfl

theorem closeAt_pairwise (hl : l.Pairwise (· < ·)) (hm : ∀ x ∈ l, x ≤ m) : (closeAt m l).Pairwise (· < ·) := by
  unfold closeAt
  by_cases h : l.getLast? ≠ some m
  · rw [if_pos h, List.pairwise_append]
    refine ⟨hl, List.pairwise_singleton _ m, ?_⟩
    intro x hx y hy
    rw [List.mem_singleton.1 hy]
    apply lt_of_le_of_ne (hm x hx)
    intro hxm
    subst hxm
    exact h (getLast?_of_mem hl hm hx)
  · rw [if_neg h]
    exact hl

theorem le_of_mem_closeAt (hm : ∀ x ∈ l, x ≤ m) {x : α} (hx : x ∈ closeAt m l) : x ≤ m := by
  unfold closeAt at hx
  by_cases h : l.getLast? ≠ some m
  · rw [if_pos h] at hx
    rcases List.mem_append.1 hx with hx | hx
    · exact hm x hx
    · exact (List.mem_singleton.1 hx).le
  · rw [if_neg h] at hx
    exact hm x hx

/-- a cut behind the list itself loses none of its elements, at most the bound -/
theorem mem_take_closeAt {n : ℕ} {x : α} (hx : x ∈ l) (hn : l.length ≤ n) : x ∈ (closeAt m l).take n := by
  have hpre : l <+: (closeAt m l).take n := List.prefix_take_iff.2 ⟨prefix_closeAt, hn⟩
  exact hpre.subset hx

/-- reading an ascending list up to a bound finds all elements up to it -/
theorem mem_takeWhile {x : α} (hl : l.Pairwise (· < ·)) (hx : x ∈ l) (hxm : x ≤ m) : x ∈ l.takeWhile (· ≤ m) := by
  induction l with
  | nil => exact absurd hx List.not_mem_nil
  | cons y l ih =>
    rw [List.pairwise_cons] at hl
    rcases List.mem_cons.1 hx with rfl | hx
    · simp [hxm]
    · have hym : y ≤ m := (hl.1 x hx).le.trans hxm
      rw [List.takeWhile_cons_of_pos (by simpa using hym)]
      exact List.mem_cons_of_mem y (ih hl.2 hx)

/-- **cutting a closed list loses its bound or nothing** -/
theorem getLast?_take_closeAt_iff {n : ℕ} (hl : l.Pairwise (· < ·)) (hm : ∀ x ∈ l, x ≤ m) :
    ((closeAt m l).take n).getLast? = some m ↔ (closeAt m l).length ≤ n := by
  constructor
  · intro hlast
    by_contra hn
    have hsplit := List.take_append_drop n (closeAt m l)
    have hdrop : (closeAt m l).drop n ≠ [] := by
      intro h
      rw [List.drop_eq_nil_iff] at h
      exact hn h
    have hmem : m ∈ (closeAt m l).drop n := by
      have htop := getLast?_closeAt (m := m) (l := l)
      rw [← hsplit, List.getLast?_append_of_ne_nil _ hdrop] at htop
      exact List.mem_of_getLast? htop
    have hpair := closeAt_pairwise hl hm
    rw [← hsplit] at hpair
    exact lt_irrefl m ((List.pairwise_append.1 hpair).2.2 m (List.mem_of_getLast? hlast) m hmem)
  · intro hn
    rw [List.take_of_length_le hn]
    exact getLast?_closeAt

/-- the last element of an ascending list is its greatest -/
theorem isGreatest_getLast? (hl : l.Pairwise (· < ·)) (h : l.getLast? = some m) : IsGreatest {x | x ∈ l} m := by
  refine ⟨List.mem_of_getLast? h, ?_⟩
  intro x hx
  obtain ⟨init, rfl⟩ := List.getLast?_eq_some_iff.1 h
  rcases List.mem_append.1 hx with hx | hx
  · exact ((List.pairwise_append.1 hl).2.2 x hx m (List.mem_singleton.2 rfl)).le
  · exact (List.mem_singleton.1 hx).le

/-- reading an ascending list up to a bound ends with the greatest element up to it -/
theorem isGreatest_takeWhile {b : α} (hl : l.Pairwise (· < ·)) (h : (l.takeWhile (· ≤ b)).getLast? = some m) :
    IsGreatest {x | x ∈ l ∧ x ≤ b} m := by
  have hsub := (List.takeWhile_prefix (l := l) (· ≤ b)).sublist
  obtain ⟨hmem, hgreatest⟩ := isGreatest_getLast? (hl.sublist hsub) h
  refine ⟨⟨hsub.subset hmem, by simpa using List.mem_takeWhile_imp hmem⟩, ?_⟩
  intro x hx
  exact hgreatest (mem_takeWhile hl hx.1 hx.2)

theorem count_eq_one (hl : l.Pairwise (· < ·)) (h : m ∈ l) : l.count m = 1 := by
  apply List.count_eq_one_of_mem _ h
  exact hl.imp fun hlt => hlt.ne

/-- the first element of an ascending list that passes a test is the least one -/
theorem isLeast_find? {p : α → Bool} (hl : l.Pairwise (· ≤ ·)) (h : l.find? p = some m) :
    IsLeast {x | x ∈ l ∧ p x = true} m := by
  obtain ⟨hpm, init, tail, rfl, hinit⟩ := List.find?_eq_some_iff_append.1 h
  refine ⟨⟨by simp, hpm⟩, ?_⟩
  rintro x ⟨hx, hpx⟩
  rcases List.mem_append.1 hx with hx | hx
  · exact absurd hpx (by simpa using hinit x hx)
  · rcases List.mem_cons.1 hx with rfl | hx
    · exact le_rfl
    · exact (List.pairwise_cons.1 (List.pairwise_append.1 hl).2.1).1 x hx

/-- searched from its end, an ascending list answers the greatest element that passes -/
theorem isGreatest_find?_reverse {p : α → Bool} (hl : l.Pairwise (· ≤ ·)) (h : l.reverse.find? p = some m) :
    IsGreatest {x | x ∈ l ∧ p x = true} m := by
  obtain ⟨hpm, init, tail, hsplit, hinit⟩ := List.find?_eq_some_iff_append.1 h
  have hdesc : (init ++ m :: tail).Pairwise fun a b => b ≤ a := by
    rw [← hsplit]
    exact List.pairwise_reverse.2 hl
  have hmem : ∀ x, x ∈ l ↔ x ∈ init ++ m :: tail := fun x => by rw [← hsplit, List.mem_reverse]
  refine ⟨⟨(hmem m).2 (by simp), hpm⟩, ?_⟩
  rintro x ⟨hx, hpx⟩
  rcases List.mem_append.1 ((hmem x).1 hx) with hx | hx
  · exact absurd hpx (by simpa using hinit x hx)
  · rcases List.mem_cons.1 hx with rfl | hx
    · exact le_rfl
    · exact (List.pairwise_cons.1 (List.pairwise_append.1 hdesc).2.1).1 x hx

theorem lt_foldl_max {x a : α} : x < l.foldl max a ↔ x < a ∨ ∃ y ∈ l, x < y := by
  induction l generalizing a with
  | nil => simp
  | cons y l ih =>
    rw [List.foldl_cons, ih, lt_max_iff, or_assoc]
    simp

/-! ## Ranks -/

theorem finite_below (l : List α) (x : α) : {y | y ∈ l ∧ y < x}.Finite := l.finite_toSet.subset fun _ h => h.1

theorem ncard_mem (hl : l.Pairwise (· < ·)) : {y | y ∈ l}.ncard = l.length := by
  have hcoe : {y | y ∈ l} = (l.toFinset : Set α) := by
    ext y
    simp
  rw [hcoe, Set.ncard_coe_finset, List.toFinset_card_of_nodup (hl.imp ne_of_lt)]

/-- elements before the last one are below it -/
theorem lt_getLast {k : ℕ} {x : α} (hl : l.Pairwise (· < ·)) (hne : l ≠ []) (hk : l[k]? = some x)
    (hlt : k < l.length - 1) : x < l.getLast hne := by
  obtain ⟨hkl, rfl⟩ := List.getElem?_eq_some_iff.1 hk
  rw [List.getLast_eq_getElem hne]
  exact List.pairwise_iff_getElem.1 hl k (l.length - 1) hkl (by omega) hlt

/-- **the search by index, with its fallback** -/
theorem isLeast_findIdx?_getD (hl : l.Pairwise (· < ·)) (hne : l ≠ []) (d : α) :
    IsLeast {k | ∃ x, l[k]? = some x ∧ min d (l.getLast hne) ≤ x}
      ((l.findIdx? fun x => decide (d ≤ x)).getD (l.length - 1)) := by
  have hlen : 0 < l.length := List.length_pos_iff.2 hne
  cases hfind : l.findIdx? fun x => decide (d ≤ x) with
  | none =>
    rw [Option.getD_none]
    constructor
    · have hlast : l[l.length - 1]? = some (l.getLast hne) := by
        rw [List.getLast_eq_getElem hne]
        exact List.getElem?_eq_getElem (by omega)
      exact ⟨l.getLast hne, hlast, min_le_right _ _⟩
    · rintro k ⟨x, hx, hmin⟩
      -- no element reaches the target, so only the last one reaches the minimum
      have hbelow : ∀ y ∈ l, y < d := by
        simpa [List.findIdx?_eq_none_iff] using hfind
      by_contra hk
      have hxlast : x < l.getLast hne := lt_getLast hl hne hx (not_le.1 hk)
      have hxd : x < d := hbelow x (List.mem_of_getElem? hx)
      exact absurd hmin (not_le.2 (lt_min hxd hxlast))
  | some i =>
    obtain ⟨hi, hstop, hbefore⟩ := List.findIdx?_eq_some_iff_getElem.1 hfind
    rw [Option.getD_some]
    constructor
    · exact ⟨l[i], List.getElem?_eq_getElem hi, (min_le_left _ _).trans (by simpa using hstop)⟩
    · rintro k ⟨x, hx, hmin⟩
      by_contra hk
      have hxlast : x < l.getLast hne := lt_getLast hl hne hx (by omega)
      have hxd : x < d := by
        obtain ⟨hkl, rfl⟩ := List.getElem?_eq_some_iff.1 hx
        simpa using hbefore k (not_le.1 hk)
      exact absurd hmin (not_le.2 (lt_min hxd hxlast))

/-- **a cut keeps the elements whose rank is below it** -/
theorem mem_take_iff (hl : l.Pairwise (· < ·)) {n : ℕ} {x : α} :
    x ∈ l.take n ↔ x ∈ l ∧ {y | y ∈ l ∧ y < x}.ncard < n := by
  induction l generalizing n with
  | nil => simp
  | cons a l ih =>
    obtain ⟨ha, hl⟩ := List.pairwise_cons.1 hl
    rcases n with _ | n
    · simp
    · rw [List.take_succ_cons]
      by_cases hxa : x = a
      · subst hxa
        have hnone : {y | y ∈ x :: l ∧ y < x} = ∅ := by
          ext y
          simp only [Set.mem_ofPred_eq, List.mem_cons, Set.mem_empty_iff_false, iff_false, not_and, not_lt]
          rintro (rfl | hy)
          · exact le_rfl
          · exact (ha y hy).le
        rw [hnone, Set.ncard_empty]
        exact iff_of_true List.mem_cons_self ⟨List.mem_cons_self, Nat.succ_pos n⟩
      · rw [List.mem_cons, List.mem_cons, or_iff_right hxa, or_iff_right hxa, ih hl]
        apply and_congr_right
        intro hx
        have hinsert : {y | y ∈ a :: l ∧ y < x} = insert a {y | y ∈ l ∧ y < x} := by
          ext y
          simp only [Set.mem_ofPred_eq, List.mem_cons, Set.mem_insert_iff]
          constructor
          · rintro ⟨rfl | hy, hyx⟩
            · exact Or.inl rfl
            · exact Or.inr ⟨hy, hyx⟩
          · rintro (rfl | ⟨hy, hyx⟩)
            · exact ⟨Or.inl rfl, ha x hx⟩
            · exact ⟨Or.inr hy, hyx⟩
        have hnot : a ∉ {y | y ∈ l ∧ y < x} := fun h => lt_irrefl a (ha a h.1)
        rw [hinsert, Set.ncard_insert_of_notMem hnot (finite_below l x), Nat.add_lt_add_iff_right]

/-- a cut that keeps the last element keeps all -/
theorem length_le_of_mem_take {n : ℕ} (hl : l.Pairwise (· < ·)) (h : ∀ x ∈ l.getLast?, x ∈ l.take n) :
    l.length ≤ n := by
  rcases List.eq_nil_or_concat l with rfl | ⟨init, x, rfl⟩
  · exact Nat.zero_le n
  · have hx := h x (by simp)
    have hbelow : {y | y ∈ init.concat x ∧ y < x} = {y | y ∈ init} := by
      ext y
      rw [List.concat_eq_append, List.pairwise_append] at hl
      simp only [List.concat_eq_append, List.mem_append, List.mem_singleton, Set.mem_ofPred_eq]
      constructor
      · rintro ⟨hy | rfl, hyx⟩
        · exact hy
        · exact absurd hyx (lt_irrefl y)
      · exact fun hy => ⟨Or.inl hy, hl.2.2 y hy x (by simp)⟩
    have hinit : init.Pairwise (· < ·) := by
      rw [List.concat_eq_append, List.pairwise_append] at hl
      exact hl.1
    rw [mem_take_iff hl, hbelow, ncard_mem hinit] at hx
    rw [List.concat_eq_append, List.length_append]
    exact hx.2

end RyazhaClk.Ascending
