/-
The DVB table of a memory overclock. The rows up to 1600 MHz are the stock voltages, the rows from 1866 MHz on are
shifted by `emcDvbShift` steps of 25 mV and clamped; each generated frequency gets the row of its bracket.

- `dvbRow_of_mem`: each row holds its bracket, the cursor stays in front of the closing row.
- `column_below`, `column_above`: the voltage of a row, stock or shifted.
- `memFreqDvbTable_spec`: the table is written, within its bounds, and a column descends exactly where a shifted row
  falls below a stock row in front of it.
- `low_shift_descends`: two steps down, and 1866 MHz gets less than 1600 MHz.
-/
import RyazhaClk.Lib.Brackets
import RyazhaClk.Loader.MemoryPatches

namespace RyazhaClk.Loader

open Terminated Brackets

/-! ## The table of brackets -/

/-- the voltage of a process column -/
def DvbEntry.column (e : DvbEntry) (c : Fin 3) : ℕ := e.volt.get (c.castLE (by decide))

/-- the rows behind `stockBrackets`, before the shift -/
def shiftedBrackets : List (ℕ × Vector ℤ 3) :=
  [ (1866000, #v[700, 675, 650]), (2133000, #v[725, 700, 675]), (2246000, #v[750, 725, 700]),
    (2400000, #v[775, 750, 725]), (2466000, #v[800, 775, 750]), (2533000, #v[810, 785, 760]),
    (2566000, #v[820, 795, 770]), (2600000, #v[830, 805, 780]), (2633000, #v[840, 815, 790]),
    (2666000, #v[850, 825, 800]), (2700000, #v[860, 835, 810]), (2733000, #v[870, 845, 820]),
    (2766000, #v[880, 855, 830]), (2800000, #v[895, 865, 840]), (2833000, #v[900, 875, 850]),
    (2866000, #v[910, 885, 860]), (2900000, #v[920, 895, 870]), (2933000, #v[950, 905, 880]),
    (2966000, #v[960, 915, 890]), (3000000, #v[970, 925, 900]), (3033000, #v[980, 940, 910]),
    (3066000, #v[1000, 955, 920]), (3100000, #v[1010, 990, 930]), (3133000, #v[1025, 1005, 940]),
    (3166000, #v[1035, 1015, 950]), (3200000, #v[1050, 1025, 960]) ]

def firstShifted : ℕ := 1866000

variable (C : CustomizeTable)

def shiftedRow (r : ℕ × Vector ℤ 3) : DvbEntry := ⟨r.1, dvbVolt C (r.2.get 0) (r.2.get 1) (r.2.get 2)⟩

/-- `~0u`, which no frequency reaches -/
def closingRow : DvbEntry := ⟨2 ^ 32 - 1, Vector.replicate 4 0⟩

theorem emcDvbOcTableBrackets_eq :
    emcDvbOcTableBrackets C = stockBrackets ++ (shiftedBrackets.map (shiftedRow C) ++ [closingRow]) := rfl

/-- `max0`, `max1` and `max2` -/
def columnMax (c : Fin 3) : ℤ := dvbMax C ((#v[1050, 1025, 1000] : Vector ℤ 3).get c)

/-- the stock voltage of a frequency -/
def stockVolt (c : Fin 3) (f : ℕ) : ℕ := ((bracketOf DvbEntry.freq stockBrackets f).map (·.column c)).getD 0

/-- the voltage of a frequency before the shift -/
def baseVolt (c : Fin 3) (f : ℕ) : ℤ := ((bracketOf Prod.fst shiftedBrackets f).map (·.2.get c)).getD 0

/-- the first column, the highest of the three -/
def topVolt (f : ℕ) : ℤ := baseVolt 0 f

/-! ## The sums in `s32` -/

def InS32 (n : ℤ) : Prop := -2 ^ 31 ≤ n ∧ n < 2 ^ 31

instance (n : ℤ) : Decidable (InS32 n) := by
  unfold InS32
  infer_instance

/-- neither `voltAdd` nor a sum of `ClampVolt` overflows -/
def DvbSumsFit : Prop :=
  InS32 (25 * C.emcDvbShift) ∧ ∀ r ∈ shiftedBrackets, ∀ c : Fin 3, InS32 (r.2.get c + 25 * C.emcDvbShift)

instance : Decidable (DvbSumsFit C) := by
  unfold DvbSumsFit
  infer_instance

/-- `MemFreqDvbTable` with its signed sums: `none` where one overflows, which has no defined result -/
def memFreqDvbTableS32 (newEmcList : List ℕ) (dvb : List DvbEntry) : Option (Except PatchFailure (List DvbEntry)) :=
  if dvb.take emcDvbTableDefault.length = emcDvbTableDefault ∧ emcClkOSLimit < C.marikoEmcMaxClock ∧ ¬ DvbSumsFit C then
    none
  else some (memFreqDvbTable C newEmcList dvb)

variable {C}

theorem shiftedBrackets_column (c : Fin 3) :
    shiftedBrackets.Pairwise fun r s => r.1 < s.1 ∧ r.2.get c ≤ s.2.get c := by
  revert c
  decide

theorem shiftedBrackets_between (c : Fin 3) :
    ∀ r ∈ shiftedBrackets, firstShifted ≤ r.1 ∧ r.1 ≤ 3200000 ∧ 0 ≤ r.2.get c ∧ r.2.get c ≤ 1050 := by
  revert c
  decide

theorem dvbSumsFit_iff : DvbSumsFit C ↔ -2 ^ 31 ≤ 25 * C.emcDvbShift ∧ 25 * C.emcDvbShift + 1050 < 2 ^ 31 := by
  constructor
  · rintro ⟨hprod, hsum⟩
    have htop := hsum (3200000, #v[1050, 1025, 960]) (by decide) 0
    refine ⟨hprod.1, ?_⟩
    have hlt := htop.2
    rwa [add_comm] at hlt
  · rintro ⟨hlow, hhigh⟩
    refine ⟨⟨hlow, by omega⟩, ?_⟩
    intro r hr c
    obtain ⟨-, -, h0, htop⟩ := shiftedBrackets_between c r hr
    refine ⟨?_, ?_⟩ <;> omega

/-! ## Voltages of a bracket -/

/-- what `SafetyCheck` leaves of `marikoSocVmax` -/
def SocVmaxChecked (C : CustomizeTable) : Prop :=
  C.marikoSocVmax = 0 ∨ (1000 ≤ C.marikoSocVmax ∧ C.marikoSocVmax ≤ 1200)

theorem columnMax_between (hsoc : SocVmaxChecked C) (c : Fin 3) : 1000 ≤ columnMax C c ∧ columnMax C c ≤ 1200 := by
  have hstock : ∀ c, 1000 ≤ (#v[1050, 1025, 1000] : Vector ℤ 3).get c ∧ (#v[1050, 1025, 1000] : Vector ℤ 3).get c ≤ 1050 := by
    decide
  unfold columnMax dvbMax
  rcases hsoc with habsent | ⟨hmin, hmax⟩
  · rw [if_neg (by simp [habsent])]
    have h := hstock c
    omega
  · by_cases hraised : C.marikoSocVmax ≠ 0 ∧ C.marikoSocVmax > 1000
    · rw [if_pos hraised]
      omega
    · rw [if_neg hraised]
      have h := hstock c
      omega

theorem clampVolt_eq {value m : ℤ} (hlow : 637 ≤ m) (hhigh : m < 2 ^ 32) :
    (clampVolt C value m : ℤ) = max 637 (min m (value + 25 * C.emcDvbShift)) := by
  unfold clampVolt
  dsimp only
  by_cases hunder : value + 25 * C.emcDvbShift < 637
  · rw [if_pos hunder]
    omega
  · by_cases hover : m < value + 25 * C.emcDvbShift
    · rw [if_neg hunder, if_pos hover]
      omega
    · rw [if_neg hunder, if_neg hover]
      omega

/-- the shift as the clamp leaves it -/
def shiftedVolt (C : CustomizeTable) (c : Fin 3) (base : ℤ) : ℤ :=
  max 637 (min (columnMax C c) (base + 25 * C.emcDvbShift))

theorem shiftedRow_column (hsoc : SocVmaxChecked C) (r : ℕ × Vector ℤ 3) (c : Fin 3) :
    ((shiftedRow C r).column c : ℤ) = shiftedVolt C c (r.2.get c) := by
  have hmax := columnMax_between hsoc c
  have hclamp := @clampVolt_eq C (r.2.get c) (columnMax C c) (by omega) (by omega)
  rw [shiftedVolt, ← hclamp]
  fin_cases c <;> rfl

theorem shiftedVolt_mono {c : Fin 3} {v w : ℤ} (h : v ≤ w) : shiftedVolt C c v ≤ shiftedVolt C c w := by
  unfold shiftedVolt
  omega

theorem brackets_pairwise : (emcDvbOcTableBrackets C).Pairwise fun a b => a.freq < b.freq := by
  have hkeys : ((emcDvbOcTableBrackets C).map DvbEntry.freq).Pairwise (· < ·) := by
    have hfreq : DvbEntry.freq ∘ shiftedRow C = Prod.fst := rfl
    rw [emcDvbOcTableBrackets_eq, List.map_append, List.map_append, List.map_map, hfreq]
    decide
  exact List.pairwise_map.1 hkeys

/-- the bracket of a frequency below 1866 MHz is a stock row -/
theorem bracket_below {f : ℕ} {b : DvbEntry} (h : IsBracket DvbEntry.freq (emcDvbOcTableBrackets C) f b)
    (hf : f < firstShifted) : IsBracket DvbEntry.freq stockBrackets f b := by
  rw [emcDvbOcTableBrackets_eq] at h
  apply h.of_append_left
  intro c hc
  apply hf.trans_le
  rcases List.mem_append.1 hc with hc | hc
  · obtain ⟨r, hr, rfl⟩ := List.mem_map.1 hc
    exact (shiftedBrackets_between 0 r hr).1
  · rw [List.mem_singleton.1 hc]
    decide

/-- the bracket of a frequency from 1866 MHz on is a shifted row -/
theorem bracket_above {f : ℕ} {b : DvbEntry} (h : IsBracket DvbEntry.freq (emcDvbOcTableBrackets C) f b)
    (hf : firstShifted ≤ f) (htop : f ≤ 3500000) :
    ∃ r, b = shiftedRow C r ∧ IsBracket Prod.fst shiftedBrackets f r := by
  have htable := @brackets_pairwise C
  rw [emcDvbOcTableBrackets_eq] at h htable
  have hback : ∃ c ∈ shiftedBrackets.map (shiftedRow C) ++ [closingRow], c.freq ≤ f := by
    refine ⟨shiftedRow C (1866000, #v[700, 675, 650]), ?_, hf⟩
    exact List.mem_append_left _ (List.mem_map_of_mem (by decide))
  have hshifted := (h.of_append_right htable hback).of_append_left (by
    intro c hc
    rw [List.mem_singleton.1 hc]
    exact htop.trans_lt (by decide))
  exact hshifted.of_map

theorem column_below {f : ℕ} {b : DvbEntry} (h : IsBracket DvbEntry.freq (emcDvbOcTableBrackets C) f b)
    (hf : f < firstShifted) (c : Fin 3) : b.column c = stockVolt c f := by
  have hsearch := (bracketOf_eq_some_iff (by decide)).2 (bracket_below h hf)
  rw [stockVolt, hsearch]
  rfl

theorem column_above {f : ℕ} {b : DvbEntry} (hsoc : SocVmaxChecked C)
    (h : IsBracket DvbEntry.freq (emcDvbOcTableBrackets C) f b) (hf : firstShifted ≤ f) (htop : f ≤ 3500000) (c : Fin 3) :
    (b.column c : ℤ) = shiftedVolt C c (baseVolt c f) := by
  obtain ⟨r, rfl, hr⟩ := bracket_above h hf htop
  have hsearch := (bracketOf_eq_some_iff ((shiftedBrackets_column c).imp And.left)).2 hr
  rw [baseVolt, hsearch]
  exact shiftedRow_column hsoc r c

/-! ## Order of the voltages -/

theorem stockBrackets_column (c : Fin 3) :
    stockBrackets.Pairwise (fun a b => a.freq < b.freq ∧ a.column c ≤ b.column c) ∧
      ∀ b ∈ stockBrackets, 637 ≤ b.column c ∧ b.column c ≤ 675 := by
  revert c
  decide

variable {f g : ℕ} {b b' : DvbEntry}

/-- two rows on one side of 1866 MHz are in order -/
theorem column_le_of_sameSide (hsoc : SocVmaxChecked C) (hb : IsBracket DvbEntry.freq (emcDvbOcTableBrackets C) f b)
    (hb' : IsBracket DvbEntry.freq (emcDvbOcTableBrackets C) g b') (hfg : f ≤ g) (htop : g ≤ 3500000)
    (hside : f < firstShifted ↔ g < firstShifted) (c : Fin 3) : b.column c ≤ b'.column c := by
  by_cases hf : f < firstShifted
  · have hstock := (stockBrackets_column c).1
    exact IsBracket.mono (hstock.imp And.left) (hstock.imp And.right) (bracket_below hb hf)
      (bracket_below hb' (hside.1 hf)) hfg
  · have hg : firstShifted ≤ g := not_lt.1 (fun hg => hf (hside.2 hg))
    rw [not_lt] at hf
    obtain ⟨r, rfl, hr⟩ := bracket_above hb hf (hfg.trans htop)
    obtain ⟨s, rfl, hs⟩ := bracket_above hb' hg htop
    have hbase := shiftedBrackets_column c
    have hle : r.2.get c ≤ s.2.get c :=
      IsBracket.mono (f := fun r : ℕ × Vector ℤ 3 => r.2.get c) (hbase.imp And.left) (hbase.imp And.right) hr hs hfg
    have hvolt := shiftedVolt_mono (C := C) (c := c) hle
    rw [← shiftedRow_column hsoc r c, ← shiftedRow_column hsoc s c] at hvolt
    exact_mod_cast hvolt

/-- a stock row is not above a shifted row behind it, in column `c` -/
def CrossOrdered (C : CustomizeTable) (c : Fin 3) (f g : ℕ) : Prop :=
  stockVolt c f ≤ 637 ∨ (stockVolt c f : ℤ) ≤ baseVolt c g + 25 * C.emcDvbShift

theorem column_le_iff_cross (hsoc : SocVmaxChecked C) (hb : IsBracket DvbEntry.freq (emcDvbOcTableBrackets C) f b)
    (hb' : IsBracket DvbEntry.freq (emcDvbOcTableBrackets C) g b') (hf : f < firstShifted) (hg : firstShifted ≤ g)
    (htop : g ≤ 3500000) (c : Fin 3) : b.column c ≤ b'.column c ↔ CrossOrdered C c f g := by
  have hstock := (stockBrackets_column c).2 b (bracket_below hb hf).mem
  have hmax := columnMax_between hsoc c
  have habove := column_above hsoc hb' hg htop c
  rw [shiftedVolt] at habove
  rw [CrossOrdered, ← column_below hb hf c]
  omega

/-! ## The rows -/

theorem advanceBracket_eq (f : ℕ) (brackets : List DvbEntry) :
    advanceBracket f brackets = advance DvbEntry.freq f brackets := by
  induction brackets with
  | nil => rfl
  | cons b rest ih =>
    rcases rest with _ | ⟨next, rest⟩
    · rfl
    · rw [advanceBracket, advance, ih]

/-- a row with the voltages of the bracket the cursor points at -/
def dvbRow (f : ℕ) (found : Option DvbEntry) : DvbEntry := ⟨f, (found.getD DvbEntry.zero).volt⟩

theorem emcDvbTableOc_eq (newEmcList : List ℕ) (brackets : List DvbEntry) :
    emcDvbTableOc newEmcList brackets = List.zipWith dvbRow newEmcList (sweep DvbEntry.freq newEmcList brackets) := by
  induction newEmcList generalizing brackets with
  | nil => rfl
  | cons f freqs ih =>
    rw [emcDvbTableOc, sweep, List.zipWith_cons_cons, ← ih, advanceBracket_eq]
    rfl

/-- a row with the voltages of the bracket of its frequency -/
def HasBracket (C : CustomizeTable) (row : DvbEntry) : Prop :=
  ∃ b, IsBracket DvbEntry.freq (emcDvbOcTableBrackets C) row.freq b ∧ row.volt = b.volt

theorem zipWith_dvbRow {newEmcList : List ℕ} {found : List (Option DvbEntry)}
    (h : List.Forall₂ (fun f b => ∃ c, b = some c ∧ IsBracket DvbEntry.freq (emcDvbOcTableBrackets C) f c) newEmcList found) :
    (List.zipWith dvbRow newEmcList found).map DvbEntry.freq = newEmcList ∧
      ∀ row ∈ List.zipWith dvbRow newEmcList found, HasBracket C row := by
  induction h with
  | nil => simp
  | cons hfound _ ih =>
    obtain ⟨c, rfl, hc⟩ := hfound
    refine ⟨?_, ?_⟩
    · rw [List.zipWith_cons_cons, List.map_cons, ih.1]
      rfl
    · intro row hrow
      rcases List.mem_cons.1 hrow with rfl | hrow
      · exact ⟨c, hc, rfl⟩
      · exact ih.2 row hrow

variable {newEmcList : List ℕ}

theorem emcDvbTableOc_rows (hlist : newEmcList.Pairwise (· ≤ ·)) (hlow : ∀ f ∈ newEmcList, 204000 ≤ f) :
    (emcDvbTableOc newEmcList (emcDvbOcTableBrackets C)).map DvbEntry.freq = newEmcList ∧
      ∀ row ∈ emcDvbTableOc newEmcList (emcDvbOcTableBrackets C), HasBracket C row := by
  rw [emcDvbTableOc_eq]
  apply zipWith_dvbRow
  exact sweep_isBracket brackets_pairwise hlist (List.nil_append _).symm hlow

theorem HasBracket.column_eq {row b : DvbEntry} (h : row.volt = b.volt) (c : Fin 3) : row.column c = b.column c := by
  rw [DvbEntry.column, h]
  rfl

/-- **what is written for an ascending list**: its frequencies, each with its bracket, within 637 mV and the maximum of
the column; a column descends only from a stock row to a shifted one -/
structure DvbTableWritten (C : CustomizeTable) (newEmcList : List ℕ) (rows : List DvbEntry) : Prop where
  freqs : rows.map DvbEntry.freq = newEmcList
  bracket : ∀ row ∈ rows, HasBracket C row
  bounds : ∀ row ∈ rows, ∀ c, 637 ≤ row.column c ∧ (row.column c : ℤ) ≤ columnMax C c
  sameSide : ∀ c, rows.Pairwise fun r s => (r.freq < firstShifted ↔ s.freq < firstShifted) → r.column c ≤ s.column c
  ordered_iff : ∀ c, (rows.map (·.column c)).Pairwise (· ≤ ·) ↔
    ∀ f ∈ newEmcList, ∀ g ∈ newEmcList, f < firstShifted → firstShifted ≤ g → CrossOrdered C c f g

theorem column_bounds (hsoc : SocVmaxChecked C) {row : DvbEntry} (hrow : HasBracket C row) (htop : row.freq ≤ 3500000)
    (c : Fin 3) : 637 ≤ row.column c ∧ (row.column c : ℤ) ≤ columnMax C c := by
  obtain ⟨b, hb, hvolt⟩ := hrow
  have hmax := columnMax_between hsoc c
  rw [HasBracket.column_eq hvolt]
  by_cases hf : row.freq < firstShifted
  · have hstock := (stockBrackets_column c).2 b (bracket_below hb hf).mem
    omega
  · have habove := column_above hsoc hb (not_lt.1 hf) htop c
    rw [shiftedVolt] at habove
    omega

/-- two rows in order of their frequencies -/
theorem row_le_iff (hsoc : SocVmaxChecked C) {r s : DvbEntry} (hr : HasBracket C r) (hs : HasBracket C s)
    (hrs : r.freq ≤ s.freq) (htop : s.freq ≤ 3500000) (c : Fin 3) :
    r.column c ≤ s.column c ↔ (r.freq < firstShifted → firstShifted ≤ s.freq → CrossOrdered C c r.freq s.freq) := by
  obtain ⟨b, hb, hbvolt⟩ := hr
  obtain ⟨b', hb', hbvolt'⟩ := hs
  rw [HasBracket.column_eq hbvolt, HasBracket.column_eq hbvolt']
  by_cases hcross : r.freq < firstShifted ∧ firstShifted ≤ s.freq
  · rw [column_le_iff_cross hsoc hb hb' hcross.1 hcross.2 htop c]
    simp [hcross.1, hcross.2]
  · have hside : r.freq < firstShifted ↔ s.freq < firstShifted := by omega
    refine iff_of_true (column_le_of_sameSide hsoc hb hb' hrs htop hside c) ?_
    intro hf hg
    exact absurd ⟨hf, hg⟩ hcross

theorem emcDvbTableOc_written (hlist : newEmcList.Pairwise (· ≤ ·))
    (hrange : ∀ f ∈ newEmcList, 204000 ≤ f ∧ f ≤ 3500000) (hsoc : SocVmaxChecked C) :
    DvbTableWritten C newEmcList (emcDvbTableOc newEmcList (emcDvbOcTableBrackets C)) := by
  obtain ⟨hfreqs, hbracket⟩ := emcDvbTableOc_rows (C := C) hlist fun f hf => (hrange f hf).1
  generalize emcDvbTableOc newEmcList (emcDvbOcTableBrackets C) = rows at hfreqs hbracket
  have htop : ∀ row ∈ rows, row.freq ≤ 3500000 := by
    intro row hrow
    apply (hrange row.freq _).2
    rw [← hfreqs]
    exact List.mem_map_of_mem hrow
  have hsorted : rows.Pairwise fun r s => r.freq ≤ s.freq := by
    rw [← List.pairwise_map, hfreqs]
    exact hlist
  have hrows : ∀ c, rows.Pairwise fun r s =>
      r.column c ≤ s.column c ↔ (r.freq < firstShifted → firstShifted ≤ s.freq → CrossOrdered C c r.freq s.freq) := by
    intro c
    apply hsorted.imp_of_mem
    intro r s hr hs hrs
    exact row_le_iff hsoc (hbracket r hr) (hbracket s hs) hrs (htop s hs) c
  refine ⟨hfreqs, hbracket, fun row hrow => column_bounds hsoc (hbracket row hrow) (htop row hrow), ?_, ?_⟩
  · intro c
    apply (hrows c).imp
    intro r s hiff hside
    exact hiff.2 fun hf hg => absurd (hside.1 hf) (not_lt.2 hg)
  · intro c
    rw [List.pairwise_map]
    constructor
    · intro hcol f hf g hg hbelow habove
      rw [← hfreqs] at hf hg
      obtain ⟨r, hr, rfl⟩ := List.mem_map.1 hf
      obtain ⟨s, hs, rfl⟩ := List.mem_map.1 hg
      have hlt : r.freq < s.freq := hbelow.trans_le habove
      exact (rel_of_key_lt hsorted (hrows c) hr hs hlt).1 (rel_of_key_lt hsorted hcol hr hs hlt) hbelow habove
    · intro hcross
      apply (hrows c).imp_of_mem
      intro r s hr hs hiff
      refine hiff.2 (hcross r.freq ?_ s.freq ?_)
      · rw [← hfreqs]
        exact List.mem_map_of_mem hr
      · rw [← hfreqs]
        exact List.mem_map_of_mem hs

/-! ## Shifts that keep the order -/

theorem stockVolt_le (c : Fin 3) (f : ℕ) : stockVolt c f ≤ (#v[675, 650, 637] : Vector ℕ 3).get c := by
  have hall : ∀ c, ∀ b ∈ stockBrackets, b.column c ≤ (#v[675, 650, 637] : Vector ℕ 3).get c := by decide
  unfold stockVolt
  rcases hsearch : bracketOf DvbEntry.freq stockBrackets f with _ | b
  · exact Nat.zero_le _
  · exact hall c b (List.mem_filter.1 (List.mem_of_getLast? hsearch)).1

theorem le_baseVolt (c : Fin 3) {g : ℕ} (hg : firstShifted ≤ g) : (#v[700, 675, 650] : Vector ℤ 3).get c ≤ baseVolt c g := by
  have hall : ∀ c, ∀ r ∈ shiftedBrackets, (#v[700, 675, 650] : Vector ℤ 3).get c ≤ r.2.get c := by decide
  have hfirst : (1866000, #v[700, 675, 650]) ∈ shiftedBrackets := by decide
  obtain ⟨r, hr, hsearch⟩ := exists_bracketOf hfirst (show Prod.fst (1866000, #v[700, 675, 650]) ≤ g from hg)
  rw [baseVolt, hsearch]
  exact hall c r hr

/-- one step down costs nothing, and the third column has only 637 mV in front of the shifted rows -/
theorem crossOrdered_of {c : Fin 3} (h : -1 ≤ C.emcDvbShift ∨ c = 2) (f : ℕ) {g : ℕ} (hg : firstShifted ≤ g) :
    CrossOrdered C c f g := by
  have hstock := stockVolt_le c f
  have hbase := le_baseVolt c hg
  unfold CrossOrdered
  by_cases hthird : c = 2
  · left
    rw [hthird] at hstock ⊢
    exact hstock
  · right
    have hstep : ∀ c : Fin 3, c ≠ 2 →
        ((#v[675, 650, 637] : Vector ℕ 3).get c : ℤ) ≤ (#v[700, 675, 650] : Vector ℤ 3).get c - 25 := by
      decide
    have hshift := h.resolve_right hthird
    calc (stockVolt c f : ℤ) ≤ ((#v[675, 650, 637] : Vector ℕ 3).get c : ℤ) := by exact_mod_cast hstock
      _ ≤ (#v[700, 675, 650] : Vector ℤ 3).get c - 25 := hstep c hthird
      _ ≤ baseVolt c g + 25 * C.emcDvbShift := by omega

/-! ## The patch -/

/-- a column is in ascending order -/
def ColumnOrdered (rows : List DvbEntry) (c : Fin 3) : Prop := (rows.map (·.column c)).Pairwise (· ≤ ·)

instance (rows : List DvbEntry) (c : Fin 3) : Decidable (ColumnOrdered rows c) := by
  unfold ColumnOrdered
  infer_instance

theorem memFreqDvbTableS32_eq {dvb : List DvbEntry} (hfit : DvbSumsFit C)
    (hstock : dvb.take emcDvbTableDefault.length = emcDvbTableDefault) (hoc : emcClkOSLimit < C.marikoEmcMaxClock) :
    memFreqDvbTableS32 C newEmcList dvb = some (.ok (overlay (emcDvbTableOc newEmcList (emcDvbOcTableBrackets C))
      (overlay (List.replicate emcDvbTableDefault.length DvbEntry.zero) dvb))) := by
  rw [memFreqDvbTableS32, if_neg (by simp [hfit]), memFreqDvbTable, if_neg (not_not.2 hstock), if_neg (not_le.2 hoc)]

/-- **with sums that fit, `MemFreqDvbTable` writes the row of each frequency; the third column ascends, and with a shift
from -1 on all three do** -/
theorem memFreqDvbTable_spec {dvb : List DvbEntry} (hlist : newEmcList.Pairwise (· ≤ ·))
    (hrange : ∀ f ∈ newEmcList, 204000 ≤ f ∧ f ≤ 3500000) (hsoc : SocVmaxChecked C)
    (hlow : -2 ^ 31 ≤ 25 * C.emcDvbShift) (hhigh : 25 * C.emcDvbShift + 1050 < 2 ^ 31)
    (hstock : dvb.take emcDvbTableDefault.length = emcDvbTableDefault) (hoc : emcClkOSLimit < C.marikoEmcMaxClock) :
    ∃ dvb', memFreqDvbTableS32 C newEmcList dvb = some (.ok dvb') ∧
      DvbTableWritten C newEmcList (dvb'.take newEmcList.length) ∧
      ColumnOrdered (dvb'.take newEmcList.length) 2 ∧
      (-1 ≤ C.emcDvbShift → ∀ c, ColumnOrdered (dvb'.take newEmcList.length) c) := by
  have hfit : DvbSumsFit C := dvbSumsFit_iff.2 ⟨hlow, hhigh⟩
  have hwritten := emcDvbTableOc_written hlist hrange hsoc
  have hlength : newEmcList.length = (emcDvbTableOc newEmcList (emcDvbOcTableBrackets C)).length := by
    have h := congrArg List.length hwritten.freqs
    rw [List.length_map] at h
    exact h.symm
  refine ⟨_, memFreqDvbTableS32_eq hfit hstock hoc, ?_⟩
  rw [overlay, List.take_left' hlength.symm]
  refine ⟨hwritten, ?_, ?_⟩
  · exact (hwritten.ordered_iff 2).2 fun f _ g _ _ hg => crossOrdered_of (Or.inr rfl) f hg
  · intro hshift c
    exact (hwritten.ordered_iff c).2 fun f _ g _ _ hg => crossOrdered_of (Or.inl hshift) f hg

/-- the memory of the sample, two steps down: 2133 MHz in JEDEC steps -/
def loweredCustomize : CustomizeTable :=
  { sampleCustomize with
    stepMode := StepMode_Jedec
    emcDvbShift := -2 }

def loweredList : List ℕ := [204000, 1331200, 1600000, 1866000, 1996000, 2133000]

theorem loweredCustomize_written :
    ∃ dvb', memFreqDvbTableS32 loweredCustomize loweredList emcDvbTableDefault = some (.ok dvb') ∧
      DvbTableWritten loweredCustomize loweredList (dvb'.take loweredList.length) ∧
      ColumnOrdered (dvb'.take loweredList.length) 2 ∧
      (-1 ≤ loweredCustomize.emcDvbShift → ∀ c, ColumnOrdered (dvb'.take loweredList.length) c) :=
  memFreqDvbTable_spec (by decide) (by decide) (Or.inl rfl) (by decide) (by decide) rfl (by decide)

/-- 1600 MHz keeps 675 mV and 1866 MHz gets 650 mV; and with the largest shifts the sums overflow -/
theorem low_shift_descends :
    (¬ ∀ (C : CustomizeTable) (newEmcList : List ℕ) (dvb dvb' : List DvbEntry),
      mtcGenerateFreqTables C = some newEmcList → SocVmaxChecked C → InS32 (25 * C.emcDvbShift) →
      memFreqDvbTableS32 C newEmcList dvb = some (.ok dvb') → ∀ c, ColumnOrdered (dvb'.take newEmcList.length) c) ∧
    ¬ ∀ (C : CustomizeTable) (newEmcList : List ℕ) (dvb : List DvbEntry),
      mtcGenerateFreqTables C = some newEmcList → SocVmaxChecked C → InS32 (25 * C.emcDvbShift) →
      ∃ r, memFreqDvbTableS32 C newEmcList dvb = some r := by
  refine ⟨?_, ?_⟩
  · intro hclaim
    have h := hclaim loweredCustomize loweredList emcDvbTableDefault _ rfl (Or.inl rfl) (by decide) rfl 0
    exact absurd h (by decide)
  · intro hclaim
    obtain ⟨r, hr⟩ := hclaim { loweredCustomize with emcDvbShift := 85899345 } loweredList emcDvbTableDefault rfl
      (Or.inl rfl) (by decide)
    have hnone : memFreqDvbTableS32 { loweredCustomize with emcDvbShift := 85899345 } loweredList emcDvbTableDefault = none :=
      if_pos ⟨rfl, by decide, by decide⟩
    rw [hnone] at hr
    cases hr

end RyazhaClk.Loader
