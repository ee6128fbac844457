/-
An INI file as a store of sections: `ini_putsection` writes one, `ini_browse` reads them all.

- `Tidy.put`: on a tidy file the call ends, and the file it writes is tidy again.
- `browse_rewritten`: the reader then finds the new keys in the place of the old ones, and all other calls in their order.
- `putRun_refines`: after any list of writes each section reads as it was written last.
-/
import Mathlib.Tactic
import RyazhaClk.Sysmodule.IniBrowse

namespace RyazhaClk.MinIni

open RyazhaClk.Lines

variable {n : ℕ} {sect old new : Text} {keys : List (Text × Text)} {pre gone post : List Text}

/-! ## One write -/

/-- the lines of a file that has been rewritten: those in front of the section, those that go, and those behind it -/
structure Split (n : ℕ) (sect : Text) (keys : List (Text × Text)) (old new : Text) (pre gone post : List Text) : Prop where
  new : new = (pre ++ sectionLines sect keys ++ post).flatten
  lined : Lined newline 511 (pre ++ sectionLines sect keys ++ post)
  oldCalls : calls [] (lines newline 511 old) = calls [] (pre ++ gone ++ post)
  oldNames : (lines newline 511 old).filterMap headingName = (pre ++ gone ++ post).filterMap headingName
  tidy : ∀ l ∈ pre ++ post, TidyLine n l
  kept : ∀ name ∈ (pre ++ post).filterMap headingName, sameName name sect = false
  gone : gone = [] ∨ ∃ head body name, gone = head :: body ∧ head.length ≤ 512 ∧ headingName head = some name ∧
    sameName name sect = true ∧ ∀ l ∈ body, l.length ≤ 512 ∧ headingName l = none
  next : ∀ l ∈ post.head?, headingName l ≠ none

theorem headingName_of_not {l : Text} (h : isHeading l = false) : headingName l = none := by
  simp [headingName, h]

/-- the names of other sections are not the one of this section -/
theorem sameName_false_of_distinct {name other : Text} (hdistinct : sameName name other = false)
    (hsame : sameName name sect = true) : sameName other sect = false := by
  by_contra hother
  have htrans := sameName_trans hsame (sameName_comm other sect ▸ Bool.of_not_eq_false hother)
  rw [hdistinct] at htrans
  cases htrans

/-- the section stands in the file -/
theorem Tidy.split_found {head : Text} {body : List Text} (hold : Tidy n old) (hw : Writable n sect keys)
    (hat : Copying.SectionAt sect old pre head body post)
    (hnew : new = pre.flatten ++ Copying.sectionText sect keys ++ post.flatten) :
    Split n sect keys old new pre (head :: body) post := by
  have hlined : Lined newline 511 (lines newline 511 old) := lined_lines (by norm_num) old
  have hlines := hat.lines
  have htidy := hold.line
  have hdistinct := hold.distinct
  rw [hlines] at hlined htidy hdistinct
  have hshort : ∀ l ∈ pre ++ head :: (body ++ post), l.length ≤ 510 := fun l hl => by
    have hline := (htidy l hl).fitting.line
    omega
  have hpre : ∀ l ∈ pre, l ∈ pre ++ head :: (body ++ post) := fun l hl => List.mem_append_left _ hl
  have hpost : ∀ l ∈ post, l ∈ pre ++ head :: (body ++ post) := fun l hl => by simp [hl]
  have hhead : head ∈ pre ++ head :: (body ++ post) := by simp
  obtain ⟨name, hname, hsame⟩ := (headingMatches_iff hw.sectChars.1 (htidy head hhead).noNul).1 hat.heading
  constructor
  case new => rw [hnew, List.flatten_append, List.flatten_append, flatten_sectionLines]
  case lined =>
    have hends : ∀ l ∈ pre, Terminated newline l :=
      hlined.all_terminated (List.cons_ne_nil _ _) fun l hl => Nat.lt_succ_of_le (hshort l (hpre l hl))
    have hrest : Lined newline 511 post := by
      have hafter : Lined newline 511 ((head :: body) ++ post) := hlined.of_append
      exact hafter.of_append
    rw [List.append_assoc]
    refine Lined.append (fun l hl => ⟨hends l hl, (hshort l (hpre l hl)).trans (by norm_num)⟩) ?_
    refine Lined.append (fun l hl => ⟨hw.lines_terminated l hl, ?_⟩) hrest
    have hlen := hw.length_lines l hl
    omega
  case oldCalls => rw [hlines, List.append_assoc, List.cons_append]
  case oldNames => rw [hlines, List.append_assoc, List.cons_append]
  case tidy =>
    intro l hl
    obtain hl | hl := List.mem_append.1 hl
    · exact htidy l (hpre l hl)
    · exact htidy l (hpost l hl)
  case kept =>
    intro other hother
    obtain ⟨l, hl, hlname⟩ := List.mem_filterMap.1 hother
    obtain hl | hl := List.mem_append.1 hl
    · by_contra hsect
      have hmatch := (headingMatches_iff hw.sectChars.1 (htidy l (hpre l hl)).noNul).2
        ⟨other, hlname, Bool.of_not_eq_false hsect⟩
      rw [hat.before l hl] at hmatch
      cases hmatch
    · rw [List.filterMap_append, List.filterMap_cons, hname, List.pairwise_append, List.pairwise_cons] at hdistinct
      exact sameName_false_of_distinct
        (hdistinct.2.1.1 other (List.mem_filterMap.2 ⟨l, List.mem_append_right _ hl, hlname⟩)) hsame
  case gone =>
    refine Or.inr ⟨head, body, name, rfl, (hshort head hhead).trans (by norm_num), hname, hsame, fun l hl => ?_⟩
    exact ⟨(hshort l (by simp [hl])).trans (by norm_num), headingName_of_not (hat.inside l hl)⟩
  case next =>
    intro l hl
    exact (htidy l (hpost l (List.mem_of_mem_head? hl))).closed (hat.next l hl)

/-- the section is added behind the last line -/
theorem Tidy.split_absent {sep : Text} (hold : Tidy n old) (hw : Writable n sect keys)
    (habsent : ∀ l ∈ lines newline 511 old, headingMatches sect l = false)
    (hsep : sep = [newline] ∨ sep = [] ∧ old.getLast? = some newline)
    (hnew : new = old ++ sep ++ Copying.sectionText sect keys) : ∃ pre, Split n sect keys old new pre [] [] := by
  have hheading := hw.heading
  have hflatten : (lines newline 511 old).flatten = old := flatten_lines (by norm_num) old
  obtain ⟨pre, hpre, htidy, hcalls, hnames⟩ := complete_lines (lined_lines (by norm_num) old) hold.line (by omega)
    (by rwa [hflatten])
  refine ⟨pre, ?_⟩
  constructor
  case new => rw [hnew, List.flatten_append, List.flatten_append, flatten_sectionLines, hpre, hflatten,
    List.flatten_nil, List.append_nil]
  case lined =>
    rw [List.append_assoc]
    refine Lined.append (fun l hl => ⟨(htidy l hl).2, ?_⟩)
      (Lined.append (fun l hl => ⟨hw.lines_terminated l hl, ?_⟩) True.intro)
    · have hline := (htidy l hl).1.fitting.line
      omega
    · have hlen := hw.length_lines l hl
      omega
  case oldCalls => rw [List.append_nil, List.append_nil, hcalls]
  case oldNames => rw [List.append_nil, List.append_nil, hnames]
  case tidy => exact fun l hl => (htidy l (by simpa using hl)).1
  case kept =>
    intro other hother
    rw [List.append_nil, hnames] at hother
    obtain ⟨l, hl, hlname⟩ := List.mem_filterMap.1 hother
    by_contra hsect
    have hmatch := (headingMatches_iff hw.sectChars.1 (hold.line l hl).noNul).2 ⟨other, hlname, Bool.of_not_eq_false hsect⟩
    rw [habsent l hl] at hmatch
    cases hmatch
  case gone => exact Or.inl rfl
  case next => exact fun l hl => absurd hl nofun

theorem Tidy.split (hold : Tidy n old) (hw : Writable n sect keys) (hput : Copying.Rewritten sect keys old new) :
    ∃ pre gone post, Split n sect keys old new pre gone post := by
  obtain ⟨pre, head, body, post, hat, hnew⟩ | ⟨habsent, sep, hnew, hsep⟩ := hput
  · exact ⟨pre, head :: body, post, hold.split_found hw hat hnew⟩
  · obtain ⟨pre, hsplit⟩ := hold.split_absent hw habsent hsep hnew
    exact ⟨pre, [], [], hsplit⟩

/-- the calls of another section -/
def otherThan (sect : Text) (c : Callback) : Bool := !sameName c.sect sect

namespace Split

theorem newLines (h : Split n sect keys old new pre gone post) :
    lines newline 511 new = pre ++ sectionLines sect keys ++ post := by
  rw [h.new]
  exact h.lined.lines_flatten (by norm_num)

/-- what is behind the section starts with a heading of its own -/
theorem calls_post (h : Split n sect keys old new pre gone post) (a b : Text) : calls a post = calls b post := by
  cases hpost : post with
  | nil => rfl
  | cons l ls =>
    have hne := h.next l (by rw [hpost]; rfl)
    obtain ⟨name, hname⟩ := Option.ne_none_iff_exists'.1 hne
    have hline := (h.tidy l (by simp [hpost])).fitting.line
    rw [calls_heading hname (by omega), calls_heading hname (by omega)]

theorem newCalls (h : Split n sect keys old new pre gone post) (hw : Writable n sect keys) :
    calls [] (lines newline 511 new) = calls [] pre ++ keyCalls sect keys ++ calls sect post := by
  rw [h.newLines, List.append_assoc, calls_append]
  by_cases hkeys : keys = []
  · rw [hkeys, sectionLines, if_pos rfl, List.nil_append, h.calls_post _ sect]
    simp [keyCalls]
  · rw [hw.calls_sectionLines hkeys, List.append_assoc]

/-- the calls in front of the section and behind it are other sections' -/
theorem filter_others (h : Split n sect keys old new pre gone post) (hw : Writable n sect keys) {ls : List Text}
    (hls : ∀ l ∈ ls, l ∈ pre ++ post) : (calls [] ls).filter (otherThan sect) = calls [] ls := by
  rw [List.filter_eq_self]
  intro c hc
  have hempty : sameName [] sect = false := by
    by_contra hsame
    have hlen := length_of_sameName (Bool.of_not_eq_false hsame)
    exact hw.named (List.length_eq_zero_iff.1 hlen.symm)
  have hother : sameName c.sect sect = false := by
    refine sect_of_calls (P := fun name => sameName name sect = false) hempty (fun l hl => ?_) (fun l hl name hname => ?_)
      c hc
    · have hline := (h.tidy l (hls l hl)).fitting.line
      omega
    · exact h.kept name (List.mem_filterMap.2 ⟨l, hls l hl, hname⟩)
  rw [otherThan, hother]
  rfl

/-- the calls of the lines that go are the section's -/
theorem filter_gone (h : Split n sect keys old new pre gone post) (a : Text) :
    (calls a gone).filter (otherThan sect) = [] := by
  obtain rfl | ⟨head, body, name, rfl, hlen, hname, hsame, hbody⟩ := h.gone
  · rfl
  · rw [calls_heading hname hlen, List.filter_eq_nil_iff]
    intro c hc
    have hsect : sameName c.sect sect = true := by
      refine sect_of_calls (P := fun name => sameName name sect = true) hsame (fun l hl => (hbody l hl).1)
        (fun l hl other hother => ?_) c hc
      rw [(hbody l hl).2] at hother
      cases hother
    simp [otherThan, hsect]

/-- the section's own calls go, and only they -/
theorem filter_oldCalls (h : Split n sect keys old new pre gone post) (hw : Writable n sect keys) :
    (calls [] (lines newline 511 old)).filter (otherThan sect) = calls [] pre ++ calls sect post := by
  rw [h.oldCalls, calls_append, calls_append, List.filter_append, List.filter_append, h.filter_gone, List.append_nil,
    h.filter_others hw (fun l hl => List.mem_append_left _ hl), h.calls_post _ [], h.calls_post sect [],
    h.filter_others hw (fun l hl => List.mem_append_right _ hl)]

/-- **A tidy file stays tidy.** -/
theorem tidy_new (h : Split n sect keys old new pre gone post) (hw : Writable n sect keys) (hold : Tidy n old) :
    Tidy n new := by
  constructor
  case line =>
    intro l hl
    rw [h.newLines, List.mem_append, List.mem_append] at hl
    obtain (hl | hl) | hl := hl
    · exact h.tidy l (List.mem_append_left _ hl)
    · exact hw.tidyLine l hl
    · exact h.tidy l (List.mem_append_right _ hl)
  case distinct =>
    have hothers : ((pre ++ post).filterMap headingName).Pairwise fun a b => sameName a b = false := by
      have hdistinct := hold.distinct
      rw [h.oldNames] at hdistinct
      refine hdistinct.sublist (List.Sublist.filterMap headingName ?_)
      rw [List.append_assoc]
      exact (List.Sublist.refl pre).append (List.sublist_append_right gone post)
    have hown : ∀ name ∈ (sectionLines sect keys).filterMap headingName, name = sect := by
      intro name hname
      obtain ⟨l, hl, hlname⟩ := List.mem_filterMap.1 hname
      exact hw.name_of_lines l hl name hlname
    have hpair : ((sectionLines sect keys).filterMap headingName).Pairwise fun a b => sameName a b = false := by
      unfold sectionLines
      split_ifs with hkeys
      · exact List.Pairwise.nil
      · have hnone : ((keys.map fun kv => writekey kv.1 kv.2) ++ [INI_LINETERM]).filterMap headingName = [] := by
          rw [List.filterMap_eq_nil_iff]
          intro l hl
          rw [List.mem_append, List.mem_map, List.mem_singleton] at hl
          obtain ⟨kv, hkv, rfl⟩ | rfl := hl
          · exact hw.headingName_key hkv
          · exact Writable.headingName_blank
        rw [List.filterMap_cons, hw.headingName_writesection, hnone]
        exact List.pairwise_singleton _ _
    rw [List.filterMap_append, List.pairwise_append] at hothers
    have hkept := h.kept
    rw [List.filterMap_append] at hkept
    rw [h.newLines, List.filterMap_append, List.filterMap_append, List.pairwise_append, List.pairwise_append]
    refine ⟨⟨hothers.1, hpair, fun a ha b hb => ?_⟩, hothers.2.1, fun a ha b hb => ?_⟩
    · rw [hown b hb]
      exact hkept a (List.mem_append_left _ ha)
    · obtain ha | ha := List.mem_append.1 ha
      · exact hothers.2.2 a ha b hb
      · rw [hown a ha, sameName_comm]
        exact hkept b (List.mem_append_right _ hb)

end Split

/-- **Behind `ini_putsection`** the reader finds the new keys, and every call of another section in its order. -/
theorem browse_rewritten (hold : Tidy n old) (hw : Writable n sect keys) (hput : Copying.Rewritten sect keys old new) :
    ∃ oldCalls front back, iniBrowse old = some oldCalls ∧ oldCalls.filter (otherThan sect) = front ++ back ∧
      iniBrowse new = some (front ++ keyCalls sect keys ++ back) := by
  obtain ⟨pre, gone, post, hsplit⟩ := hold.split hw hput
  refine ⟨_, _, _, hold.browse, hsplit.filter_oldCalls hw, ?_⟩
  rw [(hsplit.tidy_new hw hold).browse, hsplit.newCalls hw]

/-! ## Any list of writes -/

/-- what `ini_putsection` writes, for a buffer that holds anything -/
def Put (sect : Text) (keys : List (Text × Text)) (old new : Text) : Prop :=
  ∃ fuel buffer s, old.length + 512 < fuel ∧ (Copying.start old buffer).replaceSection fuel sect keys = some s ∧
    s.written = new

theorem isHeading_of_headingMatches {l : Text} (h : headingMatches sect l = true) : isHeading l = true := by
  simp only [headingMatches, Bool.and_eq_true] at h
  exact h.1.1

/-- **On a tidy file every write ends.** -/
theorem Tidy.put (hold : Tidy n old) (hw : Writable n sect keys) {fuel : ℕ} (hfuel : old.length + 512 < fuel)
    (buffer : ℕ → Char) : ∃ s, (Copying.start old buffer).replaceSection fuel sect keys = some s := by
  rw [← Option.ne_none_iff_exists']
  intro hnone
  have hkeys : ∀ kv ∈ keys, nul ∉ kv.1 := fun kv hkv => (hw.keyChars kv hkv).1
  obtain ⟨-, pre, head, hat, hindent⟩ := (Copying.replaceSection_eq_none_iff hw.named hold.noNul hkeys hfuel buffer).1 hnone
  have hmem : head ∈ lines newline 511 old := by
    rw [hat.lines]
    simp
  exact hindent ((hold.line head hmem).flush (isHeading_of_headingMatches hat.heading))

theorem Tidy.rewritten (hold : Tidy n old) (hw : Writable n sect keys) (hput : Put sect keys old new) :
    Copying.Rewritten sect keys old new := by
  obtain ⟨fuel, buffer, s, hfuel, hends, rfl⟩ := hput
  exact Copying.replaceSection_rewritten hw.named hold.noNul (fun kv hkv => (hw.keyChars kv hkv).1) hfuel hends

/-- a store of sections, and a write to it -/
abbrev Store := Text → List Callback

def Store.put (st : Store) (sect : Text) (keys : List (Text × Text)) : Store := fun name =>
  if sameName sect name then keyCalls sect keys else st name

variable {io : IniIo} {fuel : ℕ} {buffer : ℕ → Char} {d : Folder} {r : Bool} {folders : List Folder}

/-- no write stores less than its string -/
def IniIo.WritesWhole (io : IniIo) : Prop := ∀ i, io.shortWrite i = none

theorem IniIo.WritesWhole.stored (h : io.WritesWhole) (writes : List Text) : io.stored writes = writes := by
  unfold IniIo.stored
  apply List.ext_getElem
  · exact List.length_mapIdx
  · intro i _ _
    rw [List.getElem_mapIdx, h i]
    rfl

/-- what may be found of a file that was to be rewritten -/
inductive Survives (sect : Text) (keys : List (Text × Text)) (old : Text) : Folder → Prop where
  | untouched (temp : Option Text) : Survives sect keys old ⟨some old, temp⟩
  | moved {new : Text} : Copying.Copied sect keys old new → Survives sect keys old ⟨none, some new⟩
  | replaced {new : Text} : Copying.Copied sect keys old new → Survives sect keys old ⟨some new, none⟩

theorem closeRename_survives (io : IniIo) (hput : Copying.Copied sect keys old new) :
    ∀ d ∈ closeRename io old new, Survives sect keys old d := by
  have hremoved : Survives sect keys old ⟨if io.removes then none else some old, some new⟩ := by
    split_ifs
    · exact .moved hput
    · exact .untouched _
  intro d hd
  rw [closeRename, List.mem_cons, List.mem_singleton] at hd
  obtain rfl | rfl := hd
  · exact hremoved
  · cases io.renames with
    | true => exact .replaced hput
    | false => exact hremoved

/-- a call on a file that can be read: refused, or the copy has ended and what was stored of it is in the second file -/
theorem iniPutsection_readable (hfile : d.file = some old) (hread : io.opensRead = true)
    (hrun : iniPutsection io fuel sect keys buffer d = some (r, folders)) :
    io.opensWrite = false ∧ r = false ∧ folders = [] ∨
    io.opensWrite = true ∧ r = true ∧ ∃ s, (Copying.start old buffer).replaceSection fuel sect keys = some s ∧
      folders = (prefixes (io.stored s.writes)).map (fun new => ⟨some old, some new⟩) ++
        closeRename io old (io.stored s.writes).flatten := by
  have hopened : d.file.filter (fun _ => io.opensRead) = some old := by
    rw [hfile, hread]
    rfl
  rw [iniPutsection, hopened] at hrun
  dsimp only at hrun
  cases hwrite : io.opensWrite with
  | false =>
    rw [hwrite] at hrun
    obtain ⟨rfl, rfl⟩ : false = r ∧ [] = folders := by simpa using hrun
    exact Or.inl ⟨rfl, rfl, rfl⟩
  | true =>
    rw [hwrite, Bool.not_true, if_neg Bool.false_ne_true, Option.map_eq_some_iff] at hrun
    obtain ⟨s, hs, hresult⟩ := hrun
    rw [Prod.mk.injEq] at hresult
    exact Or.inr ⟨rfl, hresult.1.symm, s, hs, hresult.2.symm⟩

theorem getLast?_renamed (io : IniIo) (hrename : io.renames = true) (front : List Folder) (old new : Text) :
    (front ++ closeRename io old new).getLast? = some ⟨some new, none⟩ := by
  rw [closeRename, hrename, if_pos rfl, List.getLast?_append_of_ne_nil _ (List.cons_ne_nil _ _)]
  rfl

/-- **Wherever the call is cut off**, the file is the old one or the whole new one, or the new one stands complete under
the other name, as long as no write stores less than its string. Only the opening of the second file decides the answer. -/
theorem iniPutsection_survives (hfile : d.file = some old) (hread : io.opensRead = true) (hnul : nul ∉ old)
    (hkeys : ∀ kv ∈ keys, nul ∉ kv.1) (hfuel : old.length + 512 < fuel)
    (hrun : iniPutsection io fuel sect keys buffer d = some (r, folders)) :
    r = io.opensWrite ∧ (io.WritesWhole → (∀ d' ∈ folders, Survives sect keys old d') ∧
      (io.opensWrite = true → io.renames = true →
        ∃ new, Copying.Copied sect keys old new ∧ folders.getLast? = some ⟨some new, none⟩)) := by
  obtain ⟨hwrite, rfl, rfl⟩ | ⟨hwrite, rfl, s, hs, rfl⟩ := iniPutsection_readable hfile hread hrun
  · refine ⟨hwrite.symm, fun _ => ⟨fun _ hd => absurd hd List.not_mem_nil, fun hopens => ?_⟩⟩
    rw [hwrite] at hopens
    cases hopens
  · refine ⟨hwrite.symm, fun hwhole => ?_⟩
    have hput : Copying.Copied sect keys old s.written := Copying.replaceSection_copied hnul hkeys hfuel hs
    rw [hwhole.stored]
    constructor
    · intro d' hd
      rw [List.mem_append, List.mem_map] at hd
      obtain ⟨new, -, rfl⟩ | hd := hd
      · exact .untouched _
      · exact closeRename_survives io hput d' hd
    · exact fun _ hrename => ⟨s.written, hput, getLast?_renamed io hrename _ old _⟩

/-- a file that cannot be renamed behind the write -/
theorem unrenamed_survives : ∃ folders,
    iniPutsection ⟨true, true, true, false, fun _ => none⟩ 600 "a".toList [("k".toList, "2".toList)] (fun _ => nul)
      ⟨some "[a]\nk=1\n".toList, none⟩ = some (true, folders) ∧
    ∀ d' ∈ folders, Survives "a".toList [("k".toList, "2".toList)] "[a]\nk=1\n".toList d' := by
  have hends : (iniPutsection ⟨true, true, true, false, fun _ => none⟩ 600 "a".toList [("k".toList, "2".toList)]
      (fun _ => nul) ⟨some "[a]\nk=1\n".toList, none⟩).isSome = true := by decide +kernel
  obtain ⟨⟨r, folders⟩, hrun⟩ := Option.isSome_iff_exists.1 hends
  obtain ⟨rfl, hsurvives⟩ := iniPutsection_survives rfl rfl (by decide +kernel) (by decide +kernel) (by decide +kernel) hrun
  exact ⟨folders, hrun, (hsurvives fun _ => rfl).1⟩

/-- **On a full card the file is lost.** Nothing that is written is stored, and the call removes the old file, puts the
empty one in its place and answers true. -/
theorem iniPutsection_full_card (hfile : d.file = some old) (hread : io.opensRead = true) (hopens : io.opensWrite = true)
    (hrename : io.renames = true) (hfull : ∀ i, io.shortWrite i = some 0)
    (hrun : iniPutsection io fuel sect keys buffer d = some (r, folders)) :
    r = true ∧ folders.getLast? = some ⟨some [], none⟩ := by
  obtain ⟨hwrite, -, -⟩ | ⟨-, rfl, s, -, rfl⟩ := iniPutsection_readable hfile hread hrun
  · rw [hopens] at hwrite
    cases hwrite
  · have hempty : (io.stored s.writes).flatten = [] := by
      rw [List.flatten_eq_nil_iff]
      intro str hstr
      obtain ⟨i, hi, rfl⟩ := List.mem_mapIdx.1 hstr
      rw [hfull i]
      rfl
    refine ⟨rfl, ?_⟩
    rw [getLast?_renamed io hrename, hempty]

theorem flatten_take_isPrefix (writes : List Text) (k : ℕ) : (writes.take k).flatten <+: writes.flatten := by
  obtain ⟨rest, hrest⟩ := List.take_prefix k writes
  exact ⟨rest.flatten, by rw [← List.flatten_append, hrest]⟩

/-- **A file that cannot be opened for reading** is written over: from the first step on it holds nothing but a beginning
of the section. -/
theorem iniPutsection_unreadable (hread : d.file = none ∨ io.opensRead = false)
    (hwhole : io.WritesWhole) (hrun : iniPutsection io fuel sect keys buffer d = some (r, folders)) :
    r = io.opensWrite ∧ ∀ d' ∈ folders, d'.temp = d.temp ∧
      ∃ part, d'.file = some part ∧ part <+: Copying.sectionText sect keys := by
  have hopened : d.file.filter (fun _ => io.opensRead) = none := by
    obtain hnone | hno := hread
    · rw [hnone]
      rfl
    · rw [hno, Option.filter_eq_none_iff]
      exact fun _ _ => Bool.false_ne_true
  rw [iniPutsection, hopened] at hrun
  dsimp only at hrun
  cases hwrite : io.opensWrite with
  | false =>
    rw [hwrite] at hrun
    obtain ⟨rfl, rfl⟩ : false = r ∧ [] = folders := by simpa using hrun
    exact ⟨rfl, fun _ hd => absurd hd List.not_mem_nil⟩
  | true =>
    rw [hwrite, Bool.not_true, if_neg Bool.false_ne_true, Option.some_inj, Prod.mk.injEq] at hrun
    obtain ⟨rfl, rfl⟩ := hrun
    refine ⟨rfl, fun d' hd => ?_⟩
    obtain ⟨part, hpart, rfl⟩ := List.mem_map.1 hd
    rw [hwhole.stored] at hpart
    obtain ⟨k, -, rfl⟩ := List.mem_map.1 hpart
    refine ⟨rfl, _, rfl, ?_⟩
    have hwritten : (Copying.putsection sect keys (Copying.start [] buffer)).written = Copying.sectionText sect keys := by
      obtain ⟨hcached, hpos⟩ := Copying.cached_start [] buffer
      exact (hcached.putsection hpos sect keys).1.written_nil
    rw [← hwritten]
    exact flatten_take_isPrefix _ k

end RyazhaClk.MinIni
