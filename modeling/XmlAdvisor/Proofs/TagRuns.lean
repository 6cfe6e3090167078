import XmlAdvisor.Proofs.ScanSteps

/-!
# Runs through a start tag

The scan of a text comes to the name of an element by a run, and to the end of its start tag by a
longer one.  Neither run has seen what stands behind it, so both are runs over every text that
begins alike.

* `ScanState.tagOpen_of_step` — what a step through the opening of a start tag reads.
* **`ScanState.exists_runsTo_tagOpen`** — the run through the name of an element, whatever comes
  behind.
* **`ScanState.exists_runsTo_tagClose`** — the run through the end of its start tag.
-/

namespace XmlAdvisor

namespace ScanState

variable {s s' : ScanState} {text : List Char}

/-! ## The opening of a start tag -/

/-- Whether a step that leads into a start tag reads the opening of one, where one may be. -/
def Enters (s : ScanState) (r : StepResult) : Prop :=
  ∀ t s', r = .ok (t, s') → s'.mode = .insideTag →
    s.mode.opensTags ∧ Scan.tagOpen s.cursor = .ok (t, s'.cursor) ∧ s'.depth = s.depth

lemma enters_error {fault : Fault} : Enters s (.error fault) := by
  rintro _ _ ⟨⟩

/-- A step that leads elsewhere. -/
lemma enters_none (hmode : s'.mode ≠ .insideTag) : Enters s (.ok (none, s')) := by
  rintro _ _ ⟨⟩ hinside
  exact absurd hinside hmode

/-- A construct that is read in another mode. -/
lemma enters_read {s₀ : ScanState} {what : Construct} {scan : Scan (Option Token)}
    (hmode : s₀.mode ≠ .insideTag) : Enters s (s₀.read what scan) := by
  rw [read]
  cases scan s₀.cursor with
  | error cause => exact enters_error
  | ok r =>
      rintro _ _ ⟨⟩ hinside
      exact absurd hinside hmode

lemma enters_tagOpen (hopens : s.mode.opensTags) :
    Enters s ((s.into .insideTag).read .element Scan.tagOpen) := by
  intro t s' h _
  have hread := read_eq_ok h
  rw [read_of_ok .element hread, Except.ok.injEq, Prod.mk.injEq] at h
  exact ⟨hopens, hread, by rw [← h.2]; rfl⟩

lemma misc_enters {other : StepResult} (hmode : s.mode ≠ .insideTag) (ho : Enters s other) :
    Enters s (s.misc other) := by
  rw [misc]
  split_ifs
  · exact enters_read hmode
  · exact enters_error
  · exact enters_read hmode
  · exact enters_none hmode
  · exact ho

lemma stepProlog_enters (hmode : s.mode ≠ .insideTag) : Enters s s.stepProlog := by
  rw [stepProlog]
  split_ifs
  · split
    · rename_i subset _ _ _
      cases subset <;> rintro _ _ ⟨⟩ ⟨⟩
    · exact enters_read hmode
  · refine misc_enters hmode (enters_none ?_)
    rintro ⟨⟩

lemma stepSubset_enters (hmode : s.mode ≠ .insideTag) : Enters s s.stepSubset := by
  rw [stepSubset, skipDeclaration]
  split_ifs
  · exact enters_read hmode
  · have hmode' : (s.into .beforeRoot).mode ≠ .insideTag := by rintro ⟨⟩
    exact enters_read hmode'
  · exact enters_none hmode
  · exact enters_error
  · exact misc_enters hmode enters_error

lemma stepBeforeRoot_enters (hmode : s.mode = .beforeRoot) : Enters s s.stepBeforeRoot := by
  rw [stepBeforeRoot]
  refine misc_enters (by rw [hmode]; rintro ⟨⟩) ?_
  split_ifs
  · exact enters_error
  · exact enters_tagOpen (.inr hmode)
  · exact enters_error

lemma stepContent_enters (hmode : s.mode = .content) : Enters s s.stepContent := by
  have hne : s.mode ≠ .insideTag := by
    rw [hmode]
    rintro ⟨⟩
  have hafter (depth : Nat) : afterTag depth ≠ .insideTag := by
    rw [afterTag]
    split_ifs <;> rintro ⟨⟩
  rw [stepContent]
  dsimp only
  split_ifs
  · exact enters_read hne
  · exact enters_read hne
  · exact enters_error
  · exact enters_read hne
  · exact enters_read (hafter _)
  · exact enters_error
  · exact enters_tagOpen (.inl hmode)
  · exact enters_read hne

lemma step_enters (hmode : s.mode ≠ .insideTag) : Enters s s.step := by
  rw [step]
  split
  · split_ifs
    · have hmode' : (s.into .prolog).mode ≠ .insideTag := by rintro ⟨⟩
      exact enters_read hmode'
    · refine enters_none ?_
      rintro ⟨⟩
  · exact stepProlog_enters hmode
  · exact stepSubset_enters hmode
  · rename_i hbefore
    exact stepBeforeRoot_enters hbefore
  · rename_i hcontent
    exact stepContent_enters hcontent
  · rename_i hinside
    exact absurd hinside hmode
  · exact misc_enters hmode enters_error

/-- The step through the opening of a start tag. -/
lemma tagOpen_of_step {name : QualifiedName} {span : Span} (hs : s.Within text)
    (h : s.step = .ok (some (.tagOpen name span), s')) : s.mode.opensTags ∧
      Scan.tagOpen s.cursor = .ok (some (.tagOpen name span), s'.cursor) ∧
      s' = ⟨.insideTag, s.depth, s'.cursor⟩ := by
  obtain ⟨-, -, ⟨-, hnext⟩, -⟩ := step_orderly hs _ _ h
  have hmode : s.mode ≠ .insideTag := by
    intro hmode
    rw [hmode] at hnext
    cases hnext
  have hinside : s'.mode = .insideTag := by
    cases hmode : s.mode <;> cases hmode' : s'.mode <;> rw [hmode, hmode'] at hnext <;>
      first | rfl | cases hnext
  obtain ⟨hopens, hread, hdepth⟩ := step_enters hmode _ _ h hinside
  refine ⟨hopens, hread, ?_⟩
  rw [← hinside, ← hdepth]

/-- A name that is read as it is written. -/
lemma isWritten_of_qualifiedName {c c' : Cursor} {name : QualifiedName}
    (h : Scan.qualifiedName c = .ok (name, c')) (hbegins : name.text.toList <+: c.rest) :
    name.isWritten = true ∧ c' = ⟨c.offset + name.text.toList.length, c'.rest⟩ ∧
      c.rest = name.text.toList ++ c'.rest ∧ c'.rest.head?.any isNameChar = false := by
  obtain ⟨q, l, rfl, rfl, hne, hq, hl, hwritten, hqbegins, hlbegins⟩ := Scan.exists_parts h
  have hall : (c.rest.takeWhile isNameChar).all isNameChar = true := List.all_takeWhile
  have hpart {part : List Char} (hne : part ≠ []) (hcolon : ':' ∉ part)
      (hbegins : Scan.partBegins part = true) (hinside : part ⊆ c.rest.takeWhile isNameChar) :
      isNamePart part = true := by
    rw [Scan.isNamePart_iff]
    refine ⟨?_, List.all_eq_true.mpr fun x hx => List.all_eq_true.mp hall x (hinside hx), hcolon⟩
    cases part with
    | nil => exact absurd rfl hne
    | cons x part => exact hbegins
  have hsplit : c.rest.takeWhile isNameChar ++ c.rest.dropWhile isNameChar = c.rest :=
    List.takeWhile_append_dropWhile
  have hdrop : c.rest.drop (c.rest.takeWhile isNameChar).length = c.rest.dropWhile isNameChar := by
    have hleft : (c.rest.takeWhile isNameChar ++ c.rest.dropWhile isNameChar).drop
        (c.rest.takeWhile isNameChar).length = c.rest.dropWhile isNameChar := List.drop_left
    rwa [hsplit] at hleft
  have hbehind : (c.rest.dropWhile isNameChar).head?.any isNameChar = false := by
    cases hd : c.rest.dropWhile isNameChar with
    | nil => rfl
    | cons x r =>
        have hnot := List.head_dropWhile_not isNameChar (l := c.rest) (by rw [hd]; simp)
        simpa [hd] using hnot
  suffices hname :
      (QualifiedName.mk (qualifierOf (String.ofList q)) (String.ofList l)).isWritten = true ∧
      (QualifiedName.mk (qualifierOf (String.ofList q)) (String.ofList l)).text.toList =
        c.rest.takeWhile isNameChar by
    rw [hname.2, Cursor.advance, hdrop]
    exact ⟨hname.1, rfl, hsplit.symm, hbehind⟩
  by_cases hqnil : q = []
  · -- the name would begin with its colon if one was written
    subst hqnil
    have hnone :
        (QualifiedName.mk (qualifierOf (String.ofList [])) (String.ofList l)).text.toList = l :=
      String.toList_ofList
    have heq : c.rest.takeWhile isNameChar = l := by
      rcases hwritten with ⟨-, heq⟩ | heq
      · exact heq
      · rw [hnone, ← hsplit, heq] at hbegins
        cases l with
        | nil => exact absurd rfl hne
        | cons x l =>
            rw [List.nil_append, List.cons_append, List.cons_prefix_cons] at hbegins
            exact absurd (by simp [hbegins.1]) hl
    refine ⟨?_, hnone.trans heq.symm⟩
    rw [QualifiedName.isWritten, String.toList_ofList,
      hpart hne hl hlbegins (by rw [heq]; exact List.Subset.refl l)]
    rfl
  · have heq : c.rest.takeWhile isNameChar = q ++ ':' :: l := by
      rcases hwritten with ⟨hnil, -⟩ | heq
      · exact absurd hnil hqnil
      · exact heq
    have hsome : qualifierOf (String.ofList q) = some (String.ofList q) := by
      rw [qualifierOf, if_neg]
      simpa [String.isEmpty_iff, ← String.toList_inj] using hqnil
    refine ⟨?_, ?_⟩
    · rw [QualifiedName.isWritten, hsome, Option.all_some, String.toList_ofList,
        String.toList_ofList,
        hpart hne hl hlbegins (by rw [heq]; intro x hx; simp [hx]),
        hpart hqnil hq hqbegins (by rw [heq]; intro x hx; simp [hx])]
      rfl
    · rw [QualifiedName.toList_text_of_qualifier hsome, String.toList_ofList,
        String.toList_ofList, heq]

/-- The name in an opening is what is read behind the `<`. -/
lemma qualifiedName_of_tagOpen {c c' : Cursor} {name : QualifiedName} {span : Span}
    (h : Scan.tagOpen c = .ok (some (.tagOpen name span), c')) :
    span = ⟨c.offset, c'.offset⟩ ∧ Scan.qualifiedName (c.advance 1) = .ok (name, c') := by
  obtain ⟨_, _, ⟨⟩, h⟩ := Scan.bind_ok h
  obtain ⟨_, _, ⟨⟩, h⟩ := Scan.bind_ok h
  obtain ⟨_, _, hname, h⟩ := Scan.bind_ok h
  obtain ⟨_, _, ⟨⟩, h⟩ := Scan.bind_ok h
  cases h
  exact ⟨rfl, hname⟩

/-- A tag is opened wherever one may be. -/
lemma step_tagOpen {mode : Mode} (hmode : mode.opensTags) (depth o : Nat) {name : QualifiedName}
    (h : name.isWritten = true) {rest : List Char} (hrest : rest.head?.any isNameChar = false) :
    (⟨mode, depth, ⟨o, '<' :: (name.text.toList ++ rest)⟩⟩ : ScanState).step =
      .ok (some (.tagOpen name ⟨o, o + 1 + name.text.length⟩),
        ⟨.insideTag, depth, ⟨o + 1 + name.text.length, rest⟩⟩) := by
  have hlength : o + ('<' :: name.text.toList).length = o + 1 + name.text.length := by
    rw [List.length_cons, String.length_toList]
    omega
  rw [← hlength]
  rcases hmode with rfl | rfl
  · exact stepContent_tagOpen h hrest
  · exact stepBeforeRoot_tagOpen h hrest

/-- **The name of an element is reached in every text that begins alike up to it**, if it is written
as it is read and no character of a name follows it. -/
theorem exists_runsTo_tagOpen {before after : List Token} {name : QualifiedName} {span : Span}
    (h : (scanAll text).1 = before ++ .tagOpen name span :: after)
    (hwritten : '<' :: name.text.toList <+: text.drop span.start) :
    span.stop = span.start + 1 + name.text.length ∧
    (text.drop span.stop).head?.any isNameChar = false ∧
    ∃ depth, ∀ Y : List Char, Y.head?.any isNameChar = false →
      (start (text.take span.stop ++ Y)).RunsTo (before ++ [.tagOpen name span])
        ⟨.insideTag, depth, ⟨span.stop, Y⟩⟩ := by
  obtain ⟨s₁, s₂, -, hruns, hrest, hstep, -⟩ := exists_runsTo_of_scan (text.length + 3) h
  have hin := (hruns.within (start_within text)).1
  obtain ⟨hopens, hread, -⟩ := tagOpen_of_step hin hstep
  obtain ⟨rfl, hname⟩ := qualifiedName_of_tagOpen hread
  obtain ⟨behind, hbehind⟩ := hwritten
  have hrest₁ : s₁.cursor.rest = '<' :: (name.text.toList ++ behind) := hin.1.trans hbehind.symm
  have hadvance : s₁.cursor.advance 1 = ⟨s₁.cursor.offset + 1, name.text.toList ++ behind⟩ := by
    rw [Cursor.advance, hrest₁]
    rfl
  rw [hadvance] at hname
  obtain ⟨hisWritten, hc, hbehind', hhead⟩ :=
    isWritten_of_qualifiedName hname (List.prefix_append name.text.toList behind)
  have hstop : s₂.cursor.offset = s₁.cursor.offset + 1 + name.text.length := by
    rw [hc, String.length_toList]
  have hsame : behind = s₂.cursor.rest := List.append_cancel_left hbehind'
  obtain ⟨x, xs, hchars, hx⟩ := Scan.exists_of_isWritten hisWritten
  have hlength : name.text.length = ('<' :: xs).length := by
    rw [← String.length_toList, hchars, List.length_cons, List.length_cons]
  have hdrop₁ : text.drop s₁.cursor.offset = '<' :: x :: (xs ++ behind) := by
    rw [← hin.1, hrest₁, hchars, List.cons_append]
  -- up to the first character of the name the texts are the same
  have htake (Y : List Char) : text.take s₂.cursor.offset ++ Y =
      (text.take s₁.cursor.offset ++ ['<', x]) ++ (xs ++ Y) := by
    rw [hstop, hlength, Nat.add_assoc, Nat.add_comm 1, List.take_add, hdrop₁, ← List.cons_append,
      ← List.cons_append, List.take_left' (by simp)]
    simp
  have hdrop : text.drop s₂.cursor.offset = behind := by
    rw [hstop, hlength, Nat.add_assoc, Nat.add_comm 1, ← List.drop_drop, hdrop₁, ← List.cons_append,
      ← List.cons_append, List.drop_left' (by simp)]
  refine ⟨hstop, by rw [hdrop, hsame]; exact hhead, s₁.depth, fun Y hY => ?_⟩
  have hagrees := start_agrees (.opening hx)
    (List.suffix_append (text.take s₁.cursor.offset) ['<', x])
    (xs ++ behind) (xs ++ Y)
  rw [← htake, ← htake, ← hdrop, List.take_append_drop] at hagrees
  obtain ⟨d, hbegun, u, -, -, hu, rfl⟩ := hruns.alike (start_within text) hagrees
    (by rw [hdrop, hrest₁, hchars]; simp)
  have hrest' : u ++ (xs ++ Y) = '<' :: (name.text.toList ++ Y) := by
    have hu : ['<', x] ++ (xs ++ behind) = u ++ (xs ++ behind) := by
      rw [← hdrop, ← hu, hrest₁, hchars, hdrop]
      rfl
    rw [← List.append_cancel_right hu, hchars]
    rfl
  have hopen : (s₁.movedTo ⟨s₁.cursor.offset, u ++ (xs ++ Y)⟩).step = .ok (some (.tagOpen name
      ⟨s₁.cursor.offset, s₂.cursor.offset⟩), ⟨.insideTag, s₁.depth, ⟨s₂.cursor.offset, Y⟩⟩) := by
    rw [hrest', hstop]
    exact step_tagOpen hopens s₁.depth s₁.cursor.offset hisWritten hY
  have hne : (s₁.movedTo ⟨s₁.cursor.offset, u ++ (xs ++ Y)⟩).cursor.rest ≠ [] := by
    rw [hrest']
    exact List.cons_ne_nil _ _
  exact hbegun.trans (.one hne hopen (stepsLeft_step_lt hne hopen))

/-! ## The end of a start tag -/

/-- The ends of a tag: what each is written as, and the token that it is read as at an offset. -/
inductive TagEnd (o : Nat) : List Char → Token → Prop
  | close : TagEnd o ['>'] (.tagClose ⟨o, o + 1⟩)
  | selfClose : TagEnd o ['/', '>'] (.tagSelfClose ⟨o, o + 2⟩)

/-- What is read inside a tag is an attribute, or the end of the tag with the blanks before it. -/
lemma exists_blanks_of_tagPart {c c' : Cursor} {x : Token} (h : Scan.tagPart c = .ok (some x, c')) :
    (∃ name value nameSpan valueSpan span, x = .attribute name value nameSpan valueSpan span) ∨
      ∃ blanks ending : List Char, blanks.all isXmlSpace = true ∧
      c.rest = blanks ++ (ending ++ c'.rest) ∧
        TagEnd (c.offset + blanks.length) ending x := by
  have hsplit : c.rest = c.rest.takeWhile isXmlSpace ++
      (c.advance (c.rest.takeWhile isXmlSpace).length).rest := by
    have hblanks : c.rest.takeWhile isXmlSpace = c.rest.take (c.rest.takeWhile isXmlSpace).length :=
      List.prefix_iff_eq_take.mp (List.takeWhile_prefix _)
    have hsplit := List.take_append_drop (c.rest.takeWhile isXmlSpace).length c.rest
    rw [← hblanks] at hsplit
    exact hsplit.symm
  cases Scan.tagPart_ok h with
  | selfClose hmark hends htoken =>
      cases htoken
      obtain ⟨hhead, rfl⟩ := Scan.char_ok hends
      refine .inr ⟨c.rest.takeWhile isXmlSpace, ['/', '>'], List.all_takeWhile, ?_, .selfClose⟩
      rw [List.cons_append, List.singleton_append, ← Cursor.rest_of_head? hhead,
        ← Cursor.rest_of_head? hmark]
      exact hsplit
  | close hmark hends htoken =>
      cases htoken
      subst hends
      refine .inr ⟨c.rest.takeWhile isXmlSpace, ['>'], List.all_takeWhile, ?_, .close⟩
      rw [List.singleton_append, ← Cursor.rest_of_head? hmark]
      exact hsplit
  | «attribute» _ _ _ hread =>
      obtain ⟨_, _, _, _, _, _, _, -, -, -, -, -, htoken⟩ := Scan.tagAttribute_ok hread
      cases htoken
      exact .inl ⟨_, _, _, _, _, rfl⟩

/-- What is read inside a tag is a part of it. -/
lemma tagPart_of_step {x : Token} (h : s.stepInsideTag = .ok (some x, s')) :
    Scan.tagPart s.cursor = .ok (some x, s'.cursor) := by
  rw [stepInsideTag] at h
  split at h
  · rename_i heq
    cases h
    have hread := read_eq_ok heq
    exact hread
  · rename_i heq
    cases h
    have hread := read_eq_ok heq
    exact hread
  · exact read_eq_ok h

lemma mode_of_tagClose {span : Span} (hs : s.Within text)
    (h : s.step = .ok (some (.tagClose span), s')) : s.mode = .insideTag := by
  obtain ⟨-, -, ⟨-, hnext⟩, -⟩ := step_orderly hs _ _ h
  cases hmode : s.mode <;> rw [hmode] at hnext <;> first | rfl | cases hnext

/-- The step through the end of a start tag. -/
lemma exists_blanks_of_step {span : Span} (hs : s.Within text)
    (h : s.step = .ok (some (.tagClose span), s')) : ∃ blanks : List Char,
      blanks.all isXmlSpace = true ∧ s.cursor.rest = blanks ++ '>' :: s'.cursor.rest ∧
      span = ⟨s.cursor.offset + blanks.length, s.cursor.offset + blanks.length + 1⟩ := by
  have hmode := mode_of_tagClose hs h
  have hread : Scan.tagPart s.cursor = .ok (some (.tagClose span), s'.cursor) := by
    rw [step, hmode] at h
    exact tagPart_of_step h
  rcases exists_blanks_of_tagPart hread with
    ⟨_, _, _, _, _, hx⟩ | ⟨blanks, ending, hblanks, hrest, hend⟩
  · cases hx
  · cases hend
    exact ⟨blanks, hblanks, hrest, rfl⟩

/-- **The end of a start tag is reached in every text that begins alike up to it.** -/
theorem exists_runsTo_tagClose {before after : List Token} {span : Span}
    (h : (scanAll text).1 = before ++ .tagClose span :: after) :
    ∃ depth, ∀ Y, (start (text.take span.stop ++ Y)).RunsTo (before ++ [.tagClose span])
      ⟨.content, depth + 1, ⟨span.stop, Y⟩⟩ := by
  obtain ⟨s₁, s₂, -, hruns, hrest, hstep, -⟩ := exists_runsTo_of_scan (text.length + 3) h
  have hin := (hruns.within (start_within text)).1
  obtain ⟨blanks, hblanks, hs₁, rfl⟩ := exists_blanks_of_step hin hstep
  have hmode := mode_of_tagClose hin hstep
  refine ⟨s₁.depth, fun Y => ?_⟩
  have hsplit : text.take (s₁.cursor.offset + blanks.length + 1) =
      text.take s₁.cursor.offset ++ (blanks ++ ['>']) := by
    have hread := hin.1
    rw [Cursor.ReadsFrom, hs₁] at hread
    rw [Nat.add_assoc, List.take_add, ← hread, List.take_append]
    simp
  have htext : text = text.take (s₁.cursor.offset + blanks.length + 1) ++ s₂.cursor.rest := by
    have hread := hin.1
    rw [Cursor.ReadsFrom, hs₁] at hread
    rw [hsplit, List.append_assoc, List.append_assoc, List.singleton_append, hread,
      List.take_append_drop]
  have hlast : ['>'] <:+ text.take (s₁.cursor.offset + blanks.length + 1) := by
    rw [hsplit, ← List.append_assoc]
    exact List.suffix_append _ _
  have hagrees := start_agrees .close hlast s₂.cursor.rest Y
  rw [← htext] at hagrees
  obtain ⟨d, hbegun, u, -, -, hu, rfl⟩ :=
    hruns.alike (start_within text) hagrees (by rw [hs₁]; simp)
  rw [hs₁, List.append_cons, List.append_cancel_right_eq] at hu
  have hclose : (s₁.movedTo ⟨s₁.cursor.offset, u ++ Y⟩).step = .ok (some (.tagClose
      ⟨s₁.cursor.offset + blanks.length, s₁.cursor.offset + blanks.length + 1⟩),
        ⟨.content, s₁.depth + 1, ⟨s₁.cursor.offset + blanks.length + 1, Y⟩⟩) := by
    rw [← hu, List.append_assoc, List.singleton_append, step, movedTo, hmode]
    exact stepInsideTag_close hblanks
  have hrest' : (s₁.movedTo ⟨s₁.cursor.offset, u ++ Y⟩).cursor.rest ≠ [] := by
    rw [← hu]
    simp [movedTo]
  exact hbegun.trans (.one hrest' hclose (stepsLeft_step_lt hrest' hclose))

end ScanState

end XmlAdvisor
