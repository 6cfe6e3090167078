import XmlAdvisor.Proofs.ScanRuns
import XmlAdvisor.Proofs.WrittenScans

/-!
# The tokens of what is written

A run of the scanner over what is written reads its tokens, each with the span of what it was
written as, and does not stop before the end.

* `WrittenContents.tokens` — the tokens of contents that are written at an offset.
* **`WrittenContents.runsTo`** — a run over contents inside an element.
* **`WrittenContents.scanAll_chars`** — the tokens of a document, which has no fault.
-/

namespace XmlAdvisor

open Scan (spanAt)

/-! ## Tokens -/

/-- The token of a leaf; blanks outside the document element have none. -/
def WrittenLeaf.token? (l : WrittenLeaf) (o : Nat) : Option Token :=
  match l with
  | .text content => some (.text content (spanAt o l.chars))
  | .cdata content => some (.cdata content (spanAt o l.chars))
  | .comment content => some (.comment content (spanAt o l.chars))
  | .instruction target _ data =>
    some (.instruction target (if data.isEmpty then none else some data) (spanAt o l.chars))
  | .blanks _ => none

/-- The tokens of attributes that are written one behind another, from an offset on. -/
def attributeTokens (o : Nat) : List WrittenAttribute → List Token
  | [] => []
  | a :: more => a.tokenAt o :: attributeTokens (o + a.chars.length) more

/-- The tokens of a tag that is written at an offset, without its end. -/
def WrittenTag.tokens (t : WrittenTag) (o : Nat) : List Token :=
  .tagOpen t.name (spanAt o ('<' :: t.name.text.toList)) :: attributeTokens (t.attributesStart o)
    t.attributes

/-- The tokens of contents that are written at an offset. -/
def WrittenContents.tokens (o : Nat) : WrittenContents → List Token
  | .nil => []
  | .leaf l more => (l.token? o).toList ++ more.tokens (o + l.chars.length)
  | .emptied tag more =>
    let stop := o + tag.opening.length
    tag.tokens o ++ .tagSelfClose ⟨stop, stop + 2⟩ :: more.tokens (stop + 2)
  | .element tag inner blanks more =>
    let close := o + tag.opening.length
    let innerStop := close + 1 + inner.chars.length
    tag.tokens o ++ .tagClose ⟨close, close + 1⟩ :: (inner.tokens (close + 1) ++
      .endTag tag.name (spanAt innerStop (tag.ending blanks)) ::
        more.tokens (innerStop + (tag.ending blanks).length))

/-! ## Steps -/

namespace ScanState

variable {o depth : Nat} {rest : List Char} {mode : Mode}

/-- A construct that is read is a step. -/
lemma read_of_ok {s : ScanState} {scan : Scan (Option Token)} {t : Option Token} {c : Cursor}
    (what : Construct) (h : scan s.cursor = .ok (t, c)) :
    s.read what scan = .ok (t, { s with cursor := c }) := by
  rw [read, h]

/-- What follows on the target of an instruction tells it from an XML declaration. -/
lemma not_declaration {target : String} (htarget : target.toList.all isNameChar = true)
    (hne : target ≠ "xml") {after : List Char} (hafter : after.head?.any isNameChar = false) :
    (⟨o, '<' :: '?' :: (target.toList ++ after)⟩ : Cursor).startsWith "<?xml " = false := by
  rw [← Bool.not_eq_true]
  intro hstarts
  have hxml : "<?xml ".toList = '<' :: '?' :: ("xml".toList ++ [' ']) := rfl
  rw [Cursor.startsWith, List.isPrefixOf_iff_prefix, hxml, List.cons_prefix_cons,
    List.cons_prefix_cons] at hstarts
  obtain ⟨behind, hbehind⟩ := hstarts.2.2
  have hread := congrArg (List.takeWhile isNameChar) hbehind
  rw [Scan.takeWhile_append htarget hafter, List.append_assoc,
    Scan.takeWhile_append (by decide) (by rfl)] at hread
  exact hne (String.toList_inj.mp hread.symm)

/-- A comment, an instruction or blanks are read where they may stand. -/
lemma misc_leaf {l : WrittenLeaf} (h : l.isOutside = true) {other : StepResult}
    (hrest : l.isRun = true → rest.head?.any isXmlSpace = false) :
    (⟨mode, depth, ⟨o, l.chars ++ rest⟩⟩ : ScanState).misc other =
      .ok (l.token? o, ⟨mode, depth, ⟨o + l.chars.length, rest⟩⟩) := by
  cases l with
  | comment s =>
      rw [misc, if_pos (by simp [Cursor.startsWith, WrittenLeaf.chars])]
      exact read_of_ok .comment (Scan.comment_append h)
  | instruction target gap data =>
      have hread :
          Scan.instruction ⟨o, (WrittenLeaf.instruction target gap data).chars ++ rest⟩ = _ :=
        Scan.instruction_append h
      have hafter := Scan.not_isNameChar_behind_target h rest
      simp only [WrittenLeaf.isOutside, WrittenLeaf.isMisc, Bool.and_eq_true, bne_iff_ne] at h
      obtain ⟨⟨⟨⟨⟨⟨⟨-, htarget⟩, hne⟩, -⟩, -⟩, -⟩, -⟩, -⟩ := h
      have hchars : (WrittenLeaf.instruction target gap data).chars ++ rest =
          '<' :: '?' :: (target.toList ++ (gap ++ (data.toList ++ (['?', '>'] ++ rest)))) := by
        simp [WrittenLeaf.chars]
      rw [hchars] at hread ⊢
      rw [misc, if_neg (by simp [Cursor.startsWith]),
        if_neg (Bool.eq_false_iff.mp (not_declaration htarget hne hafter)),
        if_pos (by simp [Cursor.startsWith])]
      exact read_of_ok .instruction hread
  | blanks cs =>
      simp only [WrittenLeaf.isOutside, Bool.and_eq_true] at h
      obtain ⟨hne, hblanks⟩ := h
      cases cs with
      | nil => cases hne
      | cons c cs =>
          have hc : isXmlSpace c = true := by
            rw [List.all_cons, Bool.and_eq_true] at hblanks
            exact hblanks.1
          have hangle : c ≠ '<' := by
            rintro rfl
            cases hc
          have hskip : (⟨mode, depth, ⟨o, c :: cs ++ rest⟩⟩ : ScanState).skipSpaces =
              .ok (none, ⟨mode, depth, ⟨o + (c :: cs).length, rest⟩⟩) := by
            rw [skipSpaces]
            dsimp only
            rw [Scan.takeWhile_append hblanks (hrest rfl), Scan.advance_append]
          rw [WrittenLeaf.chars, misc]
          dsimp only
          rw [if_neg (by simp [Cursor.startsWith, hangle.symm]),
            if_neg (by simp [Cursor.startsWith, hangle.symm]),
            if_neg (by simp [Cursor.startsWith, hangle.symm]), if_pos (by exact hc)]
          exact hskip
  | text s => cases h
  | cdata s => cases h

/-- A leaf is read inside an element. -/
lemma stepContent_leaf {l : WrittenLeaf} (h : l.isInside = true)
    (hrest : l.isRun = true → rest.head? = some '<') :
    (⟨mode, depth, ⟨o, l.chars ++ rest⟩⟩ : ScanState).stepContent =
      .ok (l.token? o, ⟨mode, depth, ⟨o + l.chars.length, rest⟩⟩) := by
  cases l with
  | comment s =>
      rw [stepContent, if_pos (by simp [Cursor.startsWith, WrittenLeaf.chars])]
      exact read_of_ok .comment (Scan.comment_append h)
  | cdata s =>
      rw [stepContent, if_neg (by simp [Cursor.startsWith, WrittenLeaf.chars]),
        if_pos (by simp [Cursor.startsWith, WrittenLeaf.chars])]
      exact read_of_ok .cdata (Scan.cdata_append h)
  | instruction target gap data =>
      have hread :
          Scan.instruction ⟨o, (WrittenLeaf.instruction target gap data).chars ++ rest⟩ = _ :=
        Scan.instruction_append h
      have hafter := Scan.not_isNameChar_behind_target h rest
      simp only [WrittenLeaf.isInside, WrittenLeaf.isMisc, Bool.and_eq_true, bne_iff_ne] at h
      obtain ⟨⟨⟨⟨⟨⟨⟨-, htarget⟩, hne⟩, -⟩, -⟩, -⟩, -⟩, -⟩ := h
      have hchars : (WrittenLeaf.instruction target gap data).chars ++ rest =
          '<' :: '?' :: (target.toList ++ (gap ++ (data.toList ++ (['?', '>'] ++ rest)))) := by
        simp [WrittenLeaf.chars]
      have hdeclaration := not_declaration (o := o) htarget hne hafter
      rw [hchars] at hread ⊢
      rw [stepContent, if_neg (by simp [Cursor.startsWith]), if_neg (by simp [Cursor.startsWith])]
      dsimp only
      rw [hdeclaration, if_neg (by simp [Cursor.startsWith]), if_pos (by simp [Cursor.startsWith])]
      exact read_of_ok .instruction hread
  | text s =>
      have hread := Scan.text_append (o := o) h (hrest rfl)
      simp only [WrittenLeaf.isInside, Bool.and_eq_true] at h
      obtain ⟨⟨⟨hne, -⟩, hangles⟩, -⟩ := h
      obtain ⟨c, cs, hchars⟩ : ∃ c cs, s.toList = c :: cs := by
        cases hs : s.toList with
        | nil =>
            rw [String.toList_eq_nil_iff] at hs
            rw [hs] at hne
            cases hne
        | cons c cs => exact ⟨c, cs, rfl⟩
      have hangle : '<' ≠ c := by
        rintro rfl
        rw [hchars] at hangles
        simp at hangles
      have hstarts : (WrittenLeaf.text s).chars ++ rest = c :: (cs ++ rest) := by
        rw [WrittenLeaf.chars, hchars, List.cons_append]
      rw [hstarts] at hread ⊢
      rw [stepContent, if_neg (by simp [Cursor.startsWith, hangle]),
        if_neg (by simp [Cursor.startsWith, hangle]), if_neg (by simp [Cursor.startsWith, hangle]),
        if_neg (by simp [Cursor.startsWith, hangle]), if_neg (by simp [Cursor.startsWith, hangle]),
        if_neg (by simp [Cursor.startsWith, hangle])]
      exact read_of_ok .text hread
  | blanks cs => cases h

/-- What follows on the `<` of a tag tells it from all other markup. -/
lemma exists_of_tagOpen {n : QualifiedName} (h : n.isWritten = true) (rest : List Char) :
    ∃ c more, n.text.toList ++ rest = c :: more ∧ '!' ≠ c ∧ '?' ≠ c ∧ '/' ≠ c := by
  obtain ⟨c, more, hchars, hc⟩ := Scan.exists_of_isWritten h
  refine ⟨c, more ++ rest, by rw [hchars, List.cons_append], ?_, ?_, ?_⟩ <;>
    · rintro rfl
      cases hc

/-- A tag is opened inside an element. -/
lemma stepContent_tagOpen {n : QualifiedName} (h : n.isWritten = true)
    (hrest : rest.head?.any isNameChar = false) :
    (⟨mode, depth, ⟨o, '<' :: (n.text.toList ++ rest)⟩⟩ : ScanState).stepContent =
      .ok (some (.tagOpen n (spanAt o ('<' :: n.text.toList))),
        ⟨.insideTag, depth, ⟨o + ('<' :: n.text.toList).length, rest⟩⟩) := by
  have hread := Scan.tagOpen_append (o := o) h hrest
  obtain ⟨c, more, hchars, hmark, hquestion, hslash⟩ := exists_of_tagOpen h rest
  rw [hchars] at hread ⊢
  rw [stepContent, if_neg (by simp [Cursor.startsWith, hmark]),
    if_neg (by simp [Cursor.startsWith, hmark]),
    if_neg (by simp [Cursor.startsWith, hmark, hquestion]),
    if_neg (by simp [Cursor.startsWith, hquestion]), if_neg (by simp [Cursor.startsWith, hslash]),
    if_pos (by simp [Cursor.startsWith]), if_neg (by simp)]
  exact read_of_ok .element hread

/-- The tag of the document element is opened. -/
lemma stepBeforeRoot_tagOpen {n : QualifiedName} (h : n.isWritten = true)
    (hrest : rest.head?.any isNameChar = false) :
    (⟨mode, depth, ⟨o, '<' :: (n.text.toList ++ rest)⟩⟩ : ScanState).stepBeforeRoot =
      .ok (some (.tagOpen n (spanAt o ('<' :: n.text.toList))),
        ⟨.insideTag, depth, ⟨o + ('<' :: n.text.toList).length, rest⟩⟩) := by
  have hread := Scan.tagOpen_append (o := o) h hrest
  obtain ⟨c, more, hchars, hmark, hquestion, hslash⟩ := exists_of_tagOpen h rest
  rw [hchars] at hread ⊢
  rw [stepBeforeRoot, misc, if_neg (by simp [Cursor.startsWith, hmark]),
    if_neg (by simp [Cursor.startsWith, hquestion]),
    if_neg (by simp [Cursor.startsWith, hquestion]),
    if_neg (by simp; decide), if_neg (by simp [Cursor.startsWith, hmark]),
    if_pos (by simp [Cursor.startsWith])]
  exact read_of_ok .element hread

lemma stepContent_endTag {t : WrittenTag} {blanks : List Char} (h : t.name.isWritten = true)
    (hblanks : blanks.all isXmlSpace = true) :
    (⟨mode, depth, ⟨o, t.ending blanks ++ rest⟩⟩ : ScanState).stepContent =
      .ok (some (.endTag t.name (spanAt o (t.ending blanks))),
        ⟨afterTag (depth - 1), depth - 1, ⟨o + (t.ending blanks).length, rest⟩⟩) := by
  rw [stepContent, if_neg (by simp [Cursor.startsWith, WrittenTag.ending]),
    if_neg (by simp [Cursor.startsWith, WrittenTag.ending]),
    if_neg (by simp [Cursor.startsWith, WrittenTag.ending]),
    if_neg (by simp [Cursor.startsWith, WrittenTag.ending]),
    if_pos (by simp [Cursor.startsWith, WrittenTag.ending])]
  exact read_of_ok .element (Scan.endTag_append h hblanks)

lemma stepInsideTag_attribute {a : WrittenAttribute} (h : a.isWellFormed = true) :
    (⟨mode, depth, ⟨o, a.chars ++ rest⟩⟩ : ScanState).stepInsideTag =
      .ok (some (a.tokenAt o), ⟨mode, depth, ⟨o + a.chars.length, rest⟩⟩) := by
  rw [stepInsideTag, read_of_ok .attribute (Scan.tagPart_attribute h)]
  rfl

lemma stepInsideTag_close {blanks : List Char} (h : blanks.all isXmlSpace = true) :
    (⟨mode, depth, ⟨o, blanks ++ '>' :: rest⟩⟩ : ScanState).stepInsideTag =
      .ok (some (.tagClose ⟨o + blanks.length, o + blanks.length + 1⟩),
        ⟨.content, depth + 1, ⟨o + blanks.length + 1, rest⟩⟩) := by
  rw [stepInsideTag, read_of_ok .attribute (Scan.tagPart_close h)]

lemma stepInsideTag_selfClose {blanks : List Char} (h : blanks.all isXmlSpace = true) :
    (⟨mode, depth, ⟨o, blanks ++ '/' :: '>' :: rest⟩⟩ : ScanState).stepInsideTag =
      .ok (some (.tagSelfClose ⟨o + blanks.length, o + blanks.length + 2⟩),
        ⟨afterTag depth, depth, ⟨o + blanks.length + 2, rest⟩⟩) := by
  rw [stepInsideTag, read_of_ok .attribute (Scan.tagPart_selfClose h)]
  rfl

end ScanState

/-! ## Runs over tags -/

/-- Whether a tag of an element may be opened in a mode. -/
def Mode.opensTags (mode : Mode) : Prop :=
  mode = .content ∨ mode = .beforeRoot

namespace WrittenTag

open ScanState

variable {t : WrittenTag} {o depth : Nat} {mode : Mode} {rest : List Char}

/-- Where the blanks at the end of a tag begin. -/
def blanksStart (t : WrittenTag) (o : Nat) : Nat :=
  t.attributesStart o + (t.attributes.flatMap (·.chars)).length

lemma blanksStart_add (t : WrittenTag) (o : Nat) :
    t.blanksStart o + t.blanks.length = o + t.opening.length := by
  simp only [blanksStart, attributesStart, opening, List.length_cons, List.length_append]
  omega

lemma isWritten_name (h : t.isWellFormed = true) : t.name.isWritten = true := by
  simp only [isWellFormed, Bool.and_eq_true] at h
  exact h.1.1.1

/-- Attributes are read one behind another. -/
lemma runsTo_attributes {attributes : List WrittenAttribute}
    (h : attributes.all (·.isWellFormed) = true) :
    (⟨.insideTag, depth, ⟨o, attributes.flatMap (·.chars) ++ rest⟩⟩ : ScanState).RunsTo
      (attributeTokens o attributes)
      ⟨.insideTag, depth, ⟨o + (attributes.flatMap (·.chars)).length, rest⟩⟩ := by
  induction attributes generalizing o with
  | nil => exact .refl _
  | cons a more ih =>
      rw [List.all_cons, Bool.and_eq_true] at h
      have hlength : 0 < a.chars.length := by
        have hstop := a.valueStop_succ 0
        omega
      rw [List.flatMap_cons, List.append_assoc, List.length_append, ← Nat.add_assoc]
      refine .step (t := some (a.tokenAt o)) ?_ (stepInsideTag_attribute h.1) ?_ (ih h.2)
      · exact List.append_ne_nil_of_left_ne_nil (List.ne_nil_of_length_pos hlength) _
      · simp only [stepsLeft, changesLeft, List.length_append]
        omega

/-- A tag is read up to the blanks at its end. -/
lemma runsTo_blanks (hmode : mode.opensTags) (h : t.isWellFormed = true) {c : Char}
    (hc : isNameChar c = false) :
    (⟨mode, depth, ⟨o, t.opening ++ c :: rest⟩⟩ : ScanState).RunsTo (t.tokens o)
      ⟨.insideTag, depth, ⟨t.blanksStart o, t.blanks ++ c :: rest⟩⟩ := by
  simp only [isWellFormed, Bool.and_eq_true] at h
  obtain ⟨⟨⟨hname, hattributes⟩, -⟩, hblanks⟩ := h
  have hbehind : (t.attributes.flatMap (·.chars) ++ (t.blanks ++ c :: rest)).head?.any isNameChar
      = false := by
    cases hattrs : t.attributes with
    | nil => exact Scan.not_isNameChar_blanks hblanks hc rest
    | cons a more =>
        rw [hattrs, List.all_cons, Bool.and_eq_true] at hattributes
        rw [List.flatMap_cons, List.append_assoc]
        exact Scan.not_isNameChar_of_isWellFormed hattributes.1 _
  have hopening : t.opening ++ c :: rest =
      '<' :: (t.name.text.toList ++
        (t.attributes.flatMap (·.chars) ++ (t.blanks ++ c :: rest))) := by
    simp [opening]
  rw [hopening]
  refine .step (t := some _) (List.cons_ne_nil _ _) ?_ ?_ (runsTo_attributes hattributes)
  · rcases hmode with rfl | rfl
    · exact stepContent_tagOpen hname hbehind
    · exact stepBeforeRoot_tagOpen hname hbehind
  · rcases hmode with rfl | rfl <;>
      · simp only [stepsLeft, changesLeft, List.length_cons, List.length_append]
        omega

/-- A start tag is read to its end. -/
lemma runsTo_close (o depth : Nat) (rest : List Char) (hmode : mode.opensTags)
    (h : t.isWellFormed = true) :
    (⟨mode, depth, ⟨o, t.opening ++ '>' :: rest⟩⟩ : ScanState).RunsTo
      (t.tokens o ++ [.tagClose ⟨o + t.opening.length, o + t.opening.length + 1⟩])
      ⟨.content, depth + 1, ⟨o + t.opening.length + 1, rest⟩⟩ := by
  refine (runsTo_blanks hmode h (by decide)).trans ?_
  simp only [isWellFormed, Bool.and_eq_true] at h
  rw [← t.blanksStart_add o]
  refine .one (t := some _) (by simp) (stepInsideTag_close h.2) ?_
  simp only [stepsLeft, changesLeft, List.length_cons, List.length_append]
  omega

/-- An element without content is read to its end. -/
lemma runsTo_selfClose (o depth : Nat) (rest : List Char) (hmode : mode.opensTags)
    (h : t.isWellFormed = true) :
    (⟨mode, depth, ⟨o, t.opening ++ '/' :: '>' :: rest⟩⟩ : ScanState).RunsTo
      (t.tokens o ++ [.tagSelfClose ⟨o + t.opening.length, o + t.opening.length + 2⟩])
      ⟨afterTag depth, depth, ⟨o + t.opening.length + 2, rest⟩⟩ := by
  refine (runsTo_blanks hmode h (by decide)).trans ?_
  simp only [isWellFormed, Bool.and_eq_true] at h
  rw [← t.blanksStart_add o]
  refine .one (t := some _) (by simp) (stepInsideTag_selfClose h.2) ?_
  have hafter : changesLeft (afterTag depth) = 0 := by
    rw [afterTag]
    split_ifs <;> rfl
  simp only [stepsLeft, hafter, List.length_cons, List.length_append]
  omega

end WrittenTag

/-! ## Runs over contents -/

/-- What can be written inside an element is not empty. -/
lemma WrittenLeaf.chars_ne_nil {l : WrittenLeaf} (h : l.isInside = true ∨ l.isOutside = true) :
    l.chars ≠ [] := by
  cases l with
  | text s =>
      rcases h with h | h
      · simp only [isInside, Bool.and_eq_true, Bool.not_eq_true'] at h
        rw [chars, Ne, String.toList_eq_nil_iff]
        rintro rfl
        exact absurd h.1.1.1 (by decide)
      · cases h
  | blanks cs =>
      rcases h with h | h
      · cases h
      · rintro rfl
        cases h
  | _ => exact List.cons_ne_nil _ _

/-- What is not text begins with a `<`. -/
lemma WrittenLeaf.head?_chars {l : WrittenLeaf} (h : l.isRun = false) :
    l.chars.head? = some '<' := by
  cases l with
  | text s => cases h
  | blanks cs => cases h
  | _ => rfl

namespace WrittenContents

open ScanState

variable {c : WrittenContents} {o depth : Nat} {rest : List Char}

lemma length_emptied (tag : WrittenTag) (more : WrittenContents) (o : Nat) :
    o + (emptied tag more).chars.length = o + tag.opening.length + 2 + more.chars.length := by
  simp only [chars, List.length_append, List.length_cons]
  omega

lemma tokens_emptied (tag : WrittenTag) (more : WrittenContents) (o : Nat) :
    (emptied tag more).tokens o = tag.tokens o ++
      [.tagSelfClose ⟨o + tag.opening.length, o + tag.opening.length + 2⟩] ++
      more.tokens (o + tag.opening.length + 2) := by
  simp [tokens]

section Element

variable (tag : WrittenTag) (inner : WrittenContents) (blanks : List Char) (more : WrittenContents)

/-- Where the contents of an element begin that is written at an offset. -/
def innerStart (tag : WrittenTag) (o : Nat) : Nat :=
  o + tag.opening.length + 1

/-- Where its end tag begins. -/
def innerStop (tag : WrittenTag) (inner : WrittenContents) (o : Nat) : Nat :=
  innerStart tag o + inner.chars.length

lemma chars_element_append (rest : List Char) : (element tag inner blanks more).chars ++ rest =
    tag.opening ++ '>' :: (inner.chars ++ (tag.ending blanks ++ (more.chars ++ rest))) := by
  simp [chars]

lemma length_element (o : Nat) : o + (element tag inner blanks more).chars.length =
    innerStop tag inner o + (tag.ending blanks).length + more.chars.length := by
  simp only [chars, innerStop, innerStart, List.length_append, List.length_cons]
  omega

lemma tokens_element (o : Nat) : (element tag inner blanks more).tokens o = tag.tokens o ++
    [.tagClose ⟨o + tag.opening.length, innerStart tag o⟩] ++ inner.tokens (innerStart tag o) ++
    [.endTag tag.name (spanAt (innerStop tag inner o) (tag.ending blanks))] ++
    more.tokens (innerStop tag inner o + (tag.ending blanks).length) := by
  simp [tokens, innerStop, innerStart]

end Element

/-- Contents that do not begin with text begin with a `<`, or are empty. -/
lemma head?_chars_append (h : c.beginsWithRun = false) :
    (c.chars ++ rest).head? = some '<' ∨ c = .nil := by
  cases c with
  | nil => exact .inr rfl
  | leaf l more =>
      left
      have hhead := WrittenLeaf.head?_chars (l := l) h
      cases hchars : l.chars with
      | nil => rw [hchars] at hhead; cases hhead
      | cons d ds =>
          rw [hchars] at hhead
          rw [chars, hchars]
          exact hhead
  | emptied tag more => exact .inl rfl
  | element tag inner blanks more => exact .inl rfl

/-- An end tag is read inside an element that is in another one. -/
lemma runsTo_ending (o : Nat) (rest : List Char) {tag : WrittenTag} {blanks : List Char}
    (h : tag.name.isWritten = true)
    (hblanks : blanks.all isXmlSpace = true) (hdepth : 0 < depth) :
    (⟨.content, depth + 1, ⟨o, tag.ending blanks ++ rest⟩⟩ : ScanState).RunsTo
      [.endTag tag.name (spanAt o (tag.ending blanks))]
      ⟨.content, depth, ⟨o + (tag.ending blanks).length, rest⟩⟩ := by
  have hafter : afterTag depth = .content := if_neg (by omega)
  have hstep :
      (⟨.content, depth + 1, ⟨o, tag.ending blanks ++ rest⟩⟩ : ScanState).stepContent = _ :=
    stepContent_endTag h hblanks
  rw [Nat.add_sub_cancel, hafter] at hstep
  refine .one (t := some _) (by simp [WrittenTag.ending]) hstep ?_
  simp only [stepsLeft, WrittenTag.ending, List.length_append, List.length_cons]
  omega

/-- **A run over contents inside an element** reads their tokens, whatever markup comes behind
them. -/
theorem runsTo (o depth : Nat) (rest : List Char) (h : c.isWellFormed = true) (hdepth : 0 < depth)
    (hrest : rest.head? = some '<') :
    (⟨.content, depth, ⟨o, c.chars ++ rest⟩⟩ : ScanState).RunsTo (c.tokens o)
      ⟨.content, depth, ⟨o + c.chars.length, rest⟩⟩ := by
  induction c generalizing o depth rest with
  | nil => exact .refl _
  | leaf l more ih =>
      simp only [isWellFormed, Bool.and_eq_true, Bool.not_eq_true', Bool.and_eq_false_iff] at h
      obtain ⟨⟨hleaf, hapart⟩, hmore⟩ := h
      have hne := WrittenLeaf.chars_ne_nil (.inl hleaf)
      have hlength := List.length_pos_of_ne_nil hne
      have hbehind : l.isRun = true → (more.chars ++ rest).head? = some '<' := by
        intro hrun
        rw [hrun] at hapart
        rcases head?_chars_append (hapart.resolve_left (by decide)) with hhead | rfl
        · exact hhead
        · exact hrest
      rw [chars, List.append_assoc, List.length_append, ← Nat.add_assoc]
      refine .step (List.append_ne_nil_of_left_ne_nil hne _) (stepContent_leaf hleaf hbehind) ?_
        (ih _ depth rest hmore hdepth hrest)
      simp only [stepsLeft, changesLeft, List.length_append]
      omega
  | emptied tag more ih =>
      simp only [isWellFormed, Bool.and_eq_true] at h
      obtain ⟨htag, hmore⟩ := h
      have hafter : afterTag depth = .content := if_neg (by omega)
      have hchars : (emptied tag more).chars ++ rest =
          tag.opening ++ '/' :: '>' :: (more.chars ++ rest) := by simp [chars]
      have htagRun := WrittenTag.runsTo_selfClose o depth (more.chars ++ rest) (.inl rfl) htag
      rw [hafter] at htagRun
      rw [hchars, length_emptied, tokens_emptied]
      exact htagRun.trans (ih _ depth rest hmore hdepth hrest)
  | element tag inner blanks more ihinner ihmore =>
      simp only [isWellFormed, Bool.and_eq_true] at h
      obtain ⟨⟨⟨htag, hinner⟩, hblanks⟩, hmore⟩ := h
      have hname := WrittenTag.isWritten_name htag
      let behind := tag.ending blanks ++ (more.chars ++ rest)
      have htagRun := WrittenTag.runsTo_close o depth (inner.chars ++ behind) (.inl rfl) htag
      have hinnerRun := ihinner (innerStart tag o) (depth + 1) behind hinner
        (Nat.succ_pos depth) rfl
      have hendRun := runsTo_ending (innerStop tag inner o) (more.chars ++ rest) hname
        hblanks hdepth
      rw [chars_element_append, length_element, tokens_element]
      exact ((htagRun.trans hinnerRun).trans hendRun).trans (ihmore _ depth rest hmore hdepth hrest)

/-! ## Runs over documents -/

/-- Contents that do not begin with blanks begin with a `<`, or are empty. -/
lemma not_isXmlSpace_head? (h : c.beginsWithRun = false) :
    c.chars.head?.any isXmlSpace = false := by
  have hhead : (c.chars ++ []).head? = some '<' ∨ c = .nil := head?_chars_append h
  rw [List.append_nil] at hhead
  rcases hhead with hhead | rfl
  · rw [hhead]
    rfl
  · rfl

/-- No leaf outside the document element is a document type. -/
lemma not_doctype {l : WrittenLeaf} (h : l.isOutside = true) :
    ¬(⟨o, l.chars ++ rest⟩ : Cursor).startsWith "<!DOCTYPE" = true := by
  cases l with
  | comment s => simp [Cursor.startsWith, WrittenLeaf.chars]
  | instruction target gap data => simp [Cursor.startsWith, WrittenLeaf.chars]
  | blanks cs =>
      simp only [WrittenLeaf.isOutside, Bool.and_eq_true] at h
      cases cs with
      | nil => cases h.1
      | cons c cs =>
          have hangle : '<' ≠ c := by
            rintro rfl
            exact absurd h.2 (by simp [isXmlSpace])
          simp [Cursor.startsWith, WrittenLeaf.chars, hangle]
  | text s => cases h
  | cdata s => cases h

/-- A leaf is read outside the document element. -/
lemma runsTo_leaf {l : WrittenLeaf} {mode : Mode} (hmode : mode = .prolog ∨ mode = .epilog)
    (h : l.isOutside = true) (hrest : l.isRun = true → rest.head?.any isXmlSpace = false) :
    (⟨mode, depth, ⟨o, l.chars ++ rest⟩⟩ : ScanState).RunsTo (l.token? o).toList
      ⟨mode, depth, ⟨o + l.chars.length, rest⟩⟩ := by
  have hne := WrittenLeaf.chars_ne_nil (.inr h)
  have hlength := List.length_pos_of_ne_nil hne
  refine .one (List.append_ne_nil_of_left_ne_nil hne _) ?_ ?_
  · rcases hmode with rfl | rfl
    · rw [step]
      dsimp only
      rw [stepProlog, if_neg (not_doctype h), misc_leaf h hrest]
    · exact misc_leaf h hrest
  · simp only [stepsLeft, List.length_append]
    omega

/-- What follows the document element is read to the end. -/
lemma runsTo_epilog (h : c.isEpilog = true) :
    (⟨.epilog, depth, ⟨o, c.chars⟩⟩ : ScanState).RunsTo (c.tokens o)
      ⟨.epilog, depth, ⟨o + c.chars.length, []⟩⟩ := by
  induction c generalizing o with
  | nil => exact .refl _
  | leaf l more ih =>
      simp only [isEpilog, Bool.and_eq_true, Bool.not_eq_true', Bool.and_eq_false_iff] at h
      obtain ⟨⟨hleaf, hapart⟩, hmore⟩ := h
      rw [chars, List.length_append, ← Nat.add_assoc]
      refine (runsTo_leaf (.inr rfl) hleaf fun hrun => ?_).trans (ih hmore)
      rw [hrun] at hapart
      exact not_isXmlSpace_head? (hapart.resolve_left (by decide))
  | emptied tag more => cases h
  | element tag inner blanks more => cases h

/-- A tag ends the prolog. -/
lemma runsTo_beforeRoot {tag : WrittenTag} (h : tag.isWellFormed = true) :
    (⟨.prolog, depth, ⟨o, tag.opening ++ rest⟩⟩ : ScanState).RunsTo []
      ⟨.beforeRoot, depth, ⟨o, tag.opening ++ rest⟩⟩ := by
  simp only [WrittenTag.isWellFormed, Bool.and_eq_true] at h
  obtain ⟨d, more, hchars, hmark, hquestion, hslash⟩ :=
    exists_of_tagOpen h.1.1.1 (tag.attributes.flatMap (·.chars) ++ tag.blanks ++ rest)
  have hopening : tag.opening ++ rest = '<' :: d :: more := by
    rw [← hchars]
    simp [WrittenTag.opening]
  rw [hopening]
  refine .one (t := none) (by simp) ?_ (by simp [stepsLeft, changesLeft])
  rw [step]
  dsimp only
  rw [stepProlog, if_neg (by simp [Cursor.startsWith, hmark]), misc,
    if_neg (by simp [Cursor.startsWith, hmark]), if_neg (by simp [Cursor.startsWith, hquestion]),
    if_neg (by simp [Cursor.startsWith, hquestion]), if_neg (by simp; decide)]
  rfl

/-- An end tag closes the document element. -/
lemma runsTo_rootEnding (o : Nat) (rest : List Char) {tag : WrittenTag} {blanks : List Char}
    (h : tag.name.isWritten = true)
    (hblanks : blanks.all isXmlSpace = true) :
    (⟨.content, 1, ⟨o, tag.ending blanks ++ rest⟩⟩ : ScanState).RunsTo
      [.endTag tag.name (spanAt o (tag.ending blanks))]
      ⟨.epilog, 0, ⟨o + (tag.ending blanks).length, rest⟩⟩ := by
  have hafter : afterTag (1 - 1) = .epilog := rfl
  have hstep : (⟨.content, 1, ⟨o, tag.ending blanks ++ rest⟩⟩ : ScanState).stepContent = _ :=
    stepContent_endTag h hblanks
  rw [hafter] at hstep
  refine .one (t := some _) (by simp [WrittenTag.ending]) hstep ?_
  simp only [stepsLeft, changesLeft, WrittenTag.ending, List.length_append, List.length_cons]
  omega

/-- **A run over a document** reads its tokens. -/
theorem runsTo_document (h : c.isDocument = true) :
    (⟨.prolog, 0, ⟨o, c.chars⟩⟩ : ScanState).RunsTo (c.tokens o)
      ⟨.epilog, 0, ⟨o + c.chars.length, []⟩⟩ := by
  induction c generalizing o with
  | nil => cases h
  | leaf l more ih =>
      simp only [isDocument, Bool.and_eq_true, Bool.not_eq_true', Bool.and_eq_false_iff] at h
      obtain ⟨⟨hleaf, hapart⟩, hmore⟩ := h
      rw [chars, List.length_append, ← Nat.add_assoc]
      refine (runsTo_leaf (.inl rfl) hleaf fun hrun => ?_).trans (ih hmore)
      rw [hrun] at hapart
      exact not_isXmlSpace_head? (hapart.resolve_left (by decide))
  | emptied tag more =>
      simp only [isDocument, Bool.and_eq_true] at h
      obtain ⟨htag, hmore⟩ := h
      have htagRun := WrittenTag.runsTo_selfClose o 0 more.chars (.inr rfl) htag
      have hrun := ((runsTo_beforeRoot htag).trans htagRun).trans (runsTo_epilog hmore)
      rw [length_emptied, tokens_emptied]
      exact hrun
  | element tag inner blanks more ihinner ihmore =>
      simp only [isDocument, Bool.and_eq_true] at h
      obtain ⟨⟨⟨htag, hinner⟩, hblanks⟩, hmore⟩ := h
      let behind := tag.ending blanks ++ more.chars
      have htagRun := WrittenTag.runsTo_close o 0 (inner.chars ++ behind) (.inr rfl) htag
      have hinnerRun := runsTo (innerStart tag o) 1 behind hinner Nat.one_pos rfl
      have hendRun := runsTo_rootEnding (innerStop tag inner o) more.chars
        (WrittenTag.isWritten_name htag) hblanks
      have hchars := chars_element_append tag inner blanks more []
      rw [List.append_nil, List.append_nil] at hchars
      rw [length_element, hchars, tokens_element]
      exact ((((runsTo_beforeRoot htag).trans htagRun).trans hinnerRun).trans hendRun).trans
        (runsTo_epilog hmore)

/-- A tag is no XML declaration. -/
lemma startsWith_opening {tag : WrittenTag} (h : tag.isWellFormed = true) (rest : List Char) :
    (⟨o, tag.opening ++ rest⟩ : Cursor).startsWith "<?xml " = false := by
  obtain ⟨d, more, hchars, -, hquestion, -⟩ := exists_of_tagOpen (WrittenTag.isWritten_name h)
    (tag.attributes.flatMap (·.chars) ++ tag.blanks ++ rest)
  have hopening : tag.opening ++ rest = '<' :: d :: more := by
    rw [← hchars]
    simp [WrittenTag.opening]
  rw [hopening, ← Bool.not_eq_true]
  simp [Cursor.startsWith, hquestion]

/-- What is written as a document has no XML declaration at its start. -/
lemma startsWith_of_isDocument (h : c.isDocument = true) :
    (⟨o, c.chars⟩ : Cursor).startsWith "<?xml " = false := by
  cases c with
  | nil => cases h
  | emptied tag more =>
      simp only [isDocument, Bool.and_eq_true] at h
      exact startsWith_opening h.1 _
  | element tag inner blanks more =>
      simp only [isDocument, Bool.and_eq_true] at h
      exact startsWith_opening h.1.1.1 _
  | leaf l more =>
      simp only [isDocument, Bool.and_eq_true] at h
      have hleaf := h.1.1
      rw [chars]
      cases l with
      | comment s =>
          rw [← Bool.not_eq_true]
          simp [Cursor.startsWith, WrittenLeaf.chars]
      | instruction target gap data =>
          have hafter := Scan.not_isNameChar_behind_target hleaf more.chars
          simp only [WrittenLeaf.isOutside, WrittenLeaf.isMisc, Bool.and_eq_true,
            bne_iff_ne] at hleaf
          have hdeclaration := not_declaration (o := o) hleaf.1.1.1.1.1.1.2 hleaf.1.1.1.1.1.2 hafter
          simpa [WrittenLeaf.chars] using hdeclaration
      | blanks cs =>
          cases cs with
          | nil => cases hleaf
          | cons d cs =>
              have hangle : '<' ≠ d := by
                rintro rfl
                exact absurd hleaf (by simp [WrittenLeaf.isOutside, isXmlSpace])
              rw [← Bool.not_eq_true]
              simp [Cursor.startsWith, WrittenLeaf.chars, hangle]
      | text s => cases hleaf
      | cdata s => cases hleaf

/-- What is written as a document begins with a `<` or with a blank. -/
lemma exists_of_isDocument (h : c.isDocument = true) :
    ∃ d more, c.chars = d :: more ∧ (d = '<' ∨ isXmlSpace d = true) := by
  cases c with
  | nil => cases h
  | emptied tag more => exact ⟨_, _, rfl, .inl rfl⟩
  | element tag inner blanks more => exact ⟨_, _, rfl, .inl rfl⟩
  | leaf l more =>
      simp only [isDocument, Bool.and_eq_true] at h
      have hleaf := h.1.1
      cases l with
      | blanks cs =>
          cases cs with
          | nil => cases hleaf
          | cons d cs =>
              simp only [WrittenLeaf.isOutside, List.all_cons, Bool.and_eq_true] at hleaf
              exact ⟨d, cs ++ more.chars, rfl, .inr hleaf.2.1⟩
      | text s => cases hleaf
      | cdata s => cases hleaf
      | _ => exact ⟨_, _, rfl, .inl rfl⟩

/-- **The tokens of a document** are those that are written; there is no fault. -/
theorem scanAll_chars (h : c.isDocument = true) : scanAll c.chars = (c.tokens 0, none) := by
  obtain ⟨d, more, hchars, hfirst⟩ := exists_of_isDocument h
  have hstart : startCursor c.chars = ⟨0, c.chars⟩ := by
    rw [hchars, startCursor]
    rintro rest ⟨⟩
    exact absurd hfirst (by decide)
  have hmode : (⟨.declaration, 0, ⟨0, c.chars⟩⟩ : ScanState).RunsTo []
      ⟨.prolog, 0, ⟨0, c.chars⟩⟩ := by
    refine .one (t := none) (by simp [hchars]) ?_ (by simp [stepsLeft, changesLeft])
    rw [step]
    dsimp only
    rw [startsWith_of_isDocument h, if_neg Bool.false_ne_true]
    rfl
  obtain ⟨steps, -, hscan⟩ := scan_of_runsTo (hmode.trans (runsTo_document h)) (c.chars.length + 3)
    (by simp [stepsLeft, changesLeft])
  rw [scanAll, hstart, hscan, scan_of_rest_nil rfl, List.append_nil, List.nil_append]

end WrittenContents

end XmlAdvisor
