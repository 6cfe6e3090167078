import XmlAdvisor.Insertion.Outline
import XmlAdvisor.Proofs.ParsedTrees

/-!
# What outlines are written as

The text that is generated for an outline is one element, with the outlines of its children on lines
of their own inside it.  Pieces are written one after another, and what a field or the place of the
cursor is written as depends on those before, so the state of the writing is carried along.

* `Printing` — how far pieces have been written; `Printing.chars` — what they are written as from
  there.
* `Outline.written` — the element that an outline is written as.
* **`Outline.chars_written`** — its characters are those of the pieces of the outline.
* **`Outline.isWellFormed_written`** — it is well formed if the names and the defaults of the
  outline can be written.
-/

namespace XmlAdvisor

/-! ## Pieces one after another -/

/-- How far pieces have been written. -/
structure Printing where
  asSnippet : Bool
  /-- The number of the fields so far. -/
  fields : Nat
  cursorPlaced : Bool

namespace Printing

variable (s : Printing)

/-- What a piece is written as. -/
def text (s : Printing) : Piece → String
  | .markup t => t
  | .content t => if s.asSnippet then snippetEscaped t else t
  | .field default => if s.asSnippet then fieldText (s.fields + 1) default else default
  | .cursor => if s.asSnippet && !s.cursorPlaced then "$0" else ""

/-- How far pieces have been written with one more. -/
def next (s : Printing) : Piece → Printing
  | .field _ => { s with fields := s.fields + 1 }
  | .cursor => { s with cursorPlaced := true }
  | _ => s

/-- How far pieces have been written with some more. -/
def after (s : Printing) (pieces : List Piece) : Printing :=
  pieces.foldl next s

lemma asSnippet_next (s : Printing) (p : Piece) : (s.next p).asSnippet = s.asSnippet := by
  cases p <;> rfl

lemma asSnippet_after (s : Printing) (pieces : List Piece) :
    (s.after pieces).asSnippet = s.asSnippet := by
  induction pieces generalizing s with
  | nil => rfl
  | cons p pieces ih => exact (ih (s.next p)).trans (s.asSnippet_next p)

/-- What pieces are written as, one after another. -/
def chars (s : Printing) : List Piece → List Char
  | [] => []
  | p :: more => (s.text p).toList ++ (s.next p).chars more

lemma chars_append (pieces more : List Piece) :
    s.chars (pieces ++ more) = s.chars pieces ++ (s.after pieces).chars more := by
  induction pieces generalizing s with
  | nil => rfl
  | cons p pieces ih =>
      rw [List.cons_append, chars, chars, ih, List.append_assoc]
      rfl

@[simp] lemma chars_markup (t : String) (more : List Piece) :
    s.chars (.markup t :: more) = t.toList ++ s.chars more := rfl

lemma chars_snippetTexts (fields : Nat) (cursorPlaced : Bool) (pieces : List Piece) :
    (String.join (snippetTexts fields cursorPlaced pieces)).toList =
      (Printing.mk true fields cursorPlaced).chars pieces := by
  induction pieces generalizing fields cursorPlaced with
  | nil => rfl
  | cons p pieces ih =>
      cases p with
      | cursor =>
          cases cursorPlaced <;> simp [snippetTexts, chars, text, next, ← ih]
      | _ => simp [snippetTexts, chars, text, next, ← ih]

lemma chars_plainText (fields : Nat) (cursorPlaced : Bool) (pieces : List Piece) :
    (plainText pieces).toList = (Printing.mk false fields cursorPlaced).chars pieces := by
  induction pieces generalizing fields cursorPlaced with
  | nil => rfl
  | cons p pieces ih =>
      have hjoin : (plainText (p :: pieces)).toList = p.plainText.toList ++
          (plainText pieces).toList := by
        simp [plainText]
      rw [hjoin, chars]
      cases p with
      | field default => exact congrArg _ (ih (fields + 1) cursorPlaced)
      | cursor => exact congrArg _ (ih fields true)
      | _ => exact congrArg _ (ih fields cursorPlaced)

/-- **Both ways of writing pieces go from one piece to the next.** -/
lemma chars_insertionText (asSnippet : Bool) (pieces : List Piece) :
    (insertionText asSnippet pieces).toList = (Printing.mk asSnippet 0 false).chars pieces := by
  cases asSnippet with
  | false => exact chars_plainText 0 false pieces
  | true => exact chars_snippetTexts 0 false pieces

/-! ## Attributes -/

/-- An attribute of an outline as it is written. -/
def writtenAttribute (s : Printing) (a : String × String) : WrittenAttribute :=
  ⟨[' '], ⟨none, a.1⟩, [], [], '"', s.text (.field a.2)⟩

/-- The attributes of an outline as they are written. -/
def writtenAttributes (s : Printing) : List (String × String) → List WrittenAttribute
  | [] => []
  | a :: more => s.writtenAttribute a :: (s.next (.field a.2)).writtenAttributes more

lemma chars_writtenAttribute (a : String × String) :
    (s.writtenAttribute a).chars = s.chars (attributePieces a) := by
  simp [writtenAttribute, WrittenAttribute.chars, QualifiedName.text, attributePieces, chars, text]

lemma chars_writtenAttributes (attributes : List (String × String)) :
    (s.writtenAttributes attributes).flatMap (·.chars) =
    s.chars (attributes.flatMap attributePieces) := by
  induction attributes generalizing s with
  | nil => rfl
  | cons a more ih =>
      rw [writtenAttributes, List.flatMap_cons, List.flatMap_cons, chars_append,
        chars_writtenAttribute, ih]
      rfl

lemma names_writtenAttributes (attributes : List (String × String)) :
    (s.writtenAttributes attributes).map (·.name) = attributes.map fun a => ⟨none, a.1⟩ := by
  induction attributes generalizing s with
  | nil => rfl
  | cons a more ih => rw [writtenAttributes, List.map_cons, List.map_cons, ih]; rfl

end Printing

/-! ## Outlines -/

/-- A text inside an element, which is nothing if it is empty. -/
def textContents (t : String) : WrittenContents :=
  if t.isEmpty then .nil else .leaf (.text t) .nil

mutual
/-- The element that an outline is written as, and what comes behind it. -/
def Outline.written (l : Layout) (level : Nat) (s : Printing) (more : WrittenContents) :
    Outline → WrittenContents
  | .element name attributes children =>
    let inside := s.after (attributes.flatMap attributePieces)
    .element ⟨⟨none, name⟩, s.writtenAttributes attributes, []⟩
      (if children.isEmpty then textContents (inside.text .cursor)
        else Outline.writtenLines l level inside children) [] more

/-- What outlines inside an element are written as, up to the line of its end tag. -/
def Outline.writtenLines (l : Layout) (level : Nat) (s : Printing) : List Outline → WrittenContents
  | [] => .leaf (.text (l.lineAt level)) .nil
  | o :: rest =>
    .leaf (.text (l.lineAt (level + 1))) <| o.written l (level + 1) s <|
      Outline.writtenLines l level (s.after (o.pieces l {} (level + 1) none)) rest
end

lemma chars_textContents (t : String) : (textContents t).chars = t.toList := by
  rw [textContents]
  split_ifs with h
  · rw [String.isEmpty_iff.mp h]
    rfl
  · exact List.append_nil _

/-- The pieces of an element with an end tag: its start tag, what is inside, and the end tag. -/
lemma Outline.pieces_element (l : Layout) (level : Nat) (name : String)
    (attributes : List (String × String)) (children : List Outline) :
    (Outline.element name attributes children).pieces l {} level none =
      .markup ("<" ++ name) :: (attributes.flatMap attributePieces ++ (.markup ">" ::
        ((if children.isEmpty then [.cursor]
          else Outline.linePieces l {} (level + 1) children ++ [.markup (l.lineAt level)]) ++
            [.markup ("</" ++ name ++ ">")]))) := by
  rw [Outline.pieces]
  simp

mutual
/-- **An outline is written as its pieces are**, in front of what comes behind it. -/
theorem Outline.chars_written (l : Layout) (level : Nat) (s : Printing) (more : WrittenContents) :
    (o : Outline) →
      (o.written l level s more).chars = s.chars (o.pieces l {} level none) ++ more.chars
  | .element name attributes children => by
    have hinside : (if children.isEmpty then textContents
        ((s.after (attributes.flatMap attributePieces)).text .cursor)
        else Outline.writtenLines l level (s.after (attributes.flatMap attributePieces))
          children).chars =
        (s.after (attributes.flatMap attributePieces)).chars (if children.isEmpty then [.cursor]
          else Outline.linePieces l {} (level + 1) children ++ [.markup (l.lineAt level)]) := by
      split_ifs
      · rw [chars_textContents, Printing.chars, Printing.chars, List.append_nil]
      · exact Outline.chars_writtenLines l level _ children
    rw [Outline.written, Outline.pieces_element, WrittenContents.chars, hinside, WrittenTag.opening,
      Printing.chars_writtenAttributes, Printing.chars_markup, Printing.chars_append,
      Printing.chars_markup, Printing.chars_append]
    simp [WrittenTag.ending, QualifiedName.text, Printing.chars, Printing.text]

/-- Outlines are written on lines of their own, and the end tag behind them on one more. -/
theorem Outline.chars_writtenLines (l : Layout) (level : Nat) (s : Printing) :
    (os : List Outline) → (Outline.writtenLines l level s os).chars =
      s.chars (Outline.linePieces l {} (level + 1) os ++ [.markup (l.lineAt level)])
  | [] => rfl
  | o :: rest => by
    rw [Outline.writtenLines, Outline.linePieces, WrittenContents.chars,
      Outline.chars_written l (level + 1) s _ o, Outline.chars_writtenLines l level _ rest,
      List.cons_append, List.cons_append, Printing.chars_markup, List.append_assoc,
      Printing.chars_append s (o.pieces l {} (level + 1) none)]
    rfl
end

/-! ## What can be written -/

/-- Whether characters can stand between double quotation marks. -/
def canBeQuoted (cs : List Char) : Bool :=
  cs.all fun c => isDocumentChar c && c != '"' && c != '<'

mutual
/-- Whether an outline can be written: no name of an attribute stands twice in a tag, and the
defaults can stand between quotation marks. -/
def Outline.isWritable : Outline → Bool
  | .element name attributes children =>
    isNamePart name.toList &&
      attributes.all (fun a => isNamePart a.1.toList && canBeQuoted a.2.toList) &&
      decide (attributes.map Prod.fst).Nodup && Outline.areWritable children

def Outline.areWritable : List Outline → Bool
  | [] => true
  | o :: more => o.isWritable && Outline.areWritable more
end

/-! ### Blanks -/

lemma isDocumentChar_of_isXmlSpace {c : Char} (h : isXmlSpace c = true) :
    isDocumentChar c = true := by
  simp only [isXmlSpace, Bool.or_eq_true, beq_iff_eq] at h
  rcases h with ((rfl | rfl) | rfl) | rfl <;> rfl

lemma occursIn_eq_false {x : Char} {needle cs : List Char} (hx : x ∈ needle) (h : x ∉ cs) :
    occursIn needle cs = false := by
  induction cs with
  | nil =>
      cases needle with
      | nil => cases hx
      | cons y needle => rfl
  | cons c cs ih =>
      rw [occursIn, ih fun hmem => h (List.mem_cons_of_mem c hmem), Bool.or_false,
        ← Bool.not_eq_true]
      intro hprefix
      exact h ((List.isPrefixOf_iff_prefix.mp hprefix).mem hx)

/-- Blanks are a text inside an element. -/
lemma isInside_of_blank {t : String} (hne : t ≠ "") (h : t.toList.all isXmlSpace = true) :
    (WrittenLeaf.text t).isInside = true := by
  have hblank {c : Char} (hc : c ∈ t.toList) : isXmlSpace c = true := List.all_eq_true.mp h c hc
  have hother {c : Char} (hc : isXmlSpace c = false) : c ∉ t.toList := by
    intro hmem
    rw [hblank hmem] at hc
    cases hc
  have hchars : t.toList.all isDocumentChar = true :=
    List.all_eq_true.mpr fun c hc => isDocumentChar_of_isXmlSpace (hblank hc)
  have hangle : t.toList.contains '<' = false := by
    rw [← Bool.not_eq_true, List.contains_iff_mem]
    exact hother rfl
  have hsection : occursIn "]]>".toList t.toList = false :=
    occursIn_eq_false (x := ']') (by decide) (hother rfl)
  have hfilled : t.isEmpty = false := by
    rw [← Bool.not_eq_true, String.isEmpty_iff]
    exact hne
  rw [WrittenLeaf.isInside, hfilled, hchars, hangle, hsection]
  rfl

lemma Indentation.unit_blank (i : Indentation) : i.unit.toList.all isXmlSpace = true := by
  rw [Indentation.unit]
  split_ifs
  · rw [String.toList_ofList]
    exact List.all_replicate.trans (by simp [isXmlSpace])
  · rfl

lemma Indentation.units_blank (i : Indentation) (level : Nat) :
    (String.join (List.replicate level i.unit)).toList.all isXmlSpace = true := by
  rw [String.toList_join, List.all_flatMap]
  exact List.all_eq_true.mpr fun u hu => (List.eq_of_mem_replicate hu) ▸ i.unit_blank

/-- Whether something stands between lines, and nothing but blanks. -/
def Layout.IsBlank (l : Layout) : Prop :=
  l.lineDelimiter ≠ "" ∧ l.lineDelimiter.toList.all isXmlSpace = true

lemma Layout.isBlank_of_newline {l : Layout} (hl : l.lineDelimiter = "\n") : l.IsBlank := by
  rw [IsBlank, hl]
  exact ⟨by decide, rfl⟩

/-- What stands before a line is blank. -/
lemma Layout.lineAt_blank {l : Layout} (hl : l.IsBlank) (level : Nat) :
    l.lineAt level ≠ "" ∧ (l.lineAt level).toList.all isXmlSpace = true := by
  constructor
  · intro hempty
    exact hl.1 (String.append_eq_empty_iff.mp hempty).1
  · rw [lineAt, String.toList_append, List.all_append, hl.2]
    exact l.indentation.units_blank level

/-! ### Fields -/

lemma canBeQuoted_append {cs ds : List Char} (h : canBeQuoted cs = true)
    (h' : canBeQuoted ds = true) :
    canBeQuoted (cs ++ ds) = true := by
  rw [canBeQuoted, List.all_append, Bool.and_eq_true]
  exact ⟨h, h'⟩

lemma canBeQuoted_toString (n : Nat) : canBeQuoted (toString n).toList = true := by
  have hdigits : (toString n).toList = Nat.toDigits 10 n := by
    show (String.ofList (Nat.toDigits 10 n)).toList = Nat.toDigits 10 n
    exact String.toList_ofList
  rw [hdigits, canBeQuoted, List.all_eq_true]
  intro c hc
  have hdigit := Nat.isDigit_of_mem_toDigits (by decide) (by decide) hc
  have hrange : 48 ≤ c.toNat ∧ c.toNat ≤ 57 := by
    simpa [Char.isDigit, UInt32.le_iff_toNat_le] using hdigit
  have hdocument : isDocumentChar c = true := by
    rw [isDocumentChar, if_neg (by omega), Bool.and_eq_true, bne_iff_ne, bne_iff_ne]
    omega
  have hother {d : Char} (hd : d.toNat < 48 ∨ 57 < d.toNat) : (c != d) = true := by
    rw [bne_iff_ne]
    rintro rfl
    omega
  rw [hdocument, hother (.inl (by decide)), hother (.inr (by decide))]
  rfl

lemma canBeQuoted_escapeSnippet {cs : List Char} (h : canBeQuoted cs = true) :
    canBeQuoted (escapeSnippet cs) = true := by
  induction cs with
  | nil => rfl
  | cons c cs ih =>
      rw [canBeQuoted, List.all_cons, Bool.and_eq_true] at h
      have hmore := ih h.2
      rw [canBeQuoted] at hmore
      rw [escapeSnippet]
      split_ifs
      · rw [canBeQuoted, List.all_cons, List.all_cons, h.1, hmore]
        rfl
      · rw [canBeQuoted, List.all_cons, h.1, hmore]
        rfl

/-- What a field is written as can stand between quotation marks if its default can. -/
lemma Printing.canBeQuoted_field (s : Printing) {default : String}
    (h : canBeQuoted default.toList = true) :
    canBeQuoted (s.text (.field default)).toList = true := by
  rw [text]
  split_ifs
  · rw [fieldText]
    split_ifs
    · rw [String.toList_append]
      exact canBeQuoted_append rfl (canBeQuoted_toString _)
    · simp only [String.toList_append]
      refine canBeQuoted_append (canBeQuoted_append (canBeQuoted_append (canBeQuoted_append rfl
        (canBeQuoted_toString _)) rfl) ?_) rfl
      rw [snippetEscaped, String.toList_ofList]
      exact canBeQuoted_escapeSnippet h
  · exact h

/-! ### Elements -/

namespace WrittenContents

/-- Whether the texts in contents can be written, none of them next to another one; tags may be
any. -/
def isArranged : WrittenContents → Bool
  | .nil => true
  | .leaf l more => l.isInside && !(l.isRun && more.beginsWithRun) && more.isArranged
  | .emptied _ more => more.isArranged
  | .element _ inner blanks more => inner.isArranged && blanks.all isXmlSpace && more.isArranged

/-- Contents are well formed if their tags and the texts between these are. -/
lemma isWellFormed_iff (c : WrittenContents) :
    c.isWellFormed = true ↔ c.allTags (·.isWellFormed) = true ∧ c.isArranged = true := by
  induction c with
  | nil => simp [isWellFormed, allTags, isArranged]
  | leaf l more ih =>
      simp only [isWellFormed, allTags, isArranged, Bool.and_eq_true, ih]
      exact and_left_comm
  | emptied tag more ih =>
      simp only [isWellFormed, allTags, isArranged, Bool.and_eq_true, ih, and_assoc]
  | element tag inner blanks more ihinner ihmore =>
      simp only [isWellFormed, allTags, isArranged, Bool.and_eq_true, ihinner, ihmore]
      tauto

end WrittenContents

/-- What stands for the cursor is nothing or a text. -/
lemma Printing.isArranged_cursor (s : Printing) :
    (textContents (s.text .cursor)).isArranged = true := by
  rw [text]
  split_ifs <;> rfl

mutual
/-- What an outline is written as has blanks between its tags. -/
theorem Outline.isArranged_written {l : Layout} (hl : l.IsBlank) (level : Nat) (s : Printing)
    {more : WrittenContents} (hmore : more.isArranged = true) :
    (o : Outline) → (o.written l level s more).isArranged = true
  | .element name attributes children => by
    rw [Outline.written, WrittenContents.isArranged, hmore]
    split_ifs
    · rw [Printing.isArranged_cursor]
      rfl
    · rw [Outline.isArranged_writtenLines hl level _ children]
      rfl

theorem Outline.isArranged_writtenLines {l : Layout} (hl : l.IsBlank) (level : Nat) (s : Printing) :
    (os : List Outline) → (Outline.writtenLines l level s os).isArranged = true
  | [] => by
    obtain ⟨hne, hblank⟩ := Layout.lineAt_blank hl level
    rw [Outline.writtenLines, WrittenContents.isArranged, isInside_of_blank hne hblank]
    rfl
  | .element name attributes children :: rest => by
    obtain ⟨hne, hblank⟩ := Layout.lineAt_blank hl (level + 1)
    have hrest := Outline.isArranged_writtenLines hl level
      (s.after (Outline.pieces l {} (level + 1) none (.element name attributes children))) rest
    have hfirst := Outline.isArranged_written hl (level + 1) s hrest
      (.element name attributes children)
    rw [Outline.writtenLines, WrittenContents.isArranged, isInside_of_blank hne hblank, hfirst]
    rfl
end

/-! ### Tags -/

mutual
/-- Whether the name and the attributes of an outline are of some sort, and those of all outlines in
it. -/
def Outline.everywhere (ok : String → List (String × String) → Bool) : Outline → Bool
  | .element name attributes children => ok name attributes && Outline.allEverywhere ok children

def Outline.allEverywhere (ok : String → List (String × String) → Bool) : List Outline → Bool
  | [] => true
  | o :: more => o.everywhere ok && Outline.allEverywhere ok more
end

/-- Whether tags are of some sort if they are written for names and attributes of some sort. -/
def Printing.Suits (ok : String → List (String × String) → Bool) (p : WrittenTag → Bool) : Prop :=
  ∀ (s : Printing) (name : String) (attributes : List (String × String)),
    ok name attributes = true → p ⟨⟨none, name⟩, s.writtenAttributes attributes, []⟩ = true

section Tags

variable {p : WrittenTag → Bool} {ok : String → List (String × String) → Bool}

mutual
/-- The tags that an outline is written with are of some sort if its names and attributes are. -/
theorem Outline.allTags_written (hok : Printing.Suits ok p) (l : Layout) (level : Nat)
    (s : Printing)
    {more : WrittenContents} (hmore : more.allTags p = true) :
    (o : Outline) → o.everywhere ok = true → (o.written l level s more).allTags p = true
  | .element name attributes children => by
    intro h
    rw [Outline.everywhere, Bool.and_eq_true] at h
    rw [Outline.written, WrittenContents.allTags, hok s name attributes h.1, hmore]
    split_ifs
    · rw [textContents]
      split_ifs <;> rfl
    · rw [Outline.allTags_writtenLines hok l level _ children h.2]
      rfl

theorem Outline.allTags_writtenLines (hok : Printing.Suits ok p) (l : Layout) (level : Nat)
    (s : Printing) :
    (os : List Outline) → Outline.allEverywhere ok os = true →
      (Outline.writtenLines l level s os).allTags p = true
  | [], _ => rfl
  | o :: rest, h => by
    rw [Outline.allEverywhere, Bool.and_eq_true] at h
    exact Outline.allTags_written hok l (level + 1) s
      (Outline.allTags_writtenLines hok l level _ rest h.2)
      o h.1
end

end Tags

/-- Whether a name and attributes can be written as a tag. -/
def isWritableTag (name : String) (attributes : List (String × String)) : Bool :=
  isNamePart name.toList &&
    attributes.all (fun a => isNamePart a.1.toList && canBeQuoted a.2.toList) &&
    decide (attributes.map Prod.fst).Nodup

mutual
theorem Outline.everywhere_isWritableTag :
    (o : Outline) → o.everywhere isWritableTag = o.isWritable
  | .element name attributes children => by
    rw [Outline.everywhere, Outline.isWritable, Outline.allEverywhere_isWritableTag children]
    rfl

theorem Outline.allEverywhere_isWritableTag :
    (os : List Outline) → Outline.allEverywhere isWritableTag os = Outline.areWritable os
  | [] => rfl
  | o :: more => by
    rw [Outline.allEverywhere, Outline.areWritable, Outline.everywhere_isWritableTag o,
      Outline.allEverywhere_isWritableTag more]
end

namespace Printing

lemma isWellFormed_writtenAttribute (s : Printing) {a : String × String}
    (hname : isNamePart a.1.toList = true) (hvalue : canBeQuoted a.2.toList = true) :
    (s.writtenAttribute a).isWellFormed = true := by
  have hquoted := s.canBeQuoted_field hvalue
  rw [canBeQuoted] at hquoted
  rw [writtenAttribute, WrittenAttribute.isWellFormed, hquoted, QualifiedName.isWritten, hname]
  rfl

lemma isWellFormed_writtenAttributes (s : Printing) {attributes : List (String × String)}
    (h : attributes.all (fun a => isNamePart a.1.toList && canBeQuoted a.2.toList) = true) :
    (s.writtenAttributes attributes).all (·.isWellFormed) = true := by
  induction attributes generalizing s with
  | nil => rfl
  | cons a more ih =>
      rw [List.all_cons, Bool.and_eq_true, Bool.and_eq_true] at h
      rw [writtenAttributes, List.all_cons, s.isWellFormed_writtenAttribute h.1.1 h.1.2, ih _ h.2]
      rfl

lemma suits_isWritableTag : Suits isWritableTag (·.isWellFormed) := by
  intro s name attributes h
  simp only [isWritableTag, Bool.and_eq_true, decide_eq_true_eq] at h
  obtain ⟨⟨hname, hattributes⟩, hnodup⟩ := h
  have hnames : (s.writtenAttributes attributes).map (·.name.text) = attributes.map Prod.fst := by
    have hnames := congrArg (List.map QualifiedName.text) (s.names_writtenAttributes attributes)
    rw [List.map_map, List.map_map] at hnames
    exact hnames
  simp only [WrittenTag.isWellFormed, QualifiedName.isWritten, hname, hnames,
    s.isWellFormed_writtenAttributes hattributes, hnodup, decide_true]
  rfl

end Printing

/-- **What an outline is written as is well formed** if it can be written. -/
theorem Outline.isWellFormed_written {l : Layout} (hl : l.IsBlank) (level : Nat) (s : Printing)
    {more : WrittenContents} (hmore : more.isWellFormed = true) {o : Outline}
    (h : o.isWritable = true) :
    (o.written l level s more).isWellFormed = true := by
  rw [WrittenContents.isWellFormed_iff] at hmore ⊢
  rw [← Outline.everywhere_isWritableTag] at h
  exact ⟨Outline.allTags_written Printing.suits_isWritableTag l level s hmore.1 o h,
    Outline.isArranged_written hl level s hmore.2 o⟩

end XmlAdvisor
