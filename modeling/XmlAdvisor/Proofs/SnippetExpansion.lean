import XmlAdvisor.Proofs.SnippetReading
import XmlAdvisor.Proofs.WrittenOutlines

/-!
# Generated snippets expand to the generated text

The pieces of an outline are written as plain text or as a snippet, and the snippet is read piece by
piece: markup, contents and defaults expand to what they are, and numbers to nothing.  Numbers have
no end of their own, so a number must not be followed by a digit.  Behind the number of a field
there is the quotation mark of its value.  Behind that of the cursor there is an end tag, or a new
line if no end tags are written.

* `Printing.allParts` — what pieces are read as.
* `Printing.Apart` — whether no number is followed by a digit.
* `Printing.read_chars` — then a snippet is read piece by piece; `expandsTo_of_apart` — and it
  expands to the plain text.
* `Outline.apart_pieces` — when the numbers in the pieces of an outline are apart.
* `Outline.RunsOn` — whether the number of the cursor runs on into the lines behind it.
* `Outline.placesCursor_pieces` — where the cursor is placed if there are no end tags.
* `Printing.not_expandsTo_of_line` — a number that runs on takes characters from the text.
* **`Declaration.expandsTo_insertion_iff`** — a generated snippet expands to the generated text
  exactly if the number of the cursor does not run on.
-/

namespace XmlAdvisor

/-- Whether no character of a text means something in a snippet. -/
def NoSnippetMarks (t : String) : Prop :=
  ∀ c ∈ t.toList, isSnippetMark c = false

instance (t : String) : Decidable (NoSnippetMarks t) :=
  decidable_of_iff (t.toList.all (!isSnippetMark ·) = true) (by simp [NoSnippetMarks])

/-- Whether a text does not begin with a digit. -/
def NoDigitAhead (cs : List Char) : Prop :=
  Ahead (·.isDigit = false) cs

/-- Whether the markup of a piece means nothing else in a snippet. -/
def Piece.IsPlain : Piece → Prop
  | .markup t => NoSnippetMarks t
  | .content _ | .field _ | .cursor => True

namespace Printing

variable {s : Printing} {rest : List Char} {p : Piece} {pieces more : List Piece}

/-! ## Pieces -/

/-- What a piece is read as. -/
def parts (s : Printing) : Piece → List SnippetPart
  | .markup t | .content t => t.toList.map .char
  | .field default => [.place (s.fields + 1) default.toList]
  | .cursor => if s.cursorPlaced then [] else [.place 0 []]

/-- What pieces are read as, one after another. -/
def allParts (s : Printing) : List Piece → List SnippetPart
  | [] => []
  | p :: more => s.parts p ++ (s.next p).allParts more

/-- Whether what a piece is written as ends in a number. -/
def leavesNumber (s : Printing) : Piece → Bool
  | .field default => default.isEmpty
  | .cursor => !s.cursorPlaced
  | .markup _ | .content _ => false

/-- Whether no number at the end of a piece is followed by a digit. -/
def Apart (s : Printing) (rest : List Char) : List Piece → Prop
  | [] => True
  | p :: more =>
    (s.leavesNumber p = true → NoDigitAhead ((s.next p).chars more ++ rest)) ∧
      (s.next p).Apart rest more

lemma read_field (hs : s.asSnippet = true) (default : String)
    (hapart : s.leavesNumber (.field default) = true → NoDigitAhead rest) :
    SnippetMode.text.read ((s.text (.field default)).toList ++ rest) =
      (SnippetMode.text.read rest).map (s.parts (.field default) ++ ·) := by
  rw [text, if_pos hs, fieldText]
  split_ifs with hempty
  · have hnumber := SnippetMode.passes_dollar (s.fields + 1) rest
    rw [SnippetMode.read_number _ (hapart hempty)] at hnumber
    rw [String.toList_append, parts, String.isEmpty_iff.mp hempty]
    exact hnumber.trans (Option.map_map ..)
  · have hchars : ("$\x7b" ++ toString (s.fields + 1) ++ ":" ++ snippetEscaped default ++
        "\x7d").toList =
        '$' :: '\x7b' ::
          ((toString (s.fields + 1)).toList ++
            ':' :: (escapeSnippet default.toList ++ ['\x7d'])) := by
      simp [snippetEscaped]
    rw [hchars]
    exact SnippetMode.passes_braced (s.fields + 1) default.toList rest

/-- A piece is read as its parts, if no number at its end is followed by a digit. -/
lemma read_text (hs : s.asSnippet = true) (hp : p.IsPlain)
    (hapart : s.leavesNumber p = true → NoDigitAhead rest) :
    SnippetMode.text.read ((s.text p).toList ++ rest) =
      (SnippetMode.text.read rest).map (s.parts p ++ ·) := by
  cases p with
  | markup t => exact SnippetMode.passes_plain hp rest
  | content t =>
      rw [text, if_pos hs, snippetEscaped, String.toList_ofList]
      exact SnippetMode.passes_escaped t.toList rest
  | field default => exact read_field hs default hapart
  | cursor =>
      rw [text, parts, hs, Bool.true_and]
      rw [leavesNumber] at hapart
      cases hplaced : s.cursorPlaced with
      | true => exact (Option.map_id' ..).symm
      | false =>
          have hnumber := SnippetMode.passes_dollar 0 rest
          rw [SnippetMode.read_number _ (hapart (by rw [hplaced]; rfl))] at hnumber
          exact hnumber.trans (Option.map_map ..)

/-- **A snippet is read piece by piece** if its numbers are apart. -/
lemma read_chars (hs : s.asSnippet = true) (hplain : ∀ p ∈ pieces, p.IsPlain)
    (hapart : s.Apart rest pieces) : SnippetMode.text.read (s.chars pieces ++ rest) =
      (SnippetMode.text.read rest).map (s.allParts pieces ++ ·) := by
  induction pieces generalizing s with
  | nil => exact Option.map_id'.symm
  | cons p pieces ih =>
      have hmore := ih ((s.asSnippet_next p).trans hs)
        (fun q hq => hplain q (List.mem_cons_of_mem p hq)) hapart.2
      rw [chars, List.append_assoc, read_text hs (hplain p (List.mem_cons_self ..)) hapart.1, hmore,
        Option.map_map, allParts]
      exact congrArg (fun f => Option.map f _) (funext fun ps => (List.append_assoc ..).symm)

lemma chars_allParts (s : Printing) (pieces : List Piece) :
    (s.allParts pieces).flatMap SnippetPart.chars = (plainText pieces).toList := by
  have hpiece (s : Printing) (p : Piece) :
      (s.parts p).flatMap SnippetPart.chars = p.plainText.toList := by
    have hchars (t : String) :
        (t.toList.map SnippetPart.char).flatMap SnippetPart.chars = t.toList := by
      rw [List.flatMap_map]
      exact List.flatMap_singleton' t.toList
    cases p with
    | markup t => exact hchars t
    | content t => exact hchars t
    | field default => exact List.append_nil _
    | cursor =>
        rw [parts]
        split_ifs <;> rfl
  rw [plainText, String.toList_join, List.flatMap_map]
  induction pieces generalizing s with
  | nil => rfl
  | cons p pieces ih => rw [allParts, List.flatMap_append, List.flatMap_cons, hpiece, ih]

/-- The numbers of the places in a piece. -/
def numbers (s : Printing) : Piece → List Nat
  | .markup _ | .content _ => []
  | .field _ => [s.fields + 1]
  | .cursor => if s.cursorPlaced then [] else [0]

lemma numbers_eq (s : Printing) (p : Piece) :
    (s.parts p).filterMap SnippetPart.number? = s.numbers p := by
  have hsilent (t : String) :
      (t.toList.map SnippetPart.char).filterMap SnippetPart.number? = [] := by
    rw [List.filterMap_map]
    exact List.filterMap_eq_nil_iff.mpr fun _ _ => rfl
  cases p with
  | markup t => exact hsilent t
  | content t => exact hsilent t
  | field default => rfl
  | cursor =>
      rw [parts, numbers]
      split_ifs <;> rfl

/-- The places of fields are numbered one after another. -/
lemma exists_range_allParts (s : Printing) (pieces : List Piece) :
    ∃ k, ((s.allParts pieces).filterMap SnippetPart.number?).filter (· ≠ 0) =
      List.range' (s.fields + 1) k := by
  induction pieces generalizing s with
  | nil => exact ⟨0, rfl⟩
  | cons p pieces ih =>
      obtain ⟨k, hk⟩ := ih (s.next p)
      rw [allParts, List.filterMap_append, numbers_eq, List.filter_append]
      cases p with
      | markup t => exact ⟨k, hk⟩
      | content t => exact ⟨k, hk⟩
      | field default => exact ⟨k + 1, congrArg (List.cons (s.fields + 1)) hk⟩
      | cursor =>
          refine ⟨k, ?_⟩
          rw [numbers]
          split_ifs <;> exact hk

/-- The cursor has a place at most once. -/
lemma count_zero_allParts_le (s : Printing) (pieces : List Piece) :
    ((s.allParts pieces).filterMap SnippetPart.number?).count 0 ≤ (!s.cursorPlaced).toNat := by
  induction pieces generalizing s with
  | nil => exact Nat.zero_le _
  | cons p pieces ih =>
      have hmore := ih (s.next p)
      rw [allParts, List.filterMap_append, numbers_eq, List.count_append]
      cases p with
      | markup t => rwa [numbers, List.count_nil, Nat.zero_add]
      | content t => rwa [numbers, List.count_nil, Nat.zero_add]
      | field default => rwa [numbers, List.count_singleton, if_neg (by simp), Nat.zero_add]
      | cursor =>
          have hnone :
              ((s.next .cursor).allParts pieces |>.filterMap SnippetPart.number?).count 0 = 0 :=
            Nat.le_zero.mp hmore
          rw [hnone, numbers]
          split_ifs with hplaced
          · exact Nat.zero_le _
          · rw [Bool.eq_false_of_not_eq_true hplaced]
            exact Nat.le_refl _

lemma read_chars_nil (hs : s.asSnippet = true) (hplain : ∀ p ∈ pieces, p.IsPlain)
    (hapart : s.Apart [] pieces) :
    SnippetMode.text.read (s.chars pieces) = some (s.allParts pieces) := by
  have hread := read_chars hs hplain hapart
  rw [List.append_nil] at hread
  exact hread.trans (congrArg some (List.append_nil _))

/-- **A snippet expands to the plain text** if its numbers are apart. -/
lemma expandsTo_of_apart (hplain : ∀ p ∈ pieces, p.IsPlain)
    (hapart : (Printing.mk true 0 false).Apart [] pieces) :
    ExpandsTo (snippetText pieces).toList (plainText pieces).toList := by
  have hread := read_chars_nil rfl hplain hapart
  rw [← chars_insertionText true] at hread
  exact ⟨_, hread, chars_allParts _ pieces, exists_range_allParts _ pieces,
    count_zero_allParts_le _ pieces⟩

/-! ## Numbers that are apart -/

lemma after_append (s : Printing) (pieces more : List Piece) :
    s.after (pieces ++ more) = (s.after pieces).after more :=
  List.foldl_append

lemma apart_append : s.Apart rest (pieces ++ more) ↔
    s.Apart ((s.after pieces).chars more ++ rest) pieces ∧ (s.after pieces).Apart rest more := by
  induction pieces generalizing s with
  | nil => exact (and_iff_right trivial).symm
  | cons p pieces ih =>
      rw [List.cons_append, Apart, Apart, ih, and_assoc, chars_append, List.append_assoc]
      rfl

lemma apart_markup (t : String) (h : s.Apart rest more) : s.Apart rest (.markup t :: more) :=
  ⟨nofun, h⟩

lemma noDigitAhead_append {cs ds : List Char} (hcs : NoDigitAhead cs) (hds : NoDigitAhead ds) :
    NoDigitAhead (cs ++ ds) := by
  cases cs with
  | nil => exact hds
  | cons c cs => exact hcs

/-- Whether pieces do not place the cursor, and their numbers are apart. -/
def Untouching (pieces : List Piece) : Prop :=
  ∀ (s : Printing) (rest : List Char),
    s.Apart rest pieces ∧ (s.after pieces).cursorPlaced = s.cursorPlaced

lemma Untouching.append (h : Untouching pieces) (h' : Untouching more) :
    Untouching (pieces ++ more) := by
  intro s rest
  rw [apart_append, after_append, (h' _ rest).2]
  exact ⟨⟨(h s _).1, (h' _ rest).1⟩, (h s rest).2⟩

lemma untouching_markup (t : String) : Untouching [.markup t] :=
  fun _ _ => ⟨apart_markup _ trivial, rfl⟩

/-- Behind the number of a field there is a quotation mark. -/
lemma untouching_attributePieces (a : String × String) : Untouching (attributePieces a) := by
  refine fun s rest => ⟨apart_markup _ ⟨fun _ => ?_, apart_markup _ trivial⟩, rfl⟩
  rw [chars_markup]
  rintro c ⟨⟩
  rfl

lemma untouching_attributes (attributes : List (String × String)) :
    Untouching (attributes.flatMap attributePieces) := by
  induction attributes with
  | nil => exact fun _ _ => ⟨trivial, rfl⟩
  | cons a attributes ih =>
      rw [List.flatMap_cons]
      exact (untouching_attributePieces a).append ih

/-- A cursor that has been placed stays so. -/
lemma cursorPlaced_after (h : s.cursorPlaced = true) (pieces : List Piece) :
    (s.after pieces).cursorPlaced = true := by
  induction pieces generalizing s with
  | nil => exact h
  | cons p pieces ih =>
      refine ih ?_
      cases p <;> first | exact h | rfl

end Printing

/-! ## Outlines -/

/-- A line begins with a digit only if the delimiter of lines does. -/
lemma Layout.noDigitAhead_lineAt {l : Layout} (hl : NoDigitAhead l.lineDelimiter.toList)
    (level : Nat) :
    NoDigitAhead (l.lineAt level).toList := by
  rw [lineAt, String.toList_append]
  refine Printing.noDigitAhead_append hl fun c hc => ?_
  have hblank := List.all_eq_true.mp (l.indentation.units_blank level) c (List.mem_of_head? hc)
  exact Spelling.of_isXmlSpace (P := (·.isDigit = false)) hblank (by decide)

lemma Layout.noDigitAhead_of_lineAt {l : Layout} {level : Nat}
    (h : NoDigitAhead (l.lineAt level).toList) :
    NoDigitAhead l.lineDelimiter.toList := by
  intro c hc
  refine h c ?_
  rw [lineAt, String.toList_append, List.head?_append, hc]
  rfl

/-- A line holds a character with a meaning only if the delimiter of lines does. -/
lemma Layout.noSnippetMarks_lineAt {l : Layout} (hl : NoSnippetMarks l.lineDelimiter)
    (level : Nat) :
    NoSnippetMarks (l.lineAt level) := by
  intro c hc
  rw [lineAt, String.toList_append, List.mem_append] at hc
  rcases hc with hc | hc
  · exact hl c hc
  · have hblank := List.all_eq_true.mp (l.indentation.units_blank level) c hc
    exact Spelling.of_isXmlSpace (P := (isSnippetMark · = false)) hblank (by decide)

namespace Outline

open Printing

variable {l : Layout} {f : TagForm}

/-- The start tag of an element up to the `>`. -/
def startPieces (name : String) (attributes : List (String × String)) : List Piece :=
  .markup ("<" ++ name) :: attributes.flatMap attributePieces

/-- The end tag of an element, if there are any. -/
def endPieces (f : TagForm) (name : String) : List Piece :=
  if f.endTag then [.markup ("</" ++ name ++ ">")] else []

lemma pieces_leaf (level : Nat) (name : String) (attributes : List (String × String)) :
    (element name attributes []).pieces l f level none =
      startPieces name attributes ++
        if f.selfClosing then [.markup "/>"] else .markup ">" :: .cursor :: endPieces f name := by
  rw [pieces, startPieces, endPieces]
  cases f.selfClosing <;> simp

lemma pieces_inner (level : Nat) (name : String) (attributes : List (String × String)) (c : Outline)
    (more : List Outline) : (element name attributes (c :: more)).pieces l f level none =
      startPieces name attributes ++ .markup ">" :: (linePieces l f (level + 1) (c :: more) ++
        .markup (l.lineAt level) :: endPieces f name) := by
  rw [pieces, startPieces, endPieces]
  simp

lemma pieces_filled (level : Nat) (name : String) (attributes : List (String × String))
    (children : List Outline) (t : String) :
    (element name attributes children).pieces l f level (some t) =
      startPieces name attributes ++ .markup ">" :: .content t :: endPieces f name := by
  rw [pieces, startPieces, endPieces]
  simp

/-! ### Markup of outlines -/

mutual
/-- Whether no name in an outline means something in a snippet. -/
def NamesPlain : Outline → Prop
  | .element name attributes children =>
    NoSnippetMarks name ∧ (∀ a ∈ attributes, NoSnippetMarks a.1) ∧ AllNamesPlain children

def AllNamesPlain : List Outline → Prop
  | [] => True
  | o :: more => o.NamesPlain ∧ AllNamesPlain more
end

lemma noSnippetMarks_append {t u : String} (ht : NoSnippetMarks t) (hu : NoSnippetMarks u) :
    NoSnippetMarks (t ++ u) := by
  intro c hc
  rw [String.toList_append, List.mem_append] at hc
  exact hc.elim (ht c) (hu c)

lemma isPlain_startPieces {name : String} {attributes : List (String × String)}
    (hname : NoSnippetMarks name)
    (hattributes : ∀ a ∈ attributes, NoSnippetMarks a.1) :
    ∀ p ∈ startPieces name attributes, p.IsPlain := by
  refine List.forall_mem_cons.mpr ⟨noSnippetMarks_append (by decide) hname, fun p hp => ?_⟩
  obtain ⟨a, ha, hp⟩ := List.mem_flatMap.mp hp
  simp only [attributePieces, List.mem_cons, List.not_mem_nil, or_false] at hp
  rcases hp with rfl | rfl | rfl
  · exact noSnippetMarks_append (noSnippetMarks_append (by decide) (hattributes a ha)) (by decide)
  · trivial
  · exact (by decide : NoSnippetMarks "\"")

lemma isPlain_endPieces {name : String} (hname : NoSnippetMarks name) :
    ∀ p ∈ endPieces f name, p.IsPlain := by
  rw [endPieces]
  split_ifs
  · exact List.forall_mem_singleton.mpr
      (noSnippetMarks_append (noSnippetMarks_append (by decide) hname) (by decide))
  · exact nofun

mutual
/-- The markup of an outline is made of its names and of lines. -/
lemma isPlain_pieces (hl : NoSnippetMarks l.lineDelimiter) (level : Nat) :
    (o : Outline) → o.NamesPlain → ∀ p ∈ o.pieces l f level none, p.IsPlain
  | .element name attributes [], h => by
    rw [pieces_leaf]
    refine List.forall_mem_append.mpr ⟨isPlain_startPieces h.1 h.2.1, ?_⟩
    split_ifs
    · exact List.forall_mem_singleton.mpr (by decide : NoSnippetMarks "/>")
    · exact List.forall_mem_cons.mpr ⟨(by decide : NoSnippetMarks ">"),
        List.forall_mem_cons.mpr ⟨trivial, isPlain_endPieces h.1⟩⟩
  | .element name attributes (c :: more), h => by
    rw [pieces_inner]
    refine List.forall_mem_append.mpr ⟨isPlain_startPieces h.1 h.2.1, ?_⟩
    refine List.forall_mem_cons.mpr ⟨(by decide : NoSnippetMarks ">"), ?_⟩
    refine List.forall_mem_append.mpr ⟨isPlain_linePieces hl (level + 1) (c :: more) h.2.2, ?_⟩
    exact List.forall_mem_cons.mpr ⟨l.noSnippetMarks_lineAt hl level, isPlain_endPieces h.1⟩

lemma isPlain_linePieces (hl : NoSnippetMarks l.lineDelimiter) (level : Nat) :
    (os : List Outline) → AllNamesPlain os → ∀ p ∈ linePieces l f level os, p.IsPlain
  | [], _ => nofun
  | o :: more, h => by
    rw [linePieces, List.cons_append]
    refine List.forall_mem_cons.mpr ⟨l.noSnippetMarks_lineAt hl level, ?_⟩
    exact List.forall_mem_append.mpr
      ⟨isPlain_pieces hl level o h.1, isPlain_linePieces hl level more h.2⟩
end

/-! ### Numbers in outlines -/

lemma untouching_startPieces (name : String) (attributes : List (String × String)) :
    Untouching (startPieces name attributes) :=
  (untouching_markup ("<" ++ name)).append (untouching_attributes attributes)

lemma apart_endPieces (s : Printing) (rest : List Char) (name : String) :
    s.Apart rest (endPieces f name) := by
  rw [endPieces]
  split_ifs
  · exact apart_markup _ trivial
  · trivial

lemma noDigitAhead_endPieces {rest : List Char} (h : f.endTag = true ∨ NoDigitAhead rest)
    (s : Printing)
    (name : String) : NoDigitAhead (s.chars (endPieces f name) ++ rest) := by
  rw [endPieces]
  split_ifs with hend
  · rw [chars_markup, String.toList_append, String.toList_append]
    rintro c ⟨⟩
    rfl
  · exact h.resolve_left hend

/-- The number of the cursor in an element without children is followed by its end tag, or else by
what stands behind the element. -/
lemma apart_leaf {s : Printing} {rest : List Char} (h : s.cursorPlaced = true ∨ f.endTag = true ∨
    f.selfClosing = true ∨ NoDigitAhead rest) (level : Nat) (name : String)
    (attributes : List (String × String)) :
    s.Apart rest ((element name attributes []).pieces l f level none) := by
  rw [pieces_leaf, apart_append]
  refine ⟨(untouching_startPieces name attributes s _).1, ?_⟩
  split_ifs with hself
  · exact apart_markup _ trivial
  · refine apart_markup _ ⟨fun hnumber => ?_, apart_endPieces _ rest name⟩
    refine noDigitAhead_endPieces ?_ _ name
    rcases h with hplaced | hend | hselfClosing | hrest
    · rw [leavesNumber, cursorPlaced_after hplaced] at hnumber
      cases hnumber
    · exact .inl hend
    · exact absurd hselfClosing hself
    · exact .inr hrest

lemma noDigitAhead_startPieces (s : Printing) (rest : List Char) (name : String)
    (attributes : List (String × String)) (more : List Piece) :
    NoDigitAhead (s.chars (startPieces name attributes ++ more) ++ rest) := by
  rw [startPieces, List.cons_append, chars_markup, String.toList_append]
  rintro c ⟨⟩
  rfl

/-- Lines begin with a digit only if the delimiter of lines does. -/
lemma noDigitAhead_linePieces (hl : NoDigitAhead l.lineDelimiter.toList) {rest : List Char}
    (hrest : NoDigitAhead rest) (s : Printing) (level : Nat) (os : List Outline) :
    NoDigitAhead (s.chars (linePieces l f level os) ++ rest) := by
  cases os with
  | nil => exact hrest
  | cons o more =>
      obtain ⟨name, attributes, children⟩ := o
      rw [linePieces, List.cons_append, chars_markup, List.append_assoc]
      refine noDigitAhead_append (l.noDigitAhead_lineAt hl level) ?_
      cases children with
      | nil =>
          rw [pieces_leaf, List.append_assoc]
          exact noDigitAhead_startPieces s rest name attributes _
      | cons c others =>
          rw [pieces_inner, List.append_assoc]
          exact noDigitAhead_startPieces s rest name attributes _

mutual
/-- The numbers in an outline are apart in any form in which the cursor is not followed by a line,
and if lines do not begin with digits. -/
lemma apart_pieces (level : Nat) {s : Printing} {rest : List Char} (h : s.cursorPlaced = true ∨
    f.endTag = true ∨ f.selfClosing = true ∨ NoDigitAhead l.lineDelimiter.toList ∧
      NoDigitAhead rest) :
    (o : Outline) → s.Apart rest (o.pieces l f level none)
  | .element name attributes [] =>
    apart_leaf (h.imp_right <| .imp_right <| .imp_right And.right) level name attributes
  | .element name attributes (c :: more) => by
    rw [pieces_inner, apart_append]
    refine ⟨(untouching_startPieces name attributes s _).1, apart_markup _ ?_⟩
    rw [apart_append]
    refine ⟨apart_linePieces (level + 1) ?_ (c :: more),
      apart_markup _ (apart_endPieces _ rest name)⟩
    refine h.imp (cursorPlaced_after · _) (.imp_right <| .imp_right fun ⟨hl, hrest⟩ => ⟨hl, ?_⟩)
    rw [chars_markup, List.append_assoc]
    exact noDigitAhead_append (l.noDigitAhead_lineAt hl level)
      (noDigitAhead_endPieces (.inr hrest) _ name)

lemma apart_linePieces (level : Nat) {s : Printing} {rest : List Char} (h : s.cursorPlaced = true ∨
    f.endTag = true ∨ f.selfClosing = true ∨ NoDigitAhead l.lineDelimiter.toList ∧
      NoDigitAhead rest) :
    (os : List Outline) → s.Apart rest (linePieces l f level os)
  | [] => by
    rw [linePieces]
    trivial
  | o :: more => by
    rw [linePieces, List.cons_append]
    refine apart_markup _ (apart_append.mpr
      ⟨apart_pieces level ?_ o, apart_linePieces level ?_ more⟩)
    · exact h.imp_right <| .imp_right <| .imp_right fun ⟨hl, hrest⟩ =>
        ⟨hl, noDigitAhead_linePieces hl hrest _ level more⟩
    · exact h.imp_left (cursorPlaced_after · _)
end

/-! ### The first place of the cursor -/

/-- Whether the number of the cursor is followed by a line that begins with a digit. -/
def RunsOn (l : Layout) (f : TagForm) (body : Option String) : Outline → Prop
  | .element _ _ children => f.endTag = false ∧ f.selfClosing = false ∧ body = none ∧
      children ≠ [] ∧
    ¬NoDigitAhead l.lineDelimiter.toList

/-- Whether the cursor is placed in front of a line, and not before that. -/
def PlacesCursor (l : Layout) (pieces : List Piece) : Prop :=
  ∃ before level more, pieces = before ++ .cursor :: .markup (l.lineAt level) :: more ∧
    Untouching before

lemma PlacesCursor.behind {before pieces : List Piece} (h : PlacesCursor l pieces)
    (hbefore : Untouching before) : PlacesCursor l (before ++ pieces) := by
  obtain ⟨before', level, more, rfl, huntouching⟩ := h
  exact ⟨before ++ before', level, more, (List.append_assoc ..).symm, hbefore.append huntouching⟩

/-- An element places the cursor where its children do. -/
lemma PlacesCursor.inside {level : Nat} {c : Outline} {others : List Outline} {more : List Piece}
    (h : PlacesCursor l (linePieces l f (level + 1) (c :: others) ++
      .markup (l.lineAt level) :: more))
    (hend : f.endTag = false) (name : String) (attributes : List (String × String)) :
    PlacesCursor l ((element name attributes (c :: others)).pieces l f level none ++ more) := by
  have hinside := (h.behind (untouching_markup ">")).behind (untouching_startPieces name attributes)
  rw [pieces_inner, endPieces, hend]
  simpa using hinside

/-- Some lines and one more begin with a line. -/
lemma exists_line (level k : Nat) (os : List Outline) (more : List Piece) :
    ∃ k' more', linePieces l f level os ++ .markup (l.lineAt k) :: more =
    .markup (l.lineAt k') :: more' := by
  cases os with
  | nil => exact ⟨k, more, by rw [linePieces]; rfl⟩
  | cons o os => exact ⟨level, _, by rw [linePieces, List.cons_append, List.cons_append]⟩

mutual
/-- Without end tags, an outline in front of a line places the cursor in front of one. -/
lemma placesCursor_pieces (hend : f.endTag = false) (hself : f.selfClosing = false) (level k : Nat)
    (more : List Piece) :
    (o : Outline) → PlacesCursor l (o.pieces l f level none ++ .markup (l.lineAt k) :: more)
  | .element name attributes [] => by
    rw [pieces_leaf, hself, endPieces, hend]
    exact ⟨startPieces name attributes ++ [.markup ">"], k, more, by simp,
      (untouching_startPieces name attributes).append (untouching_markup ">")⟩
  | .element name attributes (c :: others) =>
    (placesCursor_linePieces hend hself (level + 1) level (.markup (l.lineAt k) :: more)
      (c :: others)
      (List.cons_ne_nil c others)).inside hend name attributes

lemma placesCursor_linePieces (hend : f.endTag = false) (hself : f.selfClosing = false)
    (level k : Nat)
    (more : List Piece) :
    (os : List Outline) → os ≠ [] →
      PlacesCursor l (linePieces l f level os ++ .markup (l.lineAt k) :: more)
  | [], hne => absurd rfl hne
  | o :: others, _ => by
    obtain ⟨k', more', hmore⟩ := exists_line (l := l) (f := f) level k others more
    have hfirst := placesCursor_pieces hend hself level k' more' o
    rw [← hmore] at hfirst
    rw [linePieces, List.cons_append, List.cons_append, List.append_assoc]
    exact hfirst.behind (untouching_markup (l.lineAt level))
end

end Outline

namespace Printing

/-! ## Numbers that run on -/

variable {s : Printing} {pieces more : List Piece}

/-- Behind a place of the cursor it makes no difference whether there was one before. -/
lemma next_cursor_after (fields : Nat) (pieces : List Piece) :
    ((Printing.mk true fields true).after pieces).next .cursor =
      ((Printing.mk true fields false).after pieces).next .cursor := by
  induction pieces generalizing fields with
  | nil => rfl
  | cons p pieces ih =>
      cases p with
      | markup t => exact ih fields
      | content t => exact ih fields
      | field default => exact ih (fields + 1)
      | cursor => rfl

/-- What stands behind the first place of the cursor is read behind a number. -/
lemma read_cursor (hplain : ∀ p ∈ pieces, p.IsPlain) (huntouching : Untouching pieces)
    (more : List Piece) :
    readSnippet (snippetText (pieces ++ .cursor :: more)).toList =
      ((SnippetMode.number 0).read
        ((((Printing.mk true 0 false).after pieces).next .cursor).chars more)).map
        ((Printing.mk true 0 false).allParts pieces ++ ·) := by
  have hcursor : ((Printing.mk true 0 false).after pieces).text .cursor = "$0" := by
    have hplaced := (huntouching (Printing.mk true 0 false) []).2
    rw [text, asSnippet_after, hplaced]
    rfl
  have hchars : (snippetText (pieces ++ .cursor :: more)).toList =
      (Printing.mk true 0 false).chars pieces ++
      ('$' :: (toString 0).toList ++
        (((Printing.mk true 0 false).after pieces).next .cursor).chars more) := by
    have hnumber : '$' :: (toString 0).toList = "$0".toList := rfl
    rw [hnumber, ← hcursor]
    exact (chars_insertionText true _).trans (chars_append _ pieces _)
  have hnumber := SnippetMode.passes_dollar 0
    ((((Printing.mk true 0 false).after pieces).next .cursor).chars more)
  rw [readSnippet, hchars, read_chars rfl hplain (huntouching _ _).1, hnumber, Option.map_map]
  rfl

/-- Behind a number, pieces that begin with a digit expand to less than their plain text. -/
lemma length_read_line_lt {t : String} (hs : s.asSnippet = true)
    (hplain : ∀ p ∈ .markup t :: more, p.IsPlain) (hapart : s.Apart [] (.markup t :: more))
    (ht : ¬NoDigitAhead t.toList) {parts : List SnippetPart}
    (h : (SnippetMode.number 0).read (s.chars (.markup t :: more)) = some parts) :
    (parts.flatMap SnippetPart.chars).length < (plainText (.markup t :: more)).toList.length := by
  have hread := read_chars_nil hs hplain hapart
  have hchars := chars_allParts s (.markup t :: more)
  rw [chars_markup] at h hread
  cases hdigits : t.toList with
  | nil => exact absurd (hdigits ▸ nofun) ht
  | cons c cs =>
      have hc : c.isDigit = true := by
        by_contra hc
        refine ht ?_
        rw [hdigits]
        rintro d ⟨⟩
        exact Bool.eq_false_of_not_eq_true hc
      rw [hdigits, List.cons_append] at h hread
      obtain ⟨whole, hwhole, hlt⟩ := SnippetMode.length_read_number_lt hc h
      cases hwhole.symm.trans hread
      rwa [hchars] at hlt

/-- **The snippet expands to less than the plain text** if the number of the cursor is followed by a
digit. -/
lemma not_expandsTo_of_line {t : String}
    (hplain : ∀ p ∈ pieces ++ .cursor :: .markup t :: more, p.IsPlain)
    (huntouching : Untouching pieces) (ht : ¬NoDigitAhead t.toList)
    (hapart : (Printing.mk true 0 true).Apart [] (pieces ++ .cursor :: .markup t :: more)) :
    ¬ExpandsTo (snippetText (pieces ++ .cursor :: .markup t :: more)).toList
      (plainText (pieces ++ .cursor :: .markup t :: more)).toList := by
  rintro ⟨parts, hread, htext, -⟩
  obtain ⟨hplain, hbehind⟩ := List.forall_mem_append.mp hplain
  have hapartBehind := (apart_append.mp hapart).2.2
  rw [next_cursor_after] at hapartBehind
  rw [read_cursor hplain huntouching] at hread
  obtain ⟨taken, htaken, rfl⟩ := Option.map_eq_some_iff.mp hread
  have hlt := length_read_line_lt ((asSnippet_next _ .cursor).trans (asSnippet_after _ pieces))
    (List.forall_mem_cons.mp hbehind).2 hapartBehind ht htaken
  have hsplit : (plainText (pieces ++ .cursor :: .markup t :: more)).toList =
      (plainText pieces).toList ++ (plainText (.markup t :: more)).toList := by
    simp [plainText, Piece.plainText]
  rw [hsplit, List.flatMap_append, chars_allParts, List.append_cancel_left_eq] at htext
  rw [htext] at hlt
  exact Nat.lt_irrefl _ hlt

end Printing

namespace Outline

open Printing

variable {l : Layout} {f : TagForm} {body : Option String} {o : Outline}

/-- A number that runs on takes digits from the line behind it. -/
lemma not_expandsTo_of_runsOn (hnames : o.NamesPlain) (hline : NoSnippetMarks l.lineDelimiter)
    (level : Nat)
    (h : o.RunsOn l f body) : ¬ExpandsTo (snippetText (o.pieces l f level body)).toList
      (plainText (o.pieces l f level body)).toList := by
  match o, h with
  | .element name attributes children, ⟨hend, hself, hbody, hne, hdigit⟩ =>
    obtain ⟨c, others, rfl⟩ := List.exists_cons_of_ne_nil hne
    subst hbody
    have hlines : PlacesCursor l _ :=
      placesCursor_linePieces hend hself (level + 1) level [] (c :: others) hne
    have hplaces := hlines.inside hend name attributes
    have hplain := isPlain_pieces (f := f) hline level _ hnames
    have hapart : (Printing.mk true 0 true).Apart [] _ :=
      apart_pieces (l := l) (f := f) level (.inl rfl) (element name attributes (c :: others))
    rw [List.append_nil] at hplaces
    obtain ⟨before, k, more, hpieces, huntouching⟩ := hplaces
    rw [hpieces] at hplain hapart ⊢
    exact not_expandsTo_of_line hplain huntouching
      (fun h => hdigit (Layout.noDigitAhead_of_lineAt h)) hapart

lemma expandsTo_of_not_runsOn (hnames : o.NamesPlain) (hline : NoSnippetMarks l.lineDelimiter)
    (level : Nat)
    (h : ¬o.RunsOn l f body) : ExpandsTo (snippetText (o.pieces l f level body)).toList
      (plainText (o.pieces l f level body)).toList := by
  match o with
  | .element name attributes children =>
    have hnil : NoDigitAhead [] := nofun
    cases body with
    | some t =>
        have hcontent : ∀ p ∈ .markup ">" :: .content t :: endPieces f name, p.IsPlain :=
          List.forall_mem_cons.mpr ⟨(by decide : NoSnippetMarks ">"),
            List.forall_mem_cons.mpr ⟨trivial, isPlain_endPieces hnames.1⟩⟩
        rw [pieces_filled]
        refine expandsTo_of_apart
          (List.forall_mem_append.mpr ⟨isPlain_startPieces hnames.1 hnames.2.1, hcontent⟩)
          (apart_append.mpr ⟨(untouching_startPieces name attributes _ _).1, ?_⟩)
        exact apart_markup _ ⟨nofun, apart_endPieces _ [] name⟩
    | none =>
        refine expandsTo_of_apart (isPlain_pieces hline level _ hnames) ?_
        cases children with
        | nil => exact apart_leaf (.inr (.inr (.inr hnil))) level name attributes
        | cons c others =>
            refine apart_pieces level ?_ _
            by_contra hother
            simp only [not_or, not_and, Bool.not_eq_true] at hother
            obtain ⟨-, hend, hself, hdigit⟩ := hother
            exact h ⟨hend, hself, rfl, List.cons_ne_nil c others, fun hl => hdigit hl hnil⟩

end Outline

/-- **When a generated snippet expands to the generated text.**  If neither the names nor the
delimiter of lines hold a character with a meaning, the snippet for an element expands to the text
for it, with the fields numbered from one in order and one place of the cursor at most.  The only
exception is a delimiter that begins with a digit, if there are lines behind the number of the
cursor and no end tags before them. -/
theorem Declaration.expandsTo_insertion_iff (d : Declaration) (l : Layout) (f : TagForm)
    (level : Nat)
    (body : Option String) (hnames : d.outline.NamesPlain)
      (hline : NoSnippetMarks l.lineDelimiter) :
    ExpandsTo (d.insertion l f level body true).toList (d.insertion l f level body false).toList ↔
      ¬d.outline.RunsOn l f body :=
  ⟨fun hexpands hruns => Outline.not_expandsTo_of_runsOn hnames hline level hruns hexpands,
    Outline.expandsTo_of_not_runsOn hnames hline level⟩

/-- A schema for a book with a key, a price, and a title. -/
def Schema.books : Schema where
  patterns := #[.empty, .text, .attribute (.name "" "key") 1 none none,
    .attribute (.name "" "price") 1 none (some "5$"), .element (.name "" "title") 0 none,
    .group [2, 3, 4],
    .element (.name "" "book") 5 none]
  definitions := #[]
  start := 6

lemma Schema.outline_books : (Declaration.pattern books 6).outline =
    .element "book" [("key", ""), ("price", "5$")] [.element "title" [] []] :=
  rfl

theorem Declaration.expandsTo_insertion_books :
    let d := Declaration.pattern .books 6
    d.insertion {} {} 0 none false = "<book key=\"\" price=\"5$\">\n  <title></title>\n</book>" ∧
    d.insertion {} {} 0 none true =
      "<book key=\"$1\" price=\"$\x7b2:5\\$\x7d\">\n  <title>$0</title>\n</book>" ∧
    ExpandsTo (d.insertion {} {} 0 none true).toList (d.insertion {} {} 0 none false).toList := by
  intro d
  have hnames : d.outline.NamesPlain := by
    rw [Schema.outline_books]
    exact ⟨by decide, by decide, ⟨by decide, nofun, trivial⟩, trivial⟩
  have hruns : ¬d.outline.RunsOn {} {} none := by
    rw [Schema.outline_books]
    exact fun h => Bool.noConfusion h.1
  exact ⟨by decide +kernel, by decide +kernel,
    (expandsTo_insertion_iff d {} {} 0 none hnames (by decide)).mpr hruns⟩

/-- Lines that are cut by a digit, behind an element without an end tag. -/
theorem Declaration.not_expandsTo_digit :
    let r : DtdElement :=
      ⟨"r", .children (.sequence [.name "a" .once, .name "b" .once] .once), [], none⟩
    let d := Declaration.dtd ⟨[r, ⟨"a", .empty, [], none⟩, ⟨"b", .empty, [], none⟩]⟩ r
    let l : Layout := ⟨{}, "5"⟩
    let f : TagForm := ⟨false, false⟩
    d.outline.NamesPlain ∧ NoSnippetMarks l.lineDelimiter ∧
    d.insertion l f 0 none false = "<r>5  <a>5  <b>5" ∧
      d.insertion l f 0 none true = "<r>5  <a>$05  <b>5" ∧
    ¬ExpandsTo (d.insertion l f 0 none true).toList (d.insertion l f 0 none false).toList := by
  intro r d l f
  have houtline : d.outline = .element "r" [] [.element "a" [] [], .element "b" [] []] := rfl
  have hplain : d.insertion l f 0 none false = "<r>5  <a>5  <b>5" := by decide +kernel
  have hsnippet : d.insertion l f 0 none true = "<r>5  <a>$05  <b>5" := by decide +kernel
  refine ⟨?_, by decide, hplain, hsnippet, ?_⟩
  · rw [houtline]
    exact ⟨by decide, nofun, ⟨by decide, nofun, trivial⟩, ⟨by decide, nofun, trivial⟩, trivial⟩
  · rw [hplain, hsnippet]
    rintro ⟨parts, hread, htext, -⟩
    have hless : (readSnippet "<r>5  <a>$05  <b>5".toList).map (·.flatMap SnippetPart.chars) =
        some "<r>5  <a>  <b>5".toList := by decide +kernel
    rw [hread, Option.map_some, htext] at hless
    exact absurd hless (by decide)

end XmlAdvisor
