import XmlAdvisor.Proofs.DefinitionMarkup

/-!
# What documents an element

An element is documented by the comment in front of its declaration.  Of all declarations of an
element the first one counts, also for this, and a comment does not reach beyond a declaration or a
conditional section that stands behind it.  It does reach beyond processing instructions, references
to parameter entities and declarations of elements that cannot be read.

* `commentBefore` — the text of a comment that is the last of some pieces.
* `DtdAssembly.Documented` — what holds of the elements that were assembled from pieces.
* `Documented.add` — one more piece.
* **`Dtd.documentation_of_read`** — which comment documents an element, and when it is the one that
  stands right in front of the declaration.
* `Dtd.documentation_behind_unread` — a comment in front of a declaration that cannot be read
  documents the next one.
-/

namespace XmlAdvisor

/-! ## The comment in front -/

/-- Whether a comment looks past a piece. -/
def DtdPiece.isPassing : DtdPiece → Bool
  | .passing => true
  | _ => false

/-- The text of a piece that is a comment, unless it is blank. -/
def DtdPiece.commentText? : DtdPiece → Option String
  | .comment text => text
  | _ => none

/-- The text of the comment that is the last piece, unless it is blank or another piece is the
last. -/
def commentBefore (pieces : List DtdPiece) : Option String :=
  pieces.getLast?.bind DtdPiece.commentText?

/-- The pieces that a comment does not look past. -/
def withoutPassing (pieces : List DtdPiece) : List DtdPiece :=
  pieces.filter (!·.isPassing)

lemma commentBefore_concat (pieces : List DtdPiece) (p : DtdPiece) :
    commentBefore (pieces ++ [p]) = p.commentText? := by
  rw [commentBefore, List.getLast?_concat]
  rfl

lemma withoutPassing_concat (pieces : List DtdPiece) {p : DtdPiece} (hp : p ≠ .passing) :
    withoutPassing (pieces ++ [p]) = withoutPassing pieces ++ [p] := by
  have hkept : p.isPassing = false := by
    cases p with
    | passing => exact absurd rfl hp
    | _ => rfl
  rw [withoutPassing, List.filter_append, List.filter_cons_of_pos (by rw [hkept]; rfl)]
  rfl

lemma withoutPassing_concat_passing (pieces : List DtdPiece) :
    withoutPassing (pieces ++ [.passing]) = withoutPassing pieces := by
  rw [withoutPassing, List.filter_append]
  exact List.append_nil _

/-- A piece that no comment looks past ends the connection of the comments in front of it. -/
lemma commentBefore_withoutPassing_concat (pieces : List DtdPiece) {p : DtdPiece}
    (hp : p ≠ .passing) :
    p.commentText? = commentBefore (withoutPassing (pieces ++ [p])) := by
  rw [withoutPassing_concat pieces hp, commentBefore_concat]

/-- Looking past pieces matters only where one of them is the last. -/
lemma commentBefore_withoutPassing {pieces : List DtdPiece} (h : pieces.getLast? ≠ some .passing) :
    commentBefore (withoutPassing pieces) = commentBefore pieces := by
  rcases List.eq_nil_or_concat' pieces with rfl | ⟨front, p, rfl⟩
  · rfl
  · rw [List.getLast?_concat, ne_eq, Option.some.injEq] at h
    rw [← commentBefore_withoutPassing_concat front h, commentBefore_concat]

lemma commentBefore_of_passing {pieces : List DtdPiece} (h : pieces.getLast? = some .passing) :
    commentBefore pieces = none := by
  rw [commentBefore, h]
  rfl

/-! ## Assembling -/

/-- Whether an element is declared by some pieces first as it is, and documented by the comment in
front of that declaration. -/
def DocumentedBy (pieces : List DtdPiece) (e : DtdElement) : Prop :=
  ∃ before after, pieces = before ++ .element e.name e.content :: after ∧
    (∀ content, DtdPiece.element e.name content ∉ before) ∧
    e.documentation = commentBefore (withoutPassing before)

lemma DocumentedBy.concat {pieces : List DtdPiece} {e : DtdElement} (h : DocumentedBy pieces e)
    (p : DtdPiece) : DocumentedBy (pieces ++ [p]) e := by
  obtain ⟨before, after, rfl, hfirst, hdoc⟩ := h
  exact ⟨before, after ++ [p], by simp, hfirst, hdoc⟩

namespace DtdAssembly

/-- What holds of a definition that was assembled from pieces. -/
structure Documented (pieces : List DtdPiece) (s : DtdAssembly) : Prop where
  comment : s.comment = commentBefore (withoutPassing pieces)
  elements : ∀ e ∈ s.elements, DocumentedBy pieces e
  declared : ∀ name content, .element name content ∈ pieces → s.elements.any (·.name = name) = true

/-- A piece that declares no element leaves the elements as they are. -/
lemma Documented.passBy {pieces : List DtdPiece} {s t : DtdAssembly} (h : Documented pieces s)
    {p : DtdPiece} (hp : ∀ name content, p ≠ .element name content)
    (hsame : t.elements = s.elements)
    (hcomment : t.comment = commentBefore (withoutPassing (pieces ++ [p]))) :
    Documented (pieces ++ [p]) t where
  comment := hcomment
  elements := fun e he => (h.elements e (hsame ▸ he)).concat p
  declared := by
    intro name content hmem
    rcases List.mem_append.mp hmem with hmem | hmem
    · rw [hsame]
      exact h.declared name content hmem
    · exact absurd (List.mem_singleton.mp hmem).symm (hp name content)

/-- So does a declaration of an element that is declared already. -/
lemma Documented.addKnown {pieces : List DtdPiece} {s : DtdAssembly} (h : Documented pieces s)
    {name : String} (content : ContentSpec) (hknown : s.elements.any (·.name = name) = true) :
    Documented (pieces ++ [.element name content]) { s with comment := none } where
  comment := commentBefore_withoutPassing_concat pieces (p := .element name content) (by simp)
  elements := fun e he => (h.elements e he).concat _
  declared := by
    intro other content' hmem
    rcases List.mem_append.mp hmem with hmem | hmem
    · exact h.declared other content' hmem
    · cases List.mem_singleton.mp hmem
      exact hknown

/-- An element that is not declared already is documented by the comment that was read last. -/
lemma Documented.addNew {pieces : List DtdPiece} {s : DtdAssembly} (h : Documented pieces s)
    {name : String} (content : ContentSpec) (hnew : ¬s.elements.any (·.name = name) = true) :
    Documented (pieces ++ [.element name content])
      { s with elements := s.elements ++ [⟨name, content, [], s.comment⟩], comment := none } where
  comment := commentBefore_withoutPassing_concat pieces (p := .element name content) (by simp)
  elements := by
    intro e he
    rcases List.mem_append.mp he with he | he
    · exact (h.elements e he).concat _
    · rw [List.mem_singleton.mp he]
      exact ⟨pieces, [], rfl, fun content hmem => hnew (h.declared name content hmem), h.comment⟩
  declared := by
    intro other content' hmem
    rw [List.any_append, Bool.or_eq_true]
    rcases List.mem_append.mp hmem with hmem | hmem
    · exact .inl (h.declared other content' hmem)
    · cases List.mem_singleton.mp hmem
      exact .inr (by simp)

lemma Documented.add {pieces : List DtdPiece} {s : DtdAssembly} (h : Documented pieces s)
    (p : DtdPiece) : Documented (pieces ++ [p]) (s.add p) := by
  cases p with
  | element name content =>
      by_cases hknown : s.elements.any (·.name = name) = true
      · rw [DtdAssembly.add, if_pos hknown]
        exact h.addKnown content hknown
      · rw [DtdAssembly.add, if_neg hknown]
        exact h.addNew content hknown
  | passing =>
      refine h.passBy (by simp) rfl ?_
      rw [withoutPassing_concat_passing]
      exact h.comment
  | comment text =>
      exact h.passBy (by simp) rfl
        (commentBefore_withoutPassing_concat pieces (p := .comment text) (by simp))
  | attributes element more =>
      exact h.passBy (by simp) rfl
        (commentBefore_withoutPassing_concat pieces (p := .attributes element more) (by simp))
  | breaking =>
      exact h.passBy (by simp) rfl
        (commentBefore_withoutPassing_concat pieces (p := .breaking) (by simp))

lemma documented_foldl (pieces : List DtdPiece) :
    Documented pieces (pieces.foldl DtdAssembly.add ⟨[], [], none⟩) := by
  induction pieces using List.reverseRecOn with
  | nil => exact ⟨rfl, nofun, nofun⟩
  | append_singleton pieces p ih =>
      rw [List.foldl_concat]
      exact ih.add p

end DtdAssembly

namespace Dtd

/-- The elements of a definition are documented as its pieces are. -/
lemma documentedBy_of_mem {pieces : List DtdPiece} {e : DtdElement}
    (he : e ∈ (ofPieces pieces).elements) : DocumentedBy pieces e := by
  obtain ⟨bare, hbare, rfl⟩ := List.mem_map.mp he
  exact (DtdAssembly.documented_foldl pieces).elements bare hbare

/-- **Which comment documents an element.**  In a definition that can be read, each element is
documented by the comment in front of its first declaration: the one that is the last markup there,
if processing instructions, references to parameter entities and declarations of elements that
cannot be read are left out.  This is the comment right in front of the declaration, or none,
exactly if none of those stands right in front of it, or no comment is the last markup in front of
them. -/
theorem documentation_of_read {text : List Char} {d : Dtd} (h : Dtd.read text = .ok d) :
    ∃ pieces, Tiled text pieces ∧ ∀ e ∈ d.elements, ∃ before after,
      pieces = before ++ .element e.name e.content :: after ∧
      (∀ content, DtdPiece.element e.name content ∉ before) ∧
      e.documentation = commentBefore (withoutPassing before) ∧
      (e.documentation = commentBefore before ↔
        before.getLast? ≠ some .passing ∨ commentBefore (withoutPassing before) = none) := by
  obtain ⟨pieces, hpieces, rfl⟩ := read_eq_ok_iff.mp h
  refine ⟨pieces, hpieces, fun e he => ?_⟩
  obtain ⟨before, after, hsplit, hfirst, hdoc⟩ := documentedBy_of_mem he
  refine ⟨before, after, hsplit, hfirst, hdoc, ?_⟩
  rw [hdoc]
  by_cases hlast : before.getLast? = some .passing
  · rw [commentBefore_of_passing hlast]
    exact ⟨.inr, fun hor => hor.resolve_left (not_not_intro hlast)⟩
  · exact iff_of_true (commentBefore_withoutPassing hlast) (.inl hlast)

/-- A note that is documented by a comment of the given text. -/
def documentedNote (comment : String) : DtdElement :=
  ⟨"note", .empty, [], some comment⟩

lemma tiled_comment (comment : String) (h : splitAtFirst "-->".toList (comment ++ "-->").toList =
    some (comment.toList, [])) :
    Tiled ("<!--" ++ comment ++ "-->").toList [.comment (commentText comment.toList)] := by
  rw [String.toList_append, String.toList_append, List.append_assoc]
  exact .of_markup (.enclosed .comment (splitAtFirst_eq_some_iff.mp h).2)

lemma tiled_note : Tiled "<!ELEMENT note EMPTY>".toList [.element "note" .empty] := by
  have hends : EndsDeclaration " note EMPTY>".toList := endsDeclaration_iff.mpr (by decide)
  exact .of_markup (.declared .element hends)

lemma tiled_list : Tiled "<!ELEMENT %list; EMPTY>".toList [.passing] := by
  have hends : EndsDeclaration " %list; EMPTY>".toList := endsDeclaration_iff.mpr (by decide)
  exact .of_markup (.declared .element hends)

theorem documentation_of_read_note :
    let text := "<!--A note.--><!ELEMENT note EMPTY>".toList
    Dtd.read text = .ok ⟨[documentedNote "A note."]⟩ ∧
    ∃ pieces, Tiled text pieces ∧ ∀ e ∈ [documentedNote "A note."], ∃ before after,
      pieces = before ++ .element e.name e.content :: after ∧
      (∀ content, DtdPiece.element e.name content ∉ before) ∧
      e.documentation = commentBefore (withoutPassing before) ∧
      (e.documentation = commentBefore before ↔
        before.getLast? ≠ some .passing ∨ commentBefore (withoutPassing before) = none) :=
  have hread : Dtd.read "<!--A note.--><!ELEMENT note EMPTY>".toList =
      .ok ⟨[documentedNote "A note."]⟩ :=
    read_eq_ok_iff.mpr ⟨_, (tiled_comment "A note." (by decide)).append tiled_note, rfl⟩
  ⟨hread, documentation_of_read hread⟩

/-- A declaration that cannot be read stands right in front of the one of a note, and what is said
of it documents the note. -/
theorem documentation_behind_unread :
    let text := "<!--A list.--><!ELEMENT %list; EMPTY><!ELEMENT note EMPTY>".toList
    let note := documentedNote "A list."
    let before := [.comment (some "A list."), .passing]
    Dtd.read text = .ok ⟨[note]⟩ ∧ Tiled text (before ++ [.element note.name note.content]) ∧
      note.documentation ≠ commentBefore before :=
  have htiled : Tiled "<!--A list.--><!ELEMENT %list; EMPTY><!ELEMENT note EMPTY>".toList
      [.comment (some "A list."), .passing, .element "note" .empty] :=
    ((tiled_comment "A list." (by decide)).append tiled_list).append tiled_note
  ⟨read_eq_ok_iff.mpr ⟨_, htiled, rfl⟩, htiled, nofun⟩

end Dtd

end XmlAdvisor
