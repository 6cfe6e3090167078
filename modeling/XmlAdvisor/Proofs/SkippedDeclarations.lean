import XmlAdvisor.Proofs.DefinitionMarkup

/-!
# A declaration that cannot be read changes nothing

A declaration of an element or of attributes that cannot be read, for instance because it is put
together from parameter entities, is skipped up to its end.  What stands before it and what stands
behind it are read as if they stood next to each other.

* `DtdAssembly.Alike` — two definitions that are being assembled differ at most in what documents
  them.
* `Alike.add`, `Alike.foldl` — one more piece, and all that are left, keep them alike.
* `Dtd.ofPieces_passed` — a piece that declares nothing may be left out.
* **`Dtd.read_around_unread`** — so may a declaration that cannot be read.

**Comments** in front of the declaration are the one thing that it can take part in: it may stand
between a comment and the element that the comment documents.
-/

namespace XmlAdvisor

namespace DtdDeclared

lemma endsDeclaration_keyword (d : DtdDeclared) {inner : List Char} :
    EndsDeclaration (d.keyword.toList ++ inner) ↔ EndsDeclaration inner := by
  have hplain : IsPlainText d.keyword := by
    cases d <;> decide
  rw [endsDeclaration_iff, endsDeclaration_iff, skipDeclaration?_plain hplain]

lemma isDeclaration_unread (d : DtdDeclared) : d.unread.isDeclaration = false := by
  cases d <;> rfl

end DtdDeclared

/-- An element without the text that documents it. -/
def DtdElement.undocumented (e : DtdElement) : DtdElement :=
  { e with documentation := none }

namespace DtdAssembly

/-- Whether two definitions that are being assembled differ at most in what documents their
elements. -/
structure Alike (s t : DtdAssembly) : Prop where
  elements : s.elements.map DtdElement.undocumented = t.elements.map DtdElement.undocumented
  attributes : s.attributes = t.attributes

/-- Definitions that are alike declare the same names. -/
lemma Alike.any_name {s t : DtdAssembly} (h : Alike s t) (name : String) :
    s.elements.any (·.name = name) = t.elements.any (·.name = name) := by
  have hsame := congrArg (List.any · (·.name = name)) h.elements
  rwa [List.any_map, List.any_map] at hsame

lemma Alike.add {s t : DtdAssembly} (h : Alike s t) (p : DtdPiece) : Alike (s.add p) (t.add p) := by
  cases p with
  | element name content =>
      refine ⟨?_, h.attributes⟩
      simp only [DtdAssembly.add, h.any_name]
      split_ifs
      · exact h.elements
      · rw [List.map_append, List.map_append, h.elements]
        rfl
  | attributes element more =>
      refine ⟨h.elements, ?_⟩
      simp only [DtdAssembly.add, h.attributes]
  | comment text => exact ⟨h.elements, h.attributes⟩
  | passing => exact h
  | breaking => exact ⟨h.elements, h.attributes⟩

lemma Alike.foldl {s t : DtdAssembly} (h : Alike s t) (ps : List DtdPiece) :
    Alike (ps.foldl DtdAssembly.add s) (ps.foldl DtdAssembly.add t) := by
  induction ps generalizing s t with
  | nil => exact h
  | cons p ps ih => exact ih (h.add p)

/-- A piece that declares nothing leaves the elements and their attributes. -/
lemma alike_add (s : DtdAssembly) {p : DtdPiece} (hp : p.isDeclaration = false) :
    Alike (s.add p) s := by
  cases p with
  | element => cases hp
  | attributes => cases hp
  | _ => exact ⟨rfl, rfl⟩

end DtdAssembly

namespace Dtd

/-- The elements of a definition without the texts that document them. -/
def undocumented (d : Dtd) : List DtdElement :=
  d.elements.map DtdElement.undocumented

/-- Definitions that were assembled alike have the same elements, up to what documents them. -/
lemma undocumented_ofPieces {ps qs : List DtdPiece}
    (h : (ps.foldl DtdAssembly.add ⟨[], [], none⟩).Alike
      (qs.foldl DtdAssembly.add ⟨[], [], none⟩)) :
    (ofPieces ps).undocumented = (ofPieces qs).undocumented := by
  have hlists (s : DtdAssembly) : (s.elements.map fun e =>
      { e with attributes := (s.attributes.lookup e.name).getD [] }).map DtdElement.undocumented =
      (s.elements.map DtdElement.undocumented).map fun e =>
        { e with attributes := (s.attributes.lookup e.name).getD [] } := by
    rw [List.map_map, List.map_map]
    rfl
  rw [undocumented, undocumented, ofPieces, ofPieces, hlists, hlists, h.elements, h.attributes]

/-- A piece that declares nothing may be left out. -/
lemma ofPieces_passed (ps : List DtdPiece) {p : DtdPiece} (hp : p.isDeclaration = false)
    (qs : List DtdPiece) :
    (ofPieces (ps ++ p :: qs)).undocumented = (ofPieces (ps ++ qs)).undocumented := by
  refine undocumented_ofPieces ?_
  rw [List.foldl_append, List.foldl_append, List.foldl_cons]
  exact (DtdAssembly.alike_add _ hp).foldl qs

/-- **A declaration that cannot be read changes nothing.**  Let `a` and `b` be definitions that can
be read, and let a declaration of an element or of attributes stand between them that cannot be
read, whose marks are in pairs and whose last character is its only `>` that is not between two of
them.  Then all of it can be read, and the elements are those of `a` and `b` alone, in the same
order, with the same content and the same attributes. -/
theorem read_around_unread {a b inner : List Char} {x y : Dtd} (kind : DtdDeclared)
    (ha : Dtd.read a = .ok x) (hb : Dtd.read b = .ok y)
    (hends : EndsDeclaration (kind.keyword.toList ++ inner))
      (hunread : kind.scan.run inner = none) :
    ∃ withIt withoutIt : Dtd,
      Dtd.read (a ++ (kind.keyword.toList ++ inner) ++ b) = .ok withIt ∧
      Dtd.read (a ++ b) = .ok withoutIt ∧
      withIt.undocumented = withoutIt.undocumented := by
  obtain ⟨ps, hps, -⟩ := read_eq_ok_iff.mp ha
  obtain ⟨qs, hqs, -⟩ := read_eq_ok_iff.mp hb
  have hmarkup : IsMarkup (kind.keyword.toList ++ inner) kind.unread := by
    have hpiece : kind.piece inner = kind.unread := by
      rw [DtdDeclared.piece, hunread]
    exact hpiece ▸ .declared kind (kind.endsDeclaration_keyword.mp hends)
  have hwith : Tiled (a ++ (kind.keyword.toList ++ inner) ++ b) (ps ++ kind.unread :: qs) := by
    have htiled := (hps.append (.of_markup hmarkup)).append hqs
    rwa [List.append_assoc ps, List.singleton_append] at htiled
  exact ⟨_, _, read_eq_ok_iff.mpr ⟨_, hwith, rfl⟩, read_eq_ok_iff.mpr ⟨_, hps.append hqs, rfl⟩,
    ofPieces_passed ps kind.isDeclaration_unread qs⟩

/-- The attributes of a note, with those that all elements have in common. -/
def commonAttributes : List Char :=
  " note %common; mark CDATA '>' #IMPLIED>".toList

lemma endsDeclaration_note : EndsDeclaration " note EMPTY>".toList :=
  endsDeclaration_iff.mpr (by decide)

lemma endsDeclaration_kind : EndsDeclaration " note kind CDATA 'x'>".toList :=
  endsDeclaration_iff.mpr (by decide)

theorem read_around_unread_common :
    let note := "<!ELEMENT note EMPTY>".toList
    let common := "<!ATTLIST".toList ++ commonAttributes
    let kind := "<!ATTLIST note kind CDATA 'x'>".toList
    Dtd.read note = .ok ⟨[⟨"note", .empty, [], none⟩]⟩ ∧ (∃ y, Dtd.read kind = .ok y) ∧
    EndsDeclaration common ∧ DtdScan.attributesDeclaration.run commonAttributes = none ∧
    ∃ withIt withoutIt : Dtd,
      Dtd.read (note ++ common ++ kind) = .ok withIt ∧ Dtd.read (note ++ kind) = .ok withoutIt ∧
      withIt.undocumented = withoutIt.undocumented := by
  have hnote : Dtd.read "<!ELEMENT note EMPTY>".toList = .ok ⟨[⟨"note", .empty, [], none⟩]⟩ :=
    read_eq_ok_iff.mpr ⟨_, .of_markup (.declared .element endsDeclaration_note), rfl⟩
  obtain ⟨y, hkind⟩ : ∃ y, Dtd.read "<!ATTLIST note kind CDATA 'x'>".toList = .ok y :=
    ⟨_, read_eq_ok_iff.mpr ⟨_, .of_markup (.declared .attributes endsDeclaration_kind), rfl⟩⟩
  have hends : EndsDeclaration ("<!ATTLIST".toList ++ commonAttributes) :=
    endsDeclaration_iff.mpr (by decide)
  have hunread : DtdScan.attributesDeclaration.run commonAttributes = none := by decide +kernel
  exact ⟨hnote, ⟨y, hkind⟩, hends, hunread,
    read_around_unread .attributes hnote hkind hends hunread⟩

end Dtd

end XmlAdvisor
