import XmlAdvisor.Proofs.ReportedViolations
import XmlAdvisor.Proofs.TreeLanguage

/-!
# Which document elements are accepted

A grammar offers some declarations for the document element, and validation reports a document
element that has none.  A schema looks for the declaration among those that it offers.  A definition
looks for it by name, among all that are declared, also if the document type restricts it to one
document element.

* `Grammar.Offers` — whether a document element is one of those that are offered.
* `Grammar.Overlooks` — whether a document element is declared, but not the one that the document
  type names.
* `Document.ReportsUndeclared` — whether diagnostics say that the document element is not declared.
* `declarationOf?_root_eq_none_iff` — when a document element has no declaration.
* `reportsUndeclared_iff` — when this is reported.
* **`undeclared_iff_not_offered`** — a document element is reported exactly if it is not offered,
  unless it is overlooked: then it is neither.
-/

namespace XmlAdvisor

namespace Grammar

/-- Whether one of the declarations that a grammar offers for the document element is for an
element. -/
def Offers (g : Grammar) (root : ElementNode) : Prop :=
  ∃ decl ∈ g.topLevel, decl.describes root = true

/-- Whether a definition declares an element but is restricted to a document element of another
name. -/
def Overlooks : Grammar → ElementNode → Prop
  | .dtd _ d (some name), root =>
    root.element.tagName ≠ name ∧ (d.element? root.element.tagName).isSome = true
  | .dtd _ _ none, _ | .relaxNg _ _, _ => False

end Grammar

/-- Whether diagnostics report the document element as one that is not declared. -/
def Document.ReportsUndeclared (d : Document) (root : ElementNode) (xs : List Diagnostic) : Prop :=
  ∃ x ∈ xs, x.problem? = some .elementUndeclared ∧ d.rangeAt root.nameSpan = .ok x.range

lemma Dtd.name_of_element? {d : Dtd} {name : String} {e : DtdElement}
    (h : d.element? name = some e) :
    e.name = name := by
  simpa using List.find?_some h

namespace Grammar

variable {g : Grammar} {root : ElementNode}

/-! ## Declarations of document elements -/

/-- A restricted definition offers the element it is restricted to, if that one is declared. -/
lemma offers_restricted_iff {uri : Url} {d : Dtd} {name : String} :
    (dtd uri d (some name)).Offers root ↔
      root.element.tagName = name ∧ (d.element? root.element.tagName).isSome = true := by
  constructor
  · rintro ⟨decl, hdecl, hdescribes⟩
    rw [topLevel, Option.mem_toList, Option.map_eq_some_iff] at hdecl
    obtain ⟨e, he, rfl⟩ := hdecl
    have htag : root.element.tagName = name :=
      (of_decide_eq_true hdescribes).trans (Dtd.name_of_element? he)
    rw [htag, he]
    exact ⟨rfl, rfl⟩
  · rintro ⟨rfl, hsome⟩
    obtain ⟨e, he⟩ := Option.isSome_iff_exists.mp hsome
    refine ⟨.dtd d e, ?_, decide_eq_true (Dtd.name_of_element? he).symm⟩
    rw [topLevel, he]
    exact List.mem_singleton.mpr rfl

/-- A definition that is not restricted offers whatever it declares. -/
lemma offers_unrestricted_iff {uri : Url} {d : Dtd} :
    (dtd uri d none).Offers root ↔ (d.element? root.element.tagName).isSome = true := by
  constructor
  · rintro ⟨decl, hdecl, hdescribes⟩
    obtain ⟨e, he, rfl⟩ := List.mem_map.mp hdecl
    have hname : e.name = root.element.tagName := (of_decide_eq_true hdescribes).symm
    exact List.find?_isSome.mpr ⟨e, he, decide_eq_true hname⟩
  · intro hsome
    obtain ⟨e, he⟩ := Option.isSome_iff_exists.mp hsome
    exact ⟨.dtd d e, List.mem_map_of_mem (List.mem_of_find?_eq_some he),
      decide_eq_true (Dtd.name_of_element? he).symm⟩

/-- A document element has no declaration exactly if it is neither offered nor overlooked. -/
lemma declarationOf?_root_eq_none_iff {t : Tree} (ht : t.Shaped) (hroot : t.root? = some root) :
    g.declarationOf? t root = none ↔ ¬g.Offers root ∧ ¬g.Overlooks root := by
  cases g with
  | relaxNg uri s =>
      rw [declarationOf?_root ht hroot, List.find?_eq_none]
      simp [Offers, Overlooks, topLevel]
  | dtd uri d restriction =>
      rw [declarationOf?, Option.map_eq_none_iff, ← Option.isNone_iff_eq_none,
        ← Option.isSome_eq_false_iff, ← Bool.not_eq_true]
      cases restriction with
      | none => rw [offers_unrestricted_iff, Overlooks, not_false_eq_true, and_true]
      | some name =>
          rw [offers_restricted_iff, Overlooks]
          tauto

/-- An element that is overlooked is declared, but not offered. -/
lemma not_offers_of_overlooks (h : g.Overlooks root) : ¬g.Offers root := by
  match g, h with
  | .dtd uri d (some name), h =>
    rw [offers_restricted_iff]
    exact fun hoffers => h.1 hoffers.1

/-! ## Reports -/

/-- What a declared element does wrong is another problem than not being declared. -/
lemma problem_ne_undeclared {t : Tree} {uri : String} {decl : Declaration} {e : ElementNode}
    {v : Violation} (hv : v ∈ violations t uri decl e) : v.problem ≠ .elementUndeclared := by
  have hincomplete (expected : List String) (alternatives : List Declaration) :
      (incompleteViolation uri e expected alternatives).problem ≠ .elementUndeclared := by
    unfold incompleteViolation
    split <;> exact nofun
  have hunexpected {us : List UnexpectedChild} (hv : v ∈ us.filterMap fun u =>
      (t.element? u.node).map fun child => unexpectedViolation e child u.expected) :
      v.problem ≠ .elementUndeclared := by
    obtain ⟨u, -, hu⟩ := List.mem_filterMap.mp hv
    obtain ⟨child, -, rfl⟩ := Option.map_eq_some_iff.mp hu
    exact nofun
  rcases List.mem_append.mp hv with hv | hv
  · exact fun hproblem => not_structural_of_mem_attributeViolations hv (hproblem ▸ by decide)
  · rw [childViolations] at hv
    split_ifs at hv
    · rcases List.mem_append.mp hv with hv | hv
      · exact hunexpected hv
      · exact List.mem_singleton.mp hv ▸ hincomplete _ _
    · exact hunexpected hv

/-- Validation reports the document element as not declared exactly if it has no declaration. -/
lemma reportsUndeclared_iff {d : Document} {text : List Char} (hd : d.toTree = Tree.parse text)
    (hroot : d.root? = some root) :
    d.ReportsUndeclared root (g.findings d) ↔ g.declarationOf? d.toTree root = none := by
  rw [findings_eq]
  constructor
  · rintro ⟨x, hx, hproblem, -⟩
    obtain ⟨v, hv, hvx⟩ := List.mem_filterMap.mp hx
    rw [Document.problem?_of_diagnostic hvx, Option.some.injEq] at hproblem
    rw [violationsIn, hroot] at hv
    cases hdecl : g.declarationOf? d.toTree root with
    | none => rfl
    | some decl =>
        dsimp only at hv
        rw [hdecl] at hv
        obtain ⟨w, -, hw⟩ := List.mem_flatMap.mp hv
        exact absurd hproblem (problem_ne_undeclared hw)
  · intro hnone
    obtain ⟨r, hr⟩ := places_nameSpan hd (Tree.element?_root hroot)
    have hreport : ∃ x, (undeclaredViolation g.uri.text root).diagnostic? d = some x ∧
        x.range = r := by
      rw [Violation.diagnostic?, undeclaredViolation, hr]
      exact ⟨_, rfl, rfl⟩
    obtain ⟨x, hx, rfl⟩ := hreport
    refine ⟨x, List.mem_filterMap.mpr ⟨_, ?_, hx⟩, Document.problem?_of_diagnostic hx, hr⟩
    rw [violationsIn, hroot]
    dsimp only
    rw [hnone]
    exact List.mem_singleton.mpr rfl

/-- **Which document elements are accepted.**  Unless it is given up, validation tells whether it
has found a declaration for the document element.  If the element is not overlooked, it is reported
exactly if it is none of those that are offered; if it is overlooked, it is neither reported nor
offered. -/
theorem undeclared_iff_not_offered (g : Grammar) (url : Url) (version : Int) (unit : ColumnUnit)
    (text : List Char) {root : ElementNode}
    (hroot : (Document.parse url version unit text).root? = some root) (s : GrammarStore) :
    let d := Document.parse url version unit text
    ∃ xs, GivesUnlessCancelled (g.validate d) (g.validate d) s xs ∧
      (¬g.Overlooks root → (d.ReportsUndeclared root xs ↔ ¬g.Offers root)) ∧
      (g.Overlooks root → ¬d.ReportsUndeclared root xs ∧ ¬g.Offers root) := by
  intro d
  have hreports : d.ReportsUndeclared root (g.findings d) ↔ ¬g.Offers root ∧ ¬g.Overlooks root :=
    (reportsUndeclared_iff rfl hroot).trans
      (declarationOf?_root_eq_none_iff (Tree.parse_shaped text) hroot)
  refine ⟨g.findings d, (allOrNothing_validate d g).gives ?_, fun hnot => ?_, fun h => ⟨?_, ?_⟩⟩
  · rw [(reads_validate g).runFrom_eq s]
  · rw [hreports]
    exact and_iff_left hnot
  · exact fun hreported => (hreports.mp hreported).2 h
  · exact not_offers_of_overlooks h

/-- A definition of two elements that is restricted to the first one. -/
def restrictedGrammar : Grammar :=
  .dtd (fileAtTop "g.dtd") ⟨[⟨"a", .empty, [], none⟩, ⟨"b", .empty, [], none⟩]⟩ (some "a")

/-- An empty document element that begins at an offset. -/
def emptyRoot (id start : Nat) (name : String) : ElementNode :=
  ⟨id, none, ⟨start, start + 4⟩, ⟨⟨none, name⟩, none, [], [], some (start + 3), none, true⟩⟩

/-- An element of a third name is reported. -/
theorem undeclared_iff_not_offered_third :
    let d := Document.parse (fileAtTop "a.xml") 1 .utf16 "<c/>".toList
    d.root? = some (emptyRoot 0 0 "c") ∧ ¬restrictedGrammar.Overlooks (emptyRoot 0 0 "c") ∧
      ∃ xs, GivesUnlessCancelled (restrictedGrammar.validate d)
      (restrictedGrammar.validate d) {} xs ∧
        d.ReportsUndeclared (emptyRoot 0 0 "c") xs := by
  intro d
  have hroot : d.root? = some (emptyRoot 0 0 "c") := by decide +kernel
  have hnot : ¬restrictedGrammar.Overlooks (emptyRoot 0 0 "c") := fun h => absurd h.2 (by decide)
  obtain ⟨xs, hxs, hreports, -⟩ :=
    undeclared_iff_not_offered restrictedGrammar (fileAtTop "a.xml") 1 .utf16 "<c/>".toList hroot {}
  refine ⟨hroot, hnot, xs, hxs, (hreports hnot).mpr fun hoffers => ?_⟩
  exact absurd (offers_restricted_iff.mp hoffers).1 (by decide)

/-- The second element is not reported, though the document type names the first one. -/
theorem overlooked_second :
    let d := Document.parse (fileAtTop "a.xml") 1 .utf16 "<!DOCTYPE a SYSTEM '/g.dtd'><b/>".toList
    compile .dtd (fileAtTop "g.dtd") (some "a") "<!ELEMENT a EMPTY><!ELEMENT b EMPTY>".toList =
        .ok restrictedGrammar ∧
      d.root? = some (emptyRoot 1 28 "b") ∧ ¬restrictedGrammar.Offers (emptyRoot 1 28 "b") ∧
      ((restrictedGrammar.validate d).runFrom ⟨{}, .never⟩).1 = .ok [] := by
  intro d
  have hroot : d.root? = some (emptyRoot 1 28 "b") := by decide +kernel
  refine ⟨rfl, hroot, fun hoffers => ?_, rfl⟩
  exact absurd (offers_restricted_iff.mp hoffers).1 (by decide)

end Grammar

end XmlAdvisor
