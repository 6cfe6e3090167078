import XmlAdvisor.Proofs.Alternatives
import XmlAdvisor.Validation.Violation

/-!
# What it means that one element is missing

Incomplete content with a single alternative is reported as a missing required element.
Alternatives are elements with one name, so an element that must come next but has a class of names
does not count. If there is none, whatever completes the content has the element that is said to be
missing; if there is one, a child with a name of its class may do.

* `eq_incompleteViolation` — what is reported as a missing element is the sole alternative.
* `localName_of_admits` — a name that hits what must come next is that of an alternative, or lies in
  the class of an element that is none.
* **`missing_needed`** — a missing element is needed, up to classes of names.
-/

namespace XmlAdvisor

variable {t : Tree} {uri : String} {d : Declaration} {e : ElementNode} {v : Violation}

/-- A missing required element is reported for incomplete content with a single alternative. -/
lemma eq_incompleteViolation (hv : v ∈ childViolations t uri d e)
    (hproblem : v.problem = .requiredElementMissing) :
    (d.checkContent (t.childElements e)).incomplete = true ∧
      ∃ only, d.alternatives (t.childElements e) = [only] ∧
        v = incompleteViolation uri e (d.checkContent (t.childElements e)).expected [only] := by
  have hunexpected {us : List UnexpectedChild} (hmem : v ∈ us.filterMap fun u =>
      (t.element? u.node).map fun child => unexpectedViolation e child u.expected) : False := by
    obtain ⟨u, -, hu⟩ := List.mem_filterMap.mp hmem
    obtain ⟨c, -, rfl⟩ := Option.map_eq_some_iff.mp hu
    cases hproblem
  rw [childViolations] at hv
  split_ifs at hv with hincomplete
  · refine ⟨hincomplete, ?_⟩
    rcases List.mem_append.mp hv with hv | hv
    · exact (hunexpected hv).elim
    · rw [List.mem_singleton.mp hv] at hproblem ⊢
      match hd : d.alternatives (t.childElements e) with
      | [] =>
          rw [hd] at hproblem
          cases hproblem
      | [only] => exact ⟨only, rfl, rfl⟩
      | _ :: _ :: _ =>
          rw [hd] at hproblem
          cases hproblem
  · exact (hunexpected hv).elim

namespace Schema

variable {s : Schema} {id content : Nat} {children : List ElementNode}

lemma localName_pattern {p : Nat} {m : String × String} (h : s.simpleName? p = some m) :
    (Declaration.pattern s p).localName = m.2 := by
  obtain ⟨c, hc, hsimple⟩ := Option.bind_eq_some_iff.mp h
  simp [Declaration.localName, hc, NameClass.label, hsimple]

/-- Whether a name lies in the class of an element that must come after some children, but is not
written as one name. -/
def AnotherFits (s : Schema) (id : Nat) (children : List ElementNode)
    (n : String × String) : Prop :=
  ∃ p ∈ s.requiredFirst (s.residualOf id children).1, s.simpleName? p = none ∧ s.admits p n = true

/-- A name of an element that must come next is that of the sole alternative, unless the element has
a class of names. -/
lemma localName_of_admits (hc : s.elementContent? id = some content) {only : Declaration}
    (honly : (Declaration.pattern s id).alternatives children = [only])
    (hnull : s.nullable (s.residualOf id children).1 = false) {p : Nat}
    (hp : p ∈ s.requiredFirst (s.residualOf id children).1) {n : String × String}
    (hadmits : s.admits p n = true) :
    n.2 = only.localName ∨ s.AnotherFits id children n := by
  cases hm : s.simpleName? p with
  | none => exact .inr ⟨p, hp, hm, hadmits⟩
  | some m =>
      rw [s.residualOf_eq hc] at hnull hp
      obtain ⟨q, hq, hqm⟩ := s.exists_mem_alternatives hc hnull hp hm
      have hsole : Declaration.pattern s q = only :=
        List.mem_singleton.mp (honly ▸ List.mem_map_of_mem hq)
      left
      rw [(s.admits_iff_of_simpleName? hm).mp hadmits, ← hsole, localName_pattern hqm]

/-- **An element that is reported as missing is needed**: what completes the children that are not
reported has a child with its local name, or with a name of an element that must come next as well
and has a class of names.  Without elements of the second kind, it has a child with the local
name. -/
theorem missing_needed (hc : s.elementContent? id = some content) (text : List Char)
    {e : ElementNode}
    (he : e ∈ (Tree.parse text).elements)
    (fits : s.alternativesFit id ((Tree.parse text).childElements e) = true) {uri : String}
    {v : Violation} (hv : v ∈ childViolations (Tree.parse text) uri (.pattern s id) e)
    (hproblem : v.problem = .requiredElementMissing) :
    let children := (Tree.parse text).childElements e
    ∃ name : String,
      v.message = "Element '" ++ e.element.tagName ++
      "' is missing required child element '" ++ name
        ++ "'." ∧
      v.data = some (.object [("elementLocalName", .string name), ("grammarUri", .string uri),
        ("parentLocalName", .string e.element.localName)]) ∧
      ∀ more : List ElementNode,
        (s.acceptedChildren id children ++ more).map ElementNode.expandedName
          ∈ s.childNames content →
        ∃ c ∈ more, c.element.localName = name ∨ s.AnotherFits id children c.expandedName := by
  dsimp only
  obtain ⟨hincomplete, only, honly, rfl⟩ := eq_incompleteViolation hv hproblem
  have hnull : s.nullable (s.residualOf id ((Tree.parse text).childElements e)).1 = false := by
    rw [s.incomplete_eq hc, Bool.not_eq_true'] at hincomplete
    rw [s.residualOf_eq hc, hincomplete]
  refine ⟨only.localName, rfl, rfl, fun more hmore => ?_⟩
  have hnodup := (Tree.parse_shaped text).nodup_childElements (Tree.mem_elements.mp he)
  simp only [alternativesFit, hnull, Bool.false_or, Bool.and_eq_true] at fits
  have hw := mem_allowed_of_completes hc hnodup fits.1 hmore
  rw [← s.residualOf_eq hc] at hw
  obtain ⟨n, hn, p, hp, hadmits⟩ := s.required_hits _ _ hnull fits.2 _ hw
  obtain ⟨c, hmem, rfl⟩ := List.mem_map.mp hn
  exact ⟨c, hmem, localName_of_admits hc honly hnull hp hadmits⟩

/-- A note without a title is reported, and whatever completes the section has a title. -/
theorem missing_needed_sections :
    let children := (Tree.parse untitledText).childElements untitledSection
    sections.elementContent? 11 = some 10 ∧ untitledSection ∈ (Tree.parse untitledText).elements ∧
    sections.alternativesFit 11 children = true ∧
    ∃ v ∈ childViolations (Tree.parse untitledText) "s.rng" (.pattern sections 11) untitledSection,
      v.problem = .requiredElementMissing ∧
      v.message = "Element 'section' is missing required child element 'title'." ∧
      ∀ more : List ElementNode,
        (sections.acceptedChildren 11 children ++ more).map ElementNode.expandedName
          ∈ sections.childNames 10 →
        ∃ c ∈ more, c.element.localName = "title" := by
  have hc : sections.elementContent? 11 = some 10 := by decide
  have helement : untitledSection ∈ (Tree.parse untitledText).elements := by decide +kernel
  have hfits : sections.alternativesFit 11
      ((Tree.parse untitledText).childElements untitledSection) = true := by decide +kernel
  have halone : ∀ p ∈ sections.requiredFirst (sections.residualOf 11
      ((Tree.parse untitledText).childElements untitledSection)).1,
      sections.simpleName? p ≠ none := by decide +kernel
  obtain ⟨v, hv, hproblem, hmessage⟩ : ∃ v ∈ childViolations (Tree.parse untitledText) "s.rng"
      (.pattern sections 11) untitledSection, v.problem = .requiredElementMissing ∧
      v.message = "Element 'section' is missing required child element 'title'." := by
    decide +kernel
  refine ⟨hc, helement, hfits, v, hv, hproblem, hmessage, fun more hmore => ?_⟩
  obtain ⟨name, hname, -, hneeded⟩ := missing_needed hc untitledText helement hfits hv hproblem
  obtain ⟨c, hmem, hc | ⟨p, hp, hsimple, -⟩⟩ := hneeded more hmore
  · have hsame : "Element 'section' is missing required child element '" ++ "title" ++ "'." =
        "Element 'section' is missing required child element '" ++ name ++ "'." :=
      hmessage.symm.trans hname
    have hname := (String.append_right_inj _).mp ((String.append_left_inj _).mp hsame)
    exact ⟨c, hmem, hc.trans hname.symm⟩
  · exact absurd hsimple (halone p hp)

/-- An element with one name, or any element at all. -/
def eitherSource : SourceSchema :=
  .pattern (.element (.name "" "r")
    [.choice [.element (.name "" "a") [] none, .element (.anyName .nothing) [] none]] none)

/-- The schema of `eitherSource`. -/
def eithers : Schema where
  patterns := #[.empty, .element (.name "" "a") 0 none, .empty, .element (.anyName .nothing) 2 none,
    .choice [1, 3], .element (.name "" "r") 4 none]
  definitions := #[]
  start := 5

lemma compile_eitherSource : eitherSource.compile = .ok eithers := by
  simp [eitherSource, eithers, SourceSchema.compile, SchemaBuilder.lower, SchemaBuilder.lowerAll,
    SchemaBuilder.lowerBody, SchemaBuilder.empty, SchemaBuilder.push, SchemaBuilder.group,
    SchemaBuilder.finish]

/-- A document without the element. -/
def bareText : List Char :=
  "<r/>".toList

/-- The document element of `bareText`. -/
def bareRoot : ElementNode :=
  ⟨0, none, ⟨0, 4⟩, ⟨⟨none, "r"⟩, none, [], [], some 3, none, true⟩⟩

/-- The element with one name is said to be missing, although any other completes the content. -/
theorem missing_not_needed_either :
    let children := (Tree.parse bareText).childElements bareRoot
    eitherSource.compile = .ok eithers ∧ eithers.elementContent? 5 = some 4 ∧
    bareRoot ∈ (Tree.parse bareText).elements ∧
    (∃ v ∈ childViolations (Tree.parse bareText) "s.rng" (.pattern eithers 5) bareRoot,
      v.problem = .requiredElementMissing ∧
      v.message = "Element 'r' is missing required child element 'a'.") ∧
    ∃ more : List ElementNode,
      (eithers.acceptedChildren 5 children ++ more).map ElementNode.expandedName
        ∈ eithers.childNames 4 ∧
      ∀ c ∈ children ++ more, c.element.localName ≠ "a" := by
  have hvalid : [childNamed 1 "b"].map ElementNode.expandedName ∈ eithers.childNames 4 :=
    (eithers.foldChildren_valid_iff [childNamed 1 "b"] (.pattern 4) (by decide)).mp (by decide)
  have hnone : (Tree.parse bareText).childElements bareRoot = [] := by decide +kernel
  refine ⟨compile_eitherSource, by decide, by decide +kernel, by decide +kernel,
    [childNamed 1 "b"], ?_, ?_⟩
  · rw [hnone]
    exact hvalid
  · rw [hnone]
    decide

end Schema

end XmlAdvisor
