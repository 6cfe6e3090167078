import XmlAdvisor.Proofs.ChildDeclarations
import XmlAdvisor.Proofs.ContentInsertion

/-!
# Rejection and the list of what can come next agree

Whether a child is rejected is asked of the derivative of a residual, and what could have come there
of `first`.  The two recursions go the same way down and are cut off at the same depth, so they
agree on every residual in which nothing impossible is left, and no other comes out of a content
model.

* `Schema.after` — what children leave of a content model, whether they fit or not.
* `sound_after` — it allows nothing as a whole, or nothing in it is known to be impossible.
* `exists_child_of_accepted` — a child that is not rejected has a declaration among those of the
  children.
* **`rejected_iff_not_first`** — a name is rejected exactly if no element that can come next has it;
  so an accepted child is declared, and it is validated with its parent.
-/

namespace XmlAdvisor

namespace Schema

variable {s : Schema} {content : Nat}

/-! ## Names one after the other -/

/-- What is left of a residual after children with the given names. -/
def after (s : Schema) (names : List (String × String)) (r : Residual) : Residual :=
  names.foldl (fun r n => s.derivative r n.1 n.2) r

/-- What names leave of a content model is put together from patterns that it leads to. -/
lemma sound_after (content : Nat) (names : List (String × String)) :
    (s.after names (.pattern content)).Sound (s.Leads true content) := by
  induction names using List.reverseRecOn with
  | nil => exact .inr .refl
  | append_singleton names n ih =>
      rw [after, List.foldl_concat]
      exact s.sound_derivativeWithin leads_parts n.1 n.2 _ ih

/-! ## Accepted children -/

lemma isElement_of_elementContent? {id : Nat} (h : s.elementContent? id = some content) :
    s.isElement id = true := by
  rw [elementContent?] at h
  rw [isElement]
  split at h
  · rfl
  · cases h

/-- A child that is not rejected has a declaration, one of those of the children. -/
lemma exists_child_of_accepted {id : Nat} (hid : s.isElement id = true)
    {children : List ElementNode} {c : ElementNode} (hmem : c ∈ children)
    (h : ∀ u ∈ ((Declaration.pattern s id).checkContent children).unexpected, u.node ≠ c.id) :
    ∃ child ∈ (Declaration.pattern s id).children, child.describes c = true ∧
      (Declaration.pattern s id).child? c = some child := by
  obtain ⟨content, hc⟩ := s.exists_elementContent? hid
  obtain ⟨before, rest, rfl⟩ := List.append_of_mem hmem
  obtain ⟨q, hq, hadmits⟩ := exists_first_admits hc before h
  have hdeclared : .pattern s q ∈ (Declaration.pattern s id).children := by
    rw [Declaration.children, hc]
    exact List.mem_map_of_mem (mem_elementPatterns_of_mem_first hc hq)
  obtain ⟨child, hchild⟩ : ∃ child, (Declaration.pattern s id).child? c = some child :=
    Option.isSome_iff_exists.mp (List.find?_isSome.mpr ⟨_, hdeclared, hadmits⟩)
  exact ⟨child, List.mem_of_find?_eq_some hchild, by simpa using List.find?_some hchild, hchild⟩

end Schema

namespace Grammar

variable {uri : Url} {s : Schema} {d : Document}

/-- A child that is not rejected is validated with its parent. -/
lemma exists_visited_of_accepted (hn : d.toTree.Nests) (hs : d.toTree.Shaped) {v : Visit}
    (hv : v ∈ (relaxNg uri s).visited d) {c : ElementNode} (hc : c ∈ d.childElements v.element)
    (h : ∀ u ∈ (v.declaration.checkContent (d.childElements v.element)).unexpected,
      u.node ≠ c.id) :
    ∃ child, v.declaration.child? c = some child ∧ ⟨c, child⟩ ∈ (relaxNg uri s).visited d := by
  obtain ⟨id, hid, hdecl⟩ : ∃ id, s.isElement id = true ∧ v.declaration = .pattern s id := by
    obtain ⟨id, content, hdecl, hcontent⟩ :=
      exists_pattern_of_declarationOf? (declarationOf?_of_mem_visited hn hv)
    exact ⟨id, s.isElement_of_elementContent? hcontent, hdecl⟩
  rw [hdecl] at h
  obtain ⟨child, -, -, hchild⟩ := Schema.exists_child_of_accepted hid hc h
  rw [← hdecl] at hchild
  refine ⟨child, hchild, mem_visited_child hs hv hc ?_⟩
  rw [childDeclaration?, hchild]
  rfl

end Grammar

namespace Schema

/-- **A name is rejected exactly if no element that can come next has it**, after any children, in
any schema, whether or not its definitions are circular or the depth is exhausted.  Therefore a
child that is not reported is matched by one of the declared children, has that as its declaration,
and is validated whenever its parent is. -/
theorem rejected_iff_not_first (s : Schema) :
    (∀ (content : Nat) (names : List (String × String)) (n : String × String),
      let r := s.after names (.pattern content)
      s.derivative r n.1 n.2 = .notAllowed ↔ ∀ p ∈ s.first r, s.admits p n = false) ∧
    (∀ id, s.isElement id = true → ∀ children : List ElementNode, ∀ c ∈ children,
      (∀ u ∈ ((Declaration.pattern s id).checkContent children).unexpected, u.node ≠ c.id) →
      ∃ child ∈ (Declaration.pattern s id).children, child.describes c = true ∧
        (Declaration.pattern s id).child? c = some child) ∧
    ∀ (uri url : Url) (version : Int) (unit : ColumnUnit) (text : List Char),
      let g := Grammar.relaxNg uri s
      let d := Document.parse url version unit text
      ∀ v ∈ g.visited d, ∀ c ∈ d.childElements v.element,
      (∀ u ∈ (v.declaration.checkContent (d.childElements v.element)).unexpected,
        u.node ≠ c.id) →
      ∃ child, v.declaration.child? c = some child ∧ ⟨c, child⟩ ∈ g.visited d := by
  refine ⟨fun content names n => ?_, fun id hid children c hmem h => ?_, ?_⟩
  · have hleft := s.derivativeWithin_ne_notAllowed_iff leads_parts n (Residual.depthLimit + 1)
      (sound_after content names)
    dsimp only
    rw [derivative, ← not_iff_not, ← ne_eq, hleft, first]
    simp
  · exact exists_child_of_accepted hid hmem h
  · intro uri url version unit text g d v hv c hc h
    exact Grammar.exists_visited_of_accepted (Tree.parse_nests text)
      (Tree.parse_shaped text) hv hc h

/-- In `sections`, whose definition refers to itself, a second note behind a title and a note is
rejected, for only sections can follow; the children of the document element of `sectionText` are
accepted. -/
theorem rejected_iff_not_first_sections :
    let r := sections.after [("", "title"), ("", "note")] (.pattern 10)
    let g := Grammar.relaxNg (Grammar.fileAtTop "a.rng") sections
    let d := Document.parse (Grammar.fileAtTop "a.xml") 1 .utf16 Grammar.sectionText
    sections.first r = [11] ∧ sections.derivative r "" "note" = .notAllowed ∧
      ⟨Grammar.sectionRoot, .pattern sections 11⟩ ∈ g.visited d ∧
      (d.childElements Grammar.sectionRoot).length = 3 ∧
      ∀ c ∈ d.childElements Grammar.sectionRoot,
        ∃ child, (Declaration.pattern sections 11).child? c = some child ∧
          ⟨c, child⟩ ∈ g.visited d := by
  intro r g d
  have hfirst : sections.first r = [11] := by decide +kernel
  have hnone : ∀ p ∈ sections.first r, sections.admits p ("", "note") = false := by
    rw [hfirst]
    decide
  have hroot : d.root? = some Grammar.sectionRoot := by decide +kernel
  have hdecl : g.declarationOf? d.toTree Grammar.sectionRoot = some (.pattern sections 11) := by
    have hstart : sections.elementPatterns sections.start = [11] := by decide
    have hname : (Declaration.pattern sections 11).describes Grammar.sectionRoot = true := by decide
    refine (Grammar.declarationOf?_root (Tree.parse_shaped Grammar.sectionText) hroot).trans ?_
    rw [hstart, List.map_singleton, List.find?_singleton, if_pos hname]
  have hvisited := Grammar.mem_visited_root hroot hdecl
  have hexpected : ((Declaration.pattern sections 11).checkContent
      (d.childElements Grammar.sectionRoot)).unexpected = [] := by decide +kernel
  refine ⟨hfirst, ((rejected_iff_not_first sections).1 10 _ ("", "note")).mpr hnone, hvisited,
    by decide +kernel, fun c hc => ?_⟩
  refine (rejected_iff_not_first sections).2.2 _ _ 1 .utf16 Grammar.sectionText _ hvisited c hc ?_
  rw [hexpected]
  simp

end Schema

end XmlAdvisor
