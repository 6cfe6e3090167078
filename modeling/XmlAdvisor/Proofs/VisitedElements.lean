import XmlAdvisor.Proofs.IncompleteReports

/-!
# Which elements are validated

Validation goes down from the document element and stops where a declaration is missing; other
features look a declaration up along the whole path.  In a schema the path cannot skip an element
without a declaration, so both know the same elements: every declared one below the document element
is validated, once.  A definition finds elements by name and also knows those that no way down leads
to.

**Closed under children.**  The levels of a validation do not run out, since a child is numbered
after its parent (`mem_visitsFrom_child`).  From there an element is reached by induction on its
path.

* `Tree.Nests.mem_pathFromRoot_cases` — the path to an element goes through its parent.
* `Grammar.validate_eq_visited` — validation reports on the elements in `Grammar.visited`.
* `Grammar.mem_visited_child` — with an element its declared children are validated.
* **`Grammar.visited_exact`** — the validated elements are the declared ones.
-/

namespace XmlAdvisor

namespace Tree

variable {t : Tree} {e a : ElementNode}

/-! ## Paths from their ends -/

namespace Nests

variable (ht : t.Nests)
include ht

/-- An element with a parent is among the children of an element. -/
lemma exists_parentElement {p : Nat} (he : t.element? e.id = some e) (hp : e.parent = some p) :
    ∃ parent, t.element? parent.id = some parent ∧ e ∈ t.childElements parent := by
  obtain ⟨n, hn, -, hparent, -⟩ := (element?_eq_some he).2
  obtain ⟨-, m, hm, hmem, -⟩ := ht.inside e.id n p hn (hparent.trans hp)
  rw [Node.children_eq] at hmem
  cases hel : m.element? with
  | none =>
      rw [hel] at hmem
      cases hmem
  | some x =>
      rw [hel] at hmem
      have hparentElement : t.element? p = some ⟨p, m.parent, m.span, x⟩ := by
        simp [element?, hm, hel]
      exact ⟨⟨p, m.parent, m.span, x⟩, hparentElement, List.mem_filterMap.mpr ⟨e.id, hmem, he⟩⟩

/-- What is on the path to an element is the element or on the path to its parent. -/
lemma mem_pathFromRoot_cases (he : t.element? e.id = some e) (ha : a ∈ t.pathFromRoot e) :
    a = e ∨ ∃ parent, t.element? parent.id = some parent ∧ e ∈ t.childElements parent ∧
      a ∈ t.pathFromRoot parent := by
  cases hp : e.parent with
  | none =>
      left
      obtain ⟨n, hn, -, hparent, -⟩ := (element?_eq_some he).2
      have hnone : t.nodes[e.id]?.bind Node.parent = none := by
        rw [hn]
        exact hparent.trans hp
      simpa [pathFromRoot, elementsOutwards, outwards, hnone, he] using ha
  | some p =>
      obtain ⟨parent, hparent, hmem⟩ := ht.exists_parentElement he hp
      rw [ht.pathFromRoot_child hparent hmem, List.mem_append, List.mem_singleton] at ha
      rcases ha with ha | rfl
      · exact .inr ⟨parent, hparent, hmem, ha⟩
      · exact .inl rfl

end Nests

end Tree

namespace Grammar

variable {g : Grammar} {t : Tree} {d : Document} {e c : ElementNode} {decl : Declaration}

/-! ## Declarations of children -/

/-- In a schema the declaration of a child is found inside that of its parent and nowhere else. -/
lemma declarationOf?_eq_bind (hg : g.kind = .relaxNg) (ht : t.Nests) (he : t.element? e.id = some e)
    (hc : c ∈ t.childElements e) :
    g.declarationOf? t c = (g.declarationOf? t e).bind (·.child? c) := by
  cases g with
  | relaxNg uri s =>
      rw [declarationOf?, declarationOf?, ht.pathFromRoot_child he hc,
        declarationAlong?_append (Tree.pathFromRoot_ne_nil he)]
  | dtd uri definition root => cases hg

/-- In a schema the lookup from the document element adds nothing to what the parent's declaration
gives. -/
lemma childDeclaration?_eq (hg : g.kind = .relaxNg) (ht : t.Nests) (he : t.element? e.id = some e)
    (hc : c ∈ t.childElements e) (hdecl : g.declarationOf? t e = some decl) :
    g.childDeclaration? t decl c = decl.child? c := by
  have hsame : g.declarationOf? t c = decl.child? c := by
    rw [declarationOf?_eq_bind hg ht he hc, hdecl]
    rfl
  rw [childDeclaration?, hsame, Option.or_self]

/-! ## Visits are closed under declared children -/

lemma mem_visitsFrom_child (hs : t.Shaped) {v : Visit} (hc : c ∈ t.childElements v.element)
    (hdecl : g.childDeclaration? t v.declaration c = some decl) (levels : Nat) (w : Visit)
    (hw : t.element? w.element.id = some w.element)
    (hlevels : t.nodes.size ≤ levels + w.element.id) (hv : v ∈ g.visitsFrom t levels w) :
    ⟨c, decl⟩ ∈ g.visitsFrom t levels w := by
  induction levels generalizing w with
  | zero => cases hv
  | succ levels ih =>
      rw [visitsFrom] at hv ⊢
      refine List.mem_cons_of_mem w (List.mem_flatMap.mpr ?_)
      rcases List.mem_cons.mp hv with rfl | hv
      · refine ⟨⟨c, decl⟩, List.mem_filterMap.mpr ⟨c, hc, by rw [hdecl]; rfl⟩, ?_⟩
        -- the child is numbered inside the tree, so there is a level left for it
        have hsize := Tree.id_lt_size (Tree.element?_of_mem_childElements hc)
        have hafter := hs.id_lt_child hw hc
        obtain ⟨more, rfl⟩ : ∃ more, levels = more + 1 := ⟨levels - 1, by omega⟩
        exact List.mem_cons_self ..
      · obtain ⟨u, hu, hvu⟩ := List.mem_flatMap.mp hv
        obtain ⟨x, hx, hxu⟩ := List.mem_filterMap.mp hu
        obtain ⟨found, -, rfl⟩ := Option.map_eq_some_iff.mp hxu
        have hafter := hs.id_lt_child hw hx
        exact ⟨⟨x, found⟩, hu, ih ⟨x, found⟩ (Tree.element?_of_mem_childElements hx)
          (by dsimp only; omega) hvu⟩

/-- The document element is validated if it is declared. -/
lemma mem_visited_root {root : ElementNode} (hroot : d.root? = some root)
    (hdecl : g.declarationOf? d.toTree root = some decl) : ⟨root, decl⟩ ∈ g.visited d := by
  have hpos : 0 < d.nodes.size :=
    Nat.lt_of_le_of_lt (Nat.zero_le _) (Tree.id_lt_size (Tree.element?_root hroot))
  simp only [visited, hroot, hdecl, visits]
  obtain ⟨levels, hlevels⟩ : ∃ levels, d.nodes.size = levels + 1 :=
    ⟨_, (Nat.sub_add_cancel hpos).symm⟩
  rw [hlevels]
  exact List.mem_cons_self ..

/-- With an element its declared children are validated. -/
lemma mem_visited_child (hs : d.toTree.Shaped) {v : Visit} (hv : v ∈ g.visited d)
    (hc : c ∈ d.childElements v.element)
    (hdecl : g.childDeclaration? d.toTree v.declaration c = some decl) :
    ⟨c, decl⟩ ∈ g.visited d := by
  obtain ⟨root, top, hroot, -, heq⟩ := visited_of_mem hv
  rw [heq] at hv ⊢
  exact mem_visitsFrom_child hs hc hdecl _ ⟨root, top⟩ (Tree.element?_root hroot)
    (Nat.le_add_right _ _) hv

/-- Validation reports on the elements that it goes through, one after the other. -/
lemma validate_eq_visited {root : ElementNode} (hroot : d.root? = some root)
    (hdecl : (g.declarationOf? d.toTree root).isSome) :
    g.validate d = Request.flatMapM (fun v => do
      Request.check
      return v.diagnostics g d) (g.visited d) := by
  obtain ⟨decl, hdecl⟩ := Option.isSome_iff_exists.mp hdecl
  simp only [validate, visited, hroot, hdecl]

/-! ## Declared elements are visited -/

/-- In a schema every declared element below the document element is validated. -/
lemma exists_mem_visited (hg : g.kind = .relaxNg) (ht : d.toTree.Nests) (hs : d.toTree.Shaped)
    {root : ElementNode} (hroot : d.root? = some root) (he : d.element? e.id = some e)
    (hpath : root ∈ d.pathFromRoot e) (hdecl : g.declarationOf? d.toTree e = some decl) :
    ⟨e, decl⟩ ∈ g.visited d := by
  induction hid : e.id using Nat.strongRecOn generalizing e decl with
  | ind id ih =>
      rcases ht.mem_pathFromRoot_cases he hpath with rfl | ⟨parent, hparent, hc, hpath⟩
      · exact mem_visited_root hroot hdecl
      · rw [declarationOf?_eq_bind hg ht hparent hc] at hdecl
        obtain ⟨outer, houter, hchild⟩ := Option.bind_eq_some_iff.mp hdecl
        have hbefore : parent.id < id := hid ▸ hs.id_lt_child hparent hc
        have hvisited := ih parent.id hbefore hparent hpath houter rfl
        exact mem_visited_child hs hvisited hc
          ((childDeclaration?_eq hg ht hparent hc houter).trans hchild)

/-- An element that is validated is validated once. -/
lemma count_visited (ht : d.toTree.Nests) (hs : d.toTree.Shaped) {v : Visit}
    (hv : v ∈ g.visited d) : ((g.visited d).map (·.element)).count v.element = 1 := by
  have hnodup : ((g.visited d).map (·.element)).Nodup := by
    refine List.Nodup.of_map ElementNode.id ?_
    rw [List.map_map]
    exact nodup_visited ht hs
  exact List.count_eq_one_of_mem hnodup (List.mem_map_of_mem hv)

/-- **Validation sees the declarations that every other feature sees.**  It goes through the
elements in `visited`, each with the declaration that the grammar finds for it.  Against a schema,
every element below the document element for which there is a declaration is validated once, and
children have no declaration but the one inside their parent's. -/
theorem visited_exact (g : Grammar) (url : Url) (version : Int) (unit : ColumnUnit)
    (text : List Char) :
    let d := Document.parse url version unit text
    (∀ root, d.root? = some root → (g.declarationOf? d.toTree root).isSome →
        g.validate d = Request.flatMapM (fun v => do
          Request.check
          return v.diagnostics g d) (g.visited d)) ∧
      (∀ v ∈ g.visited d, g.declarationOf? d.toTree v.element = some v.declaration) ∧
      (g.kind = .relaxNg →
        (∀ root, d.root? = some root → ∀ e ∈ d.elements, root ∈ d.pathFromRoot e →
          (g.declarationOf? d.toTree e).isSome →
          ((g.visited d).map (·.element)).count e = 1) ∧
        ∀ v ∈ g.visited d, ∀ c ∈ d.childElements v.element,
          g.childDeclaration? d.toTree v.declaration c = v.declaration.child? c) := by
  intro d
  have hnests : d.toTree.Nests := Tree.parse_nests text
  have hshaped : d.toTree.Shaped := Tree.parse_shaped text
  refine ⟨fun root hroot hdeclared => validate_eq_visited hroot hdeclared,
    fun v hv => declarationOf?_of_mem_visited hnests hv, fun hg => ⟨?_, ?_⟩⟩
  · intro root hroot e he hpath hdeclared
    obtain ⟨decl, hdecl⟩ := Option.isSome_iff_exists.mp hdeclared
    have hvisited := exists_mem_visited hg hnests hshaped hroot
      (Tree.mem_elements.mp he) hpath hdecl
    exact count_visited hnests hshaped hvisited
  · intro v hv c hc
    exact childDeclaration?_eq hg hnests (element?_of_mem_visited hv) hc
      (declarationOf?_of_mem_visited hnests hv)

theorem visited_exact_sections :
    let g := relaxNg (fileAtTop "a.rng") Schema.sections
    let d := Document.parse (fileAtTop "a.xml") 1 .utf16 sectionText
    g.kind = .relaxNg ∧ d.root? = some sectionRoot ∧ d.elements.length = 6 ∧
      ∀ e ∈ d.elements, (sectionRoot ∈ d.pathFromRoot e ∧ (g.declarationOf? d.toTree e).isSome) ∧
        ((g.visited d).map (·.element)).count e = 1 := by
  intro g d
  have hroot : d.root? = some sectionRoot := by decide +kernel
  have hdeclared : ∀ e ∈ d.elements,
      sectionRoot ∈ d.pathFromRoot e ∧ (g.declarationOf? d.toTree e).isSome := by decide +kernel
  have honce := ((visited_exact g (fileAtTop "a.xml") 1 .utf16 sectionText).2.2 rfl).1
  refine ⟨rfl, hroot, by decide +kernel, fun e he => ⟨hdeclared e he, ?_⟩⟩
  exact honce sectionRoot hroot e he (hdeclared e he).1 (hdeclared e he).2

end Grammar

end XmlAdvisor
