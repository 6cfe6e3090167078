import XmlAdvisor.Proofs.ContentCheck
import XmlAdvisor.Proofs.Reachability
import XmlAdvisor.Proofs.Reporting

/-!
# Validation decides the tree language

A schema accepts an element if its children can be assigned element patterns that form a word of the
content of the element's own pattern and that accept the children in turn.  The validator makes no
such guess: it gives each child the first pattern of its name.  Where names decide, the two agree.

* `Schema.Accepts` — the trees of a pattern; `Schema.AcceptsDocument` — those of the schema.
* `Schema.SingleType` — within each content model, and at the start, a name belongs to one element
  pattern at most.
* `leads_of_mem_childPatterns` — the letters of a word of patterns are elements that the content
  leads to, so the pattern a child is assigned is the one the validator finds for it.
* **`validate_structural_iff`** — a validation that is not given up reports nothing about elements
  and their children exactly if the schema accepts the document.
-/

namespace XmlAdvisor

open scoped Computability

namespace Schema

/-! ## The tree language -/

/-- Whether an element is in the tree language of an element pattern: its name is one of the
pattern's, and patterns can be assigned to its children that form a word of the content and whose
tree languages hold the children. -/
inductive Accepts (s : Schema) (t : Tree) : Nat → ElementNode → Prop
  | intro {id content : Nat} {e : ElementNode} (assigned : List (Nat × ElementNode))
      (name : s.admits id e.expandedName = true)
      (hasContent : s.elementContent? id = some content)
      (children : assigned.map Prod.snd = t.childElements e)
      (word : assigned.map Prod.fst ∈ s.childPatterns content)
      (below : ∀ a ∈ assigned, Accepts s t a.1 a.2) : Accepts s t id e

/-- Whether a document element is in the tree language of an element pattern that the start leads
to. -/
def AcceptsDocument (s : Schema) (t : Tree) (root : ElementNode) : Prop :=
  ∃ id, s.Leads true s.start id ∧ s.isElement id = true ∧ s.Accepts t id root

/-- Whether no two element patterns that a pattern leads to have a common name. -/
def Unambiguous (s : Schema) (id : Nat) : Prop :=
  ∀ p q, s.Leads true id p → s.isElement p = true → s.Leads true id q → s.isElement q = true →
    ∀ n, s.admits p n = true → s.admits q n = true → p = q

/-- Whether names decide between element patterns, at the start and inside each content model. -/
structure SingleType (s : Schema) : Prop where
  start : s.Unambiguous s.start
  contents : ∀ id content, s.elementContent? id = some content → s.Unambiguous content

variable {s : Schema}

/-- Elements with different simple names do not get in each other's way. -/
lemma unambiguous_of_simpleNames {id : Nat}
    (h : ∀ p ∈ s.elementPatterns id, ∀ q ∈ s.elementPatterns id,
      (s.simpleName? p).isSome = true ∧ (s.simpleName? p = s.simpleName? q → p = q)) :
    s.Unambiguous id := by
  intro p q hp hpel hq hqel n hpn hqn
  have hmemp := mem_elementPatterns_iff.mpr ⟨hp, hpel⟩
  have hmemq := mem_elementPatterns_iff.mpr ⟨hq, hqel⟩
  obtain ⟨m, hm⟩ := Option.isSome_iff_exists.mp (h p hmemp q hmemq).1
  obtain ⟨m', hm'⟩ := Option.isSome_iff_exists.mp (h q hmemq p hmemp).1
  refine (h p hmemp q hmemq).2 ?_
  rw [hm, hm', ← (s.admits_iff_of_simpleName? hm).mp hpn,
    ← (s.admits_iff_of_simpleName? hm').mp hqn]

/-! ## The letters of a word of patterns -/

lemma spelledBy_mono {P Q : Nat → Prop} (h : ∀ p, P p → Q p) : spelledBy P ≤ spelledBy Q :=
  fun _ hw p hp => h p (hw p hp)

/-- The elements that a word of patterns consists of are elements that the pattern leads to. -/
lemma leads_of_mem_childPatterns {id : Nat} {ids : List Nat} (h : ids ∈ s.childPatterns id) :
    ∀ p ∈ ids, s.Leads true id p ∧ s.isElement p = true := by
  let bound (q : Nat) : Language Nat := spelledBy fun p => s.Leads true q p ∧ s.isElement p = true
  have hpart : ∀ {q m : Nat}, m ∈ s.parts true q → bound m ≤ bound q := fun hm =>
    spelledBy_mono fun p hp => ⟨.head hm hp.1, hp.2⟩
  refine s.content_le bound (fun q => ?_) id h
  have hmembers : ∀ {members : List Nat}, s.parts true q = members →
      ∀ k ∈ members.map bound, k ≤ bound q := by
    rintro _ rfl k hk
    obtain ⟨m, hm, rfl⟩ := List.mem_map.mp hk
    exact hpart hm
  rw [contentStep]
  cases hq : s.pattern q with
  | element name content documentation =>
      rintro _ rfl p hp
      rw [List.mem_singleton.mp hp]
      exact ⟨.refl, by simp [isElement, hq]⟩
  | choice members => exact sum_le_spelledBy (hmembers (by simp [parts, hq]))
  | group members => exact prod_le_spelledBy (hmembers (by simp [parts, hq]))
  | interleave members =>
      exact foldl_shuffle_le_spelledBy one_le_spelledBy (hmembers (by simp [parts, hq]))
  | oneOrMore body =>
      have hbody : bound body ≤ bound q := hpart (by simp [parts, hq])
      exact mul_le_spelledBy hbody (kstar_le_spelledBy hbody)
  | ref d =>
      dsimp only
      cases hb : s.body? d with
      | none => exact zero_le_spelledBy
      | some body => exact hpart (by simp [parts, hq, hb])
  | notAllowed => exact zero_le_spelledBy
  | _ => exact one_le_spelledBy

/-! ## The pattern that the validator finds -/

/-- Where names decide, the first element pattern of a name is the only one. -/
lemma Unambiguous.find?_eq_some {id p : Nat} (h : s.Unambiguous id) (hlead : s.Leads true id p)
    (hp : s.isElement p = true) {e : ElementNode} (hn : s.admits p e.expandedName = true) :
    ((s.elementPatterns id).map (Declaration.pattern s)).find? (·.describes e)
      = some (.pattern s p) := by
  rw [List.find?_map]
  cases hfind : (s.elementPatterns id).find?
      ((fun d : Declaration => d.describes e) ∘ Declaration.pattern s) with
  | none =>
      have hmem : p ∈ s.elementPatterns id := mem_elementPatterns_iff.mpr ⟨hlead, hp⟩
      exact absurd hn (List.find?_eq_none.mp hfind p hmem)
  | some q =>
      have hq : (Declaration.pattern s q).describes e = true := by
        simpa using List.find?_some hfind
      obtain ⟨hleadq, helq⟩ := mem_elementPatterns_iff.mp (List.mem_of_find?_eq_some hfind)
      rw [h q p hleadq helq hlead hp e.expandedName hq hn]
      rfl

lemma child?_eq_some {id content p : Nat} (hs : s.SingleType)
    (hc : s.elementContent? id = some content) (hlead : s.Leads true content p)
    (hp : s.isElement p = true) {e : ElementNode} (hn : s.admits p e.expandedName = true) :
    (Declaration.pattern s id).child? e = some (.pattern s p) := by
  simp only [Declaration.child?, Declaration.children, hc]
  exact (hs.contents id content hc).find?_eq_some hlead hp hn

end Schema

/-! ## The elements that are validated -/

namespace Grammar

variable {uri : Url} {s : Schema} {t : Tree}

/-- Whether the content of an element that is validated is valid. -/
def Visit.Valid (t : Tree) (v : Visit) : Prop :=
  (v.declaration.checkContent (t.childElements v.element)).isValid = true

/-- Whether checking the content of an element that is validated never runs out of depth. -/
def Visit.fits (t : Tree) (v : Visit) : Bool :=
  match v.declaration with
  | .pattern s id => s.checkFits id (t.childElements v.element)
  | .dtd _ _ => true

/-- Content is valid exactly if its names can be assigned patterns that form a word. -/
lemma valid_iff {id content : Nat} {e : ElementNode} (hc : s.elementContent? id = some content)
    (hfit : Visit.fits t ⟨e, .pattern s id⟩ = true) :
    Visit.Valid t ⟨e, .pattern s id⟩ ↔ ∃ ids ∈ s.childPatterns content,
      List.Forall₂ (fun p c => s.admits p (ElementNode.expandedName c) = true) ids
        (t.childElements e) := by
  rw [Visit.Valid, s.isValid_checkContent hc,
    s.foldChildren_valid_iff _ _ (s.childrenFit_of_checkFits hc hfit)]
  refine s.mem_childNames_iff.trans (exists_congr fun ids => and_congr_right fun _ => ?_)
  exact List.forall₂_map_right_iff

/-- A child that its parent's content has a pattern for is validated with that pattern. -/
lemma mem_childVisits {e c : ElementNode} {id p : Nat} (hcild : c ∈ t.childElements e)
    (hp : (Declaration.pattern s id).child? c = some (.pattern s p)) :
    (⟨c, .pattern s p⟩ : Visit) ∈
      (relaxNg uri s).childVisits t ⟨e, .pattern s id⟩ := by
  refine List.mem_filterMap.mpr ⟨c, hcild, ?_⟩
  rw [childDeclaration?, hp]
  rfl

/-- Elements that are validated stand in the tree. -/
lemma element?_of_mem_visitsFrom (g : Grammar) (levels : Nat) (v : Visit)
    (hv : t.element? v.element.id = some v.element) :
    ∀ w ∈ g.visitsFrom t levels v, t.element? w.element.id = some w.element := by
  induction levels generalizing v with
  | zero =>
      intro w hw
      cases hw
  | succ levels ih =>
      intro w hw
      rcases List.mem_cons.mp hw with rfl | hw
      · exact hv
      · obtain ⟨u, hu, hwu⟩ := List.mem_flatMap.mp hw
        obtain ⟨c, hc, hcu⟩ := List.mem_filterMap.mp hu
        obtain ⟨decl, -, rfl⟩ := Option.map_eq_some_iff.mp hcu
        exact ih _ (Tree.element?_of_mem_childElements hc) w hwu

/-! ## Both directions -/

/-- If all content from an element down is valid, the element is in the tree language of its
pattern.  Children are numbered after their parents, so the levels suffice. -/
lemma accepts_of_valid (ht : t.Shaped) (hs : s.SingleType) (levels id : Nat) (e : ElementNode)
    (hid : s.isElement id = true) (hname : s.admits id e.expandedName = true)
    (he : t.element? e.id = some e) (hle : t.nodes.size ≤ levels + e.id)
    (hvalid : ∀ v ∈ (relaxNg uri s).visitsFrom t levels ⟨e, .pattern s id⟩,
      v.fits t = true ∧ v.Valid t) : s.Accepts t id e := by
  induction levels generalizing id e with
  | zero =>
      have hlt := Tree.id_lt_size he
      omega
  | succ levels ih =>
      obtain ⟨content, hc⟩ := s.exists_elementContent? hid
      obtain ⟨hfit, hv⟩ := hvalid ⟨e, .pattern s id⟩ (by simp [visitsFrom])
      obtain ⟨ids, hids, hassign⟩ := (valid_iff hc hfit).mp hv
      have hlength := hassign.length_eq
      refine .intro (ids.zip (t.childElements e)) hname hc
        (List.map_snd_zip hlength.ge) (by rwa [List.map_fst_zip hlength.le]) fun a ha => ?_
      have hchild : a.2 ∈ t.childElements e := (List.of_mem_zip ha).2
      obtain ⟨hlead, hel⟩ := s.leads_of_mem_childPatterns hids a.1 (List.of_mem_zip ha).1
      have hadmits := (List.forall₂_iff_zip.mp hassign).2 ha
      have hafter := ht.id_lt_child he hchild
      have hvisit : (⟨a.2, .pattern s a.1⟩ : Visit) ∈
          (relaxNg uri s).childVisits t ⟨e, .pattern s id⟩ :=
        mem_childVisits hchild (s.child?_eq_some hs hc hlead hel hadmits)
      refine ih a.1 a.2 hel hadmits (Tree.element?_of_mem_childElements hchild) (by omega) ?_
      intro v hv
      exact hvalid v (List.mem_cons_of_mem _ (List.mem_flatMap.mpr ⟨_, hvisit, hv⟩))

/-- If an element is in the tree language of its pattern, all content from it down is valid. -/
lemma valid_of_accepts (hs : s.SingleType) (levels id : Nat) (e : ElementNode)
    (haccepts : s.Accepts t id e)
    (hfits : ∀ v ∈ (relaxNg uri s).visitsFrom t levels ⟨e, .pattern s id⟩, v.fits t = true) :
    ∀ v ∈ (relaxNg uri s).visitsFrom t levels ⟨e, .pattern s id⟩, v.Valid t := by
  induction levels generalizing id e with
  | zero =>
      intro v hv
      cases hv
  | succ levels ih =>
      intro v hv
      obtain ⟨assigned, hname, hc, hchildren, hword, hbelow⟩ := haccepts
      have hadmits : ∀ a ∈ assigned, s.admits a.1 a.2.expandedName = true := by
        intro a ha
        obtain ⟨_, hn, _⟩ := hbelow a ha
        exact hn
      rcases List.mem_cons.mp hv with rfl | hv
      · refine (valid_iff hc (hfits _ (by simp [visitsFrom]))).mpr ⟨_, hword, ?_⟩
        rw [← hchildren, List.forall₂_map_left_iff, List.forall₂_map_right_iff, List.forall₂_same]
        exact hadmits
      · obtain ⟨u, hu, hvu⟩ := List.mem_flatMap.mp hv
        obtain ⟨c, hcild, hcu⟩ := List.mem_filterMap.mp hu
        rw [← hchildren] at hcild
        obtain ⟨a, ha, rfl⟩ := List.mem_map.mp hcild
        obtain ⟨hlead, hel⟩ := s.leads_of_mem_childPatterns hword a.1 (List.mem_map_of_mem ha)
        have hfound := s.child?_eq_some hs hc hlead hel (hadmits a ha)
        have hua : u = ⟨a.2, .pattern s a.1⟩ := by
          simpa [childDeclaration?, hfound, eq_comm] using hcu
        subst hua
        refine ih a.1 a.2 (hbelow a ha) (fun w hw => hfits w ?_) v hvu
        exact List.mem_cons_of_mem _ (List.mem_flatMap.mpr ⟨_, hu, hw⟩)

/-! ## The document -/

/-- The document element has the first pattern of its name that the start leads to. -/
lemma declarationOf?_root (ht : t.Shaped) {root : ElementNode} (hroot : t.root? = some root) :
    (relaxNg uri s).declarationOf? t root
      = ((s.elementPatterns s.start).map (Declaration.pattern s)).find? (·.describes root) := by
  have helement := Tree.element?_root hroot
  obtain ⟨n, hn, -, hparent, -⟩ := (Tree.element?_eq_some helement).2
  have hpath : t.pathFromRoot root = [root] := by
    have hnone : n.parent = none := hparent.trans (ht.root_parent hroot)
    simp [Tree.pathFromRoot, Tree.elementsOutwards, Tree.outwards, hn, hnone, helement]
  rw [declarationOf?]
  rw [hpath]
  simp [declarationAlong?, topLevel]

/-- Whether validating a document never runs out of depth. -/
def fits (g : Grammar) (t : Tree) : Bool :=
  t.root?.all fun root =>
    (g.declarationOf? t root).all fun decl => (g.visits t root decl).all (Visit.fits t)

/-- If the document element has a pattern, the schema accepts the document exactly if all content is
valid. -/
lemma valid_visits_iff (ht : t.Shaped) (hs : s.SingleType) {root : ElementNode}
    (hroot : t.root? = some root) {p : Nat} (hp : p ∈ s.elementPatterns s.start)
    (hname : s.admits p root.expandedName = true)
    (hfits : ∀ v ∈ (relaxNg uri s).visits t root (.pattern s p), v.fits t = true) :
    (∀ v ∈ (relaxNg uri s).visits t root (.pattern s p), v.Valid t) ↔
      s.AcceptsDocument t root := by
  obtain ⟨hlead, hel⟩ := s.mem_elementPatterns_iff.mp hp
  constructor
  · intro hvalid
    exact ⟨p, hlead, hel, accepts_of_valid ht hs _ p root hel hname (Tree.element?_root hroot)
      (Nat.le_add_right _ _) fun v hv => ⟨hfits v hv, hvalid v hv⟩⟩
  · rintro ⟨q, hleadq, helq, haccepts⟩
    obtain ⟨assigned, hnameq, hc, hchildren, hword, hbelow⟩ := haccepts
    obtain rfl := hs.start p q hlead hel hleadq helq root.expandedName hname hnameq
    exact valid_of_accepts hs _ p root (.intro assigned hname hc hchildren hword hbelow) hfits

/-- Something about children is reported exactly if some content is not valid. -/
lemma structural_flatMap_iff (g : Grammar) {d : Document} (hd : d.toTree.Shaped) {vs : List Visit}
    (hvs : ∀ v ∈ vs, d.element? v.element.id = some v.element) :
    (¬ ∃ x ∈ vs.flatMap (fun v => v.diagnostics g d), x.IsStructural) ↔
      ∀ v ∈ vs, v.Valid d.toTree := by
  constructor
  · intro hnone v hv
    by_contra hinvalid
    obtain ⟨x, hx, hstr⟩ := (structural_diagnostics_iff (g := g) hd (hvs v hv)).mpr
      (Bool.not_eq_true _ ▸ hinvalid)
    exact hnone ⟨x, List.mem_flatMap.mpr ⟨v, hv, hx⟩, hstr⟩
  · rintro hvalid ⟨x, hx, hstr⟩
    obtain ⟨v, hv, hxv⟩ := List.mem_flatMap.mp hx
    have hinvalid := (structural_diagnostics_iff hd (hvs v hv)).mp ⟨x, hxv, hstr⟩
    exact absurd (hvalid v hv) (by simp [Visit.Valid, hinvalid])

/-- That the document element is not declared is reported. -/
lemma exists_structural_undeclared {d : Document} (hd : d.toTree.Shaped) (uri : String)
    {root : ElementNode} (hroot : d.root? = some root) :
    ∃ x ∈ d.report [undeclaredViolation uri root], x.IsStructural := by
  have hstop := hd.nameSpan_stop_le (Tree.element?_root hroot)
  refine (Document.structural_report_iff ?_).mpr
    ⟨_, List.mem_singleton.mpr rfl, by simp [undeclaredViolation, ProblemCode.structural]⟩
  intro v hv _
  rw [List.mem_singleton.mp hv]
  have hle : root.nameSpan.start ≤ root.nameSpan.stop := by
    simp only [ElementNode.nameSpan]
    omega
  exact ⟨hle.trans hstop, hstop⟩

/-- The result for every document whose tree is well shaped. -/
lemma validate_structural_iff_of_shaped (uri : Url) (single : s.SingleType) {d : Document}
    (hd : d.toTree.Shaped) {root : ElementNode} (hroot : d.root? = some root)
    (hfits : (relaxNg uri s).fits d.toTree = true) (store : GrammarStore) :
    ∃ ds, ((relaxNg uri s).validate d).runFrom ⟨store, .never⟩ = (.ok ds, ⟨store, .never⟩) ∧
      ((¬ ∃ x ∈ ds, x.IsStructural) ↔ s.AcceptsDocument d.toTree root) := by
  have hfind : (relaxNg uri s).declarationOf? d.toTree root = _ := declarationOf?_root hd hroot
  cases hdecl : (relaxNg uri s).declarationOf? d.toTree root with
  | none =>
      refine ⟨_, runFrom_validate_undeclared _ hroot hdecl store, ?_⟩
      refine iff_of_false (not_not.mpr (exists_structural_undeclared hd uri.text hroot)) ?_
      rintro ⟨p, hlead, hel, haccepts⟩
      obtain ⟨_, hname, _⟩ := haccepts
      rw [hdecl, single.start.find?_eq_some hlead hel hname] at hfind
      cases hfind
  | some decl =>
      rw [hdecl, eq_comm] at hfind
      obtain ⟨p, hp, rfl⟩ := List.mem_map.mp (List.mem_of_find?_eq_some hfind)
      have hname : (Declaration.pattern s p).describes root = true := by
        simpa using List.find?_some hfind
      refine ⟨_, runFrom_validate _ hroot hdecl store, ?_⟩
      refine (structural_flatMap_iff _ hd
        (element?_of_mem_visitsFrom _ _ ⟨root, _⟩ (Tree.element?_root hroot))).trans ?_
      refine valid_visits_iff hd single hroot hp hname fun v hv => ?_
      simp only [fits, hroot, hdecl, Option.all_some, List.all_eq_true] at hfits
      exact hfits v hv

/-- **Validation decides the tree language.**  As long as no check runs out of depth, the validation
of a document that is not given up succeeds, and it reports nothing about elements and their
children exactly if the schema accepts the document. -/
theorem validate_structural_iff (uri : Url) {s : Schema} (single : s.SingleType) (url : Url)
    (version : Int) (unit : ColumnUnit) (text : List Char) {root : ElementNode}
    (hroot : (Tree.parse text).root? = some root)
    (hfits : (relaxNg uri s).fits (Tree.parse text) = true) (store : GrammarStore) :
    ∃ ds, ((relaxNg uri s).validate (Document.parse url version unit text)).runFrom ⟨store, .never⟩
        = (.ok ds, ⟨store, .never⟩) ∧
      ((¬ ∃ x ∈ ds, x.IsStructural) ↔ s.AcceptsDocument (Tree.parse text) root) := by
  have hd : (Document.parse url version unit text).toTree = Tree.parse text := rfl
  rw [← hd] at hroot hfits ⊢
  exact validate_structural_iff_of_shaped uri single (hd ▸ Tree.parse_shaped text) hroot hfits store

/-- In the schema of sections, names decide. -/
lemma singleType_sections : Schema.sections.SingleType where
  start := Schema.unambiguous_of_simpleNames (by decide)
  contents id content hc := by
    have hlt : id < 12 := by
      by_contra hid
      simp [Schema.elementContent?, Schema.pattern, Array.getD, Schema.sections, hid] at hc
    have key : ∀ id < 12, ∀ content ∈ Schema.sections.elementContent? id,
        ∀ p ∈ Schema.sections.elementPatterns content,
        ∀ q ∈ Schema.sections.elementPatterns content,
        (Schema.sections.simpleName? p).isSome = true ∧
          (Schema.sections.simpleName? p = Schema.sections.simpleName? q → p = q) := by
      decide
    exact Schema.unambiguous_of_simpleNames (key id hlt content hc)

/-- A section with a title, a note and a section in it. -/
def sectionText : List Char :=
  "<section><title/><note/><section><title/><note/></section></section>".toList

/-- The document element of `sectionText`. -/
def sectionRoot : ElementNode :=
  ⟨0, none, ⟨0, 68⟩, ⟨⟨none, "section"⟩, none, [], [1, 2, 3], some 8, some 58, false⟩⟩

/-- The location of a file at the top. -/
def fileAtTop (name : String) : Url :=
  ⟨"file", none, .segments [name], none, none⟩

theorem validate_structural_sections :
    Schema.sections.SingleType ∧ (Tree.parse sectionText).root? = some sectionRoot ∧
    (relaxNg (fileAtTop "a.rng") Schema.sections).fits (Tree.parse sectionText) = true ∧
    ∃ ds, ((relaxNg (fileAtTop "a.rng") Schema.sections).validate
        (Document.parse (fileAtTop "a.xml") 1 .utf16 sectionText)).runFrom ⟨{}, .never⟩
        = (.ok ds, ⟨{}, .never⟩) ∧
      ((¬ ∃ x ∈ ds, x.IsStructural) ↔
        Schema.sections.AcceptsDocument (Tree.parse sectionText) sectionRoot) := by
  have hroot : (Tree.parse sectionText).root? = some sectionRoot := by decide +kernel
  have hfits : (relaxNg (fileAtTop "a.rng") Schema.sections).fits
      (Tree.parse sectionText) = true := by
    decide +kernel
  exact ⟨singleType_sections, hroot, hfits,
    validate_structural_iff _ singleType_sections _ 1 .utf16 sectionText hroot hfits {}⟩

end Grammar

end XmlAdvisor
