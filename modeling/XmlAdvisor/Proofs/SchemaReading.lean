import XmlAdvisor.Proofs.SourceLanguage
import XmlAdvisor.Proofs.VisitOrder

/-!
# How a schema document is read

What an element of a schema document is read as depends on its local name and on what the elements
inside it are read as, and on nothing else of the document but the namespaces in scope.

* `Tree.patternChildren` — the elements inside a pattern that are patterns themselves.
* `Tree.Stands` — what an element stands for, one rule for each kind of pattern.
* **`Tree.readPattern_cases`** — what is read stands for the element.
* `Tree.partElements`, `Tree.ReadsPart` — the starts and definitions of a grammar, and what they are
  read as.
-/

namespace XmlAdvisor

/-! ## Results -/

section Results

variable {ε α β : Type}

lemma ok_of_bind {x : Except ε α} {f : α → Except ε β} {b : β} (h : x >>= f = .ok b) :
    ∃ a, x = .ok a ∧ f a = .ok b := by
  cases x with
  | error error => cases h
  | ok a => exact ⟨a, rfl, h⟩

lemma ok_of_map {x : Except ε α} {f : α → β} {b : β} (h : x.map f = .ok b) :
    ∃ a, x = .ok a ∧ f a = b := by
  cases x with
  | error error => cases h
  | ok a => exact ⟨a, rfl, Except.ok.inj h⟩

/-- When a list is read, each member is. -/
lemma forall₂_of_mapM {f : α → Except ε β} {as : List α} {bs : List β}
    (h : as.mapM f = .ok bs) : List.Forall₂ (fun a b => a ∈ as ∧ f a = .ok b) as bs := by
  induction as generalizing bs with
  | nil =>
      cases h
      exact .nil
  | cons a as ih =>
      rw [List.mapM_cons] at h
      obtain ⟨b, hb, h⟩ := ok_of_bind h
      obtain ⟨bs', hbs, h⟩ := ok_of_bind h
      cases h
      exact .cons ⟨List.mem_cons_self, hb⟩
        ((ih hbs).imp fun _ _ ⟨hmem, hok⟩ => ⟨List.mem_cons_of_mem _ hmem, hok⟩)

end Results

/-- The patterns that a pattern is directly written with. -/
def SourcePattern.members : SourcePattern → List SourcePattern
  | .element _ content _ => content
  | .attribute _ content _ _ => content
  | .list ps | .group ps | .interleave ps | .choice ps | .optional ps | .zeroOrMore ps
  | .oneOrMore ps | .mixed ps => ps
  | .empty | .text | .notAllowed | .data _ | .value _ | .ref _ => []

namespace Tree

variable {t : Tree} {e c : ElementNode} {p : SourcePattern} {ps : List SourcePattern} {depth : Nat}

/-! ## Namespaces -/

/-- The namespace of unqualified names at an element of a schema document: what the nearest `ns`
attribute outwards says, or none. -/
def schemaNs (t : Tree) (e : ElementNode) : String :=
  ((t.elementsOutwards e.id).findSome? (attributeValue? · "ns")).getD ""

lemma elementsOutwards_eq (t : Tree) (e : ElementNode) :
    t.elementsOutwards e.id = (t.pathFromRoot e).reverse := by
  rw [pathFromRoot, List.reverse_reverse]

/-- A child inherits the namespace of its parent. -/
lemma Nests.schemaNs_child (ht : t.Nests) (he : t.element? e.id = some e)
    (hc : c ∈ t.schemaChildren e) : t.schemaNs c = inheritedNs c (t.schemaNs e) := by
  have hpath := ht.pathFromRoot_child he (List.mem_of_mem_filter hc)
  rw [schemaNs, elementsOutwards_eq, hpath, List.reverse_append, List.reverse_singleton,
    List.singleton_append, List.findSome?_cons, ← elementsOutwards_eq, inheritedNs]
  cases attributeValue? c "ns" with
  | none => rfl
  | some ns => rfl

lemma schemaNs_root (ht : t.Shaped) {root : ElementNode} (h : t.root? = some root) :
    t.schemaNs root = inheritedNs root "" := by
  have helement := element?_root h
  obtain ⟨n, hn, -, hparent, -⟩ := (element?_eq_some helement).2
  have hnone : n.parent = none := hparent.trans (ht.root_parent h)
  have houtwards : t.elementsOutwards root.id = [root] := by
    simp [elementsOutwards, outwards, hn, hnone, helement]
  rw [schemaNs, houtwards, List.findSome?_singleton, inheritedNs]

/-! ## Patterns -/

/-- The elements inside a pattern that are patterns: of an element or an attribute without those
that name it, and none of what can have no patterns inside.  Elements of other languages are
skipped. -/
def patternChildren (t : Tree) (e : ElementNode) : List ElementNode :=
  match e.element.localName with
  | "element" | "attribute" =>
    if (attributeValue? e "name").isSome then t.schemaChildren e else (t.schemaChildren e).tail
  | "empty" | "text" | "notAllowed" | "data" | "value" | "ref" | "parentRef" => []
  | _ => t.schemaChildren e

lemma mem_schemaChildren_of_mem_patternChildren (hc : c ∈ t.patternChildren e) :
    c ∈ t.schemaChildren e := by
  unfold patternChildren at hc
  split at hc
  any_goals exact hc
  any_goals cases hc
  all_goals
    split_ifs at hc
    · exact hc
    · exact List.mem_of_mem_tail hc

/-- What an element stands for, when the patterns inside it stand for the given ones. -/
inductive Stands (t : Tree) (e : ElementNode) (inside : List SourcePattern) : SourcePattern → Prop
  | element {name : NameClass} {rest : List ElementNode} (h : e.element.localName = "element")
      (hname : t.readPatternName e (t.schemaNs e) (t.schemaNs e) .namelessElement =
        .ok (name, rest)) :
      Stands t e inside (.element name inside (t.schemaDocumentation e))
  | attr {name : NameClass} {rest : List ElementNode} (h : e.element.localName = "attribute")
      (hname : t.readPatternName e "" (t.schemaNs e) .namelessAttribute = .ok (name, rest)) :
      Stands t e inside (.attribute name inside (t.schemaDocumentation e) (t.notedDefault e))
  | empty (h : e.element.localName = "empty") (hinside : inside = []) : Stands t e inside .empty
  | text (h : e.element.localName = "text") (hinside : inside = []) : Stands t e inside .text
  | notAllowed (h : e.element.localName = "notAllowed") (hinside : inside = []) :
      Stands t e inside .notAllowed
  | data (h : e.element.localName = "data") (hinside : inside = []) :
      Stands t e inside (.data (trimmed ((attributeValue? e "type").getD "string")))
  | value (h : e.element.localName = "value") (hinside : inside = []) :
      Stands t e inside (.value (t.textContent e))
  | list (h : e.element.localName = "list") : Stands t e inside (.list inside)
  | group (h : e.element.localName = "group") : Stands t e inside (.group inside)
  | interleave (h : e.element.localName = "interleave") : Stands t e inside (.interleave inside)
  | choice (h : e.element.localName = "choice") : Stands t e inside (.choice inside)
  | optional (h : e.element.localName = "optional") : Stands t e inside (.optional inside)
  | zeroOrMore (h : e.element.localName = "zeroOrMore") : Stands t e inside (.zeroOrMore inside)
  | oneOrMore (h : e.element.localName = "oneOrMore") : Stands t e inside (.oneOrMore inside)
  | mixed (h : e.element.localName = "mixed") : Stands t e inside (.mixed inside)
  | ref {name : String} (h : e.element.localName = "ref" ∨ e.element.localName = "parentRef")
      (hname : attributeValue? e "name" = some name) (hinside : inside = []) :
      Stands t e inside (.ref (trimmed name))

lemma Stands.members_eq (h : t.Stands e ps p) : p.members = ps := by
  cases h with
  | empty _ hinside | text _ hinside | notAllowed _ hinside | data _ hinside | value _ hinside
  | ref _ _ hinside => rw [hinside]; rfl
  | _ => rfl

/-- The elements behind the name of an element or an attribute are its patterns. -/
lemma rest_of_readPatternName {own ns : String} {nameless : SchemaError} {name : NameClass}
    {rest : List ElementNode} (h : t.readPatternName e own ns nameless = .ok (name, rest))
    (hlocal : e.element.localName = "element" ∨ e.element.localName = "attribute") :
    rest = t.patternChildren e := by
  have hchildren : t.patternChildren e =
      if (attributeValue? e "name").isSome then t.schemaChildren e
      else (t.schemaChildren e).tail := by
    rcases hlocal with hlocal | hlocal <;> simp only [patternChildren, hlocal]
  rw [hchildren]
  unfold readPatternName at h
  cases hname : attributeValue? e "name" with
  | some written =>
      rw [hname] at h
      obtain ⟨c, -, h⟩ := ok_of_bind h
      cases h
      rfl
  | none =>
      rw [hname] at h
      dsimp only at h
      cases hall : t.schemaChildren e with
      | nil =>
          rw [hall] at h
          cases h
      | cons first more =>
          rw [hall] at h
          obtain ⟨c, -, h⟩ := ok_of_bind h
          cases h
          rfl

lemma attributeValue_of_required {name value : String} (h : requiredAttribute e name = .ok value) :
    ∃ written, attributeValue? e name = some written ∧ trimmed written = value := by
  rw [requiredAttribute] at h
  split at h
  · rename_i written hwritten
    exact ⟨written, hwritten, Except.ok.inj h⟩
  · cases h

/-- What is read stands for the element, by the name of which it is read. -/
lemma stands_of_readPattern (h : t.readPattern (depth + 1) e (t.schemaNs e) = .ok p) :
    ∃ ps, (t.patternChildren e).mapM
        (fun c => t.readPattern depth c (inheritedNs c (t.schemaNs e))) = .ok ps ∧
      t.Stands e ps p := by
  have hall {ps : List SourcePattern} (hchildren : t.patternChildren e = t.schemaChildren e)
      (hps : (t.schemaChildren e).mapM
        (fun c => t.readPattern depth c (inheritedNs c (t.schemaNs e))) = .ok ps) :
      (t.patternChildren e).mapM
        (fun c => t.readPattern depth c (inheritedNs c (t.schemaNs e))) = .ok ps := by
    rw [hchildren]
    exact hps
  have hnone (hchildren : t.patternChildren e = []) :
      (t.patternChildren e).mapM
        (fun c => t.readPattern depth c (inheritedNs c (t.schemaNs e))) = .ok [] := by
    rw [hchildren]
    rfl
  rw [readPattern] at h
  dsimp only at h
  split_ifs at h
  -- one case for each name that an element can be read by, and those that are no patterns
  split at h
  case h_1 hlocal =>
    obtain ⟨⟨name, rest⟩, hname, h⟩ := ok_of_bind h
    obtain ⟨ps, hps, h⟩ := ok_of_bind h
    cases h
    rw [rest_of_readPatternName hname (.inl hlocal)] at hps
    exact ⟨ps, hps, .element hlocal hname⟩
  case h_2 hlocal =>
    obtain ⟨⟨name, rest⟩, hname, h⟩ := ok_of_bind h
    obtain ⟨ps, hps, h⟩ := ok_of_bind h
    cases h
    rw [rest_of_readPatternName hname (.inr hlocal)] at hps
    exact ⟨ps, hps, .attr hlocal hname⟩
  case h_3 hlocal =>
    cases h
    exact ⟨[], hnone (by simp only [patternChildren, hlocal]), .empty hlocal rfl⟩
  case h_4 hlocal =>
    cases h
    exact ⟨[], hnone (by simp only [patternChildren, hlocal]), .text hlocal rfl⟩
  case h_5 hlocal =>
    cases h
    exact ⟨[], hnone (by simp only [patternChildren, hlocal]), .notAllowed hlocal rfl⟩
  case h_6 hlocal =>
    cases h
    exact ⟨[], hnone (by simp only [patternChildren, hlocal]), .data hlocal rfl⟩
  case h_7 hlocal =>
    cases h
    exact ⟨[], hnone (by simp only [patternChildren, hlocal]), .value hlocal rfl⟩
  case h_8 hlocal =>
    obtain ⟨ps, hps, rfl⟩ := ok_of_map h
    exact ⟨ps, hall (by simp [patternChildren, hlocal]) hps, .list hlocal⟩
  case h_9 hlocal =>
    obtain ⟨ps, hps, rfl⟩ := ok_of_map h
    exact ⟨ps, hall (by simp [patternChildren, hlocal]) hps, .group hlocal⟩
  case h_10 hlocal =>
    obtain ⟨ps, hps, rfl⟩ := ok_of_map h
    exact ⟨ps, hall (by simp [patternChildren, hlocal]) hps, .interleave hlocal⟩
  case h_11 hlocal =>
    obtain ⟨ps, hps, rfl⟩ := ok_of_map h
    exact ⟨ps, hall (by simp [patternChildren, hlocal]) hps, .choice hlocal⟩
  case h_12 hlocal =>
    obtain ⟨ps, hps, rfl⟩ := ok_of_map h
    exact ⟨ps, hall (by simp [patternChildren, hlocal]) hps, .optional hlocal⟩
  case h_13 hlocal =>
    obtain ⟨ps, hps, rfl⟩ := ok_of_map h
    exact ⟨ps, hall (by simp [patternChildren, hlocal]) hps, .zeroOrMore hlocal⟩
  case h_14 hlocal =>
    obtain ⟨ps, hps, rfl⟩ := ok_of_map h
    exact ⟨ps, hall (by simp [patternChildren, hlocal]) hps, .oneOrMore hlocal⟩
  case h_15 hlocal =>
    obtain ⟨ps, hps, rfl⟩ := ok_of_map h
    exact ⟨ps, hall (by simp [patternChildren, hlocal]) hps, .mixed hlocal⟩
  case h_16 hlocal =>
    obtain ⟨name, hname, rfl⟩ := ok_of_map h
    obtain ⟨written, hwritten, rfl⟩ := attributeValue_of_required hname
    exact ⟨[], hnone (by simp only [patternChildren, hlocal]),
      .ref (.inl hlocal) hwritten rfl⟩
  case h_17 hlocal =>
    obtain ⟨name, hname, rfl⟩ := ok_of_map h
    obtain ⟨written, hwritten, rfl⟩ := attributeValue_of_required hname
    exact ⟨[], hnone (by simp only [patternChildren, hlocal]),
      .ref (.inr hlocal) hwritten rfl⟩
  case h_18 | h_19 | h_20 => cases h

/-- **What is read stands for the element**, and what is read of the patterns inside for these. -/
theorem readPattern_cases (ht : t.Nests) (he : t.element? e.id = some e)
    (h : t.readPattern depth e (t.schemaNs e) = .ok p) :
    ∃ below ps, depth = below + 1 ∧
      List.Forall₂ (fun c q => c ∈ t.schemaChildren e ∧
        t.readPattern below c (t.schemaNs c) = .ok q)
        (t.patternChildren e) ps ∧
      t.Stands e ps p := by
  cases depth with
  | zero => cases h
  | succ below =>
      obtain ⟨ps, hps, hstands⟩ := stands_of_readPattern h
      refine ⟨below, ps, rfl, (forall₂_of_mapM hps).imp fun c q ⟨hc, hq⟩ => ?_, hstands⟩
      have hmem := mem_schemaChildren_of_mem_patternChildren hc
      exact ⟨hmem, by rw [ht.schemaNs_child he hmem, hq]⟩

/-! ## Starts and definitions -/

/-- What a start or a definition says something of: the start, or the name that is defined. -/
def partTarget (e : ElementNode) : Option String :=
  if e.element.localName = "define" then (attributeValue? e "name").map trimmed else none

/-- How a start or a definition is combined with others. -/
def partCombine (e : ElementNode) : Option Combine :=
  match (attributeValue? e "combine").map trimmed with
  | some "choice" => some .choice
  | some "interleave" => some .interleave
  | _ => none

/-- The starts and definitions in an element, also in divisions of it that are nested at most
`depth` deep. -/
def partElements (t : Tree) : (depth : Nat) → ElementNode → List ElementNode
  | 0, _ => []
  | depth + 1, e => (t.schemaChildren e).flatMap fun c =>
    match c.element.localName with
    | "start" | "define" => [c]
    | "div" => t.partElements depth c
    | _ => []

/-- Whether a start or a definition is read as a part. -/
structure ReadsPart (t : Tree) (e : ElementNode) (part : SourcePart) : Prop where
  present : t.element? e.id = some e
  target : part.target = partTarget e
  combine : part.combine = partCombine e
  body : List.Forall₂ (fun c p => c ∈ t.schemaChildren e ∧
    t.readPattern t.nodes.size c (t.schemaNs c) = .ok p) (t.schemaChildren e) part.body

lemma partCombine_of_readCombine {combine : Option Combine} (h : readCombine e = .ok combine) :
    combine = partCombine e := by
  unfold readCombine at h
  unfold partCombine
  split at h
  · rename_i hnone
    cases h
    rw [hnone]
  · rename_i hchoice
    cases h
    simp [hchoice]
  · rename_i hinterleave
    cases h
    simp [hinterleave]
  · cases h

lemma forall₂_of_readBody (ht : t.Nests) (he : t.element? e.id = some e)
    (h : t.readBody e (t.schemaNs e) = .ok ps) :
    List.Forall₂ (fun c p => c ∈ t.schemaChildren e ∧
      t.readPattern t.nodes.size c (t.schemaNs c) = .ok p) (t.schemaChildren e) ps :=
  (forall₂_of_mapM h).imp fun _ _ ⟨hc, hp⟩ => ⟨hc, by rw [ht.schemaNs_child he hc, hp]⟩

/-- The parts of a grammar are its starts and definitions, in the order in which they are
written. -/
lemma forall₂_of_readParts (ht : t.Nests) {parts : List SourcePart} :
    ∀ {depth : Nat} {e : ElementNode}, t.element? e.id = some e →
      t.readParts depth e (t.schemaNs e) = .ok parts →
      List.Forall₂ t.ReadsPart (t.partElements depth e) parts := by
  intro depth
  induction depth generalizing parts with
  | zero =>
      intro e _ h
      cases h
  | succ depth ih =>
      intro e he h
      rw [readParts] at h
      obtain ⟨partss, hall, h⟩ := ok_of_bind h
      cases h
      rw [partElements, List.flatMap_def]
      refine List.rel_flatten (List.forall₂_map_left_iff.mpr ?_)
      refine (forall₂_of_mapM hall).imp fun c cparts ⟨hc, hread⟩ => ?_
      have hcelement := element?_of_mem_childElements (List.mem_of_mem_filter hc)
      rw [← ht.schemaNs_child he hc] at hread
      dsimp only at hread ⊢
      split at hread
      case h_1 hlocal =>
        obtain ⟨body, hbody, hread⟩ := ok_of_bind hread
        obtain ⟨combine, hcombine, hread⟩ := ok_of_bind hread
        cases hread
        rw [hlocal]
        exact .cons ⟨hcelement, by simp [SourcePart.target, partTarget, hlocal],
          partCombine_of_readCombine hcombine, forall₂_of_readBody ht hcelement hbody⟩ .nil
      case h_2 hlocal =>
        obtain ⟨name, hname, hread⟩ := ok_of_bind hread
        obtain ⟨body, hbody, hread⟩ := ok_of_bind hread
        obtain ⟨combine, hcombine, hread⟩ := ok_of_bind hread
        cases hread
        rw [hlocal]
        refine .cons ⟨hcelement, ?_, partCombine_of_readCombine hcombine,
          forall₂_of_readBody ht hcelement hbody⟩ .nil
        obtain ⟨written, hwritten, rfl⟩ := attributeValue_of_required hname
        simp [SourcePart.target, partTarget, hlocal, hwritten]
      case h_3 hlocal =>
        rw [hlocal]
        exact ih hcelement hread
      case h_4 hlocal =>
        cases hread
        rw [hlocal]
        exact .nil
      case h_5 => cases hread

/-! ## Schema documents -/

/-- Whether an element is a grammar. -/
def isGrammar (e : ElementNode) : Bool :=
  isSchemaElement e && e.element.localName = "grammar"

/-- The starts and definitions of a schema document. -/
def schemaParts (t : Tree) : List ElementNode :=
  match t.root?.filter isGrammar with
  | some root => t.partElements t.nodes.size root
  | none => []

/-- The document element of a schema document that is one pattern. -/
def solePattern? (t : Tree) : Option ElementNode :=
  t.root?.filter (!isGrammar ·)

/-- What a schema document is read as. -/
inductive ReadsSchema (t : Tree) : SourceSchema → Prop
  | grammar {parts : List SourcePart} (hsole : t.solePattern? = none)
      (hparts : List.Forall₂ t.ReadsPart t.schemaParts parts) : ReadsSchema t (.grammar parts)
  | pattern {root : ElementNode} {p : SourcePattern} (hsole : t.solePattern? = some root)
      (hroot : t.element? root.id = some root) (hparts : t.schemaParts = [])
      (hread : t.readPattern t.nodes.size root (t.schemaNs root) = .ok p) :
        ReadsSchema t (.pattern p)

theorem readsSchema (hs : t.Shaped) (ht : t.Nests) {source : SourceSchema}
    (h : t.readSchema = .ok source) : t.ReadsSchema source := by
  rw [readSchema] at h
  split at h
  · cases h
  · cases hroot : t.root? with
    | none =>
        rw [hroot] at h
        cases h
    | some root =>
        rw [hroot] at h
        dsimp only at h
        rw [← schemaNs_root hs hroot] at h
        have helement := element?_root hroot
        have hgrammar : (isSchemaElement root && decide (root.element.localName = "grammar"))
            = isGrammar root := rfl
        rw [hgrammar] at h
        split_ifs at h with hkind
        · obtain ⟨parts, hparts, h⟩ := ok_of_bind h
          cases h
          refine .grammar (by simp [solePattern?, hroot, hkind]) ?_
          rw [schemaParts, hroot, Option.filter_some, if_pos hkind]
          exact forall₂_of_readParts ht helement hparts
        · obtain ⟨p, hp, h⟩ := ok_of_bind h
          cases h
          refine .pattern ?_ helement ?_ hp
          · simp [solePattern?, hroot, hkind]
          · rw [schemaParts, hroot, Option.filter_some, if_neg hkind]

end Tree

end XmlAdvisor
