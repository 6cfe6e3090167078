import XmlAdvisor.Proofs.NamespaceScopes
import XmlAdvisor.Proofs.Relocation
import XmlAdvisor.Proofs.VisitOrder
import Mathlib.Logic.Relation

/-!
# The innermost element around an offset

The descent along an offset takes the first child that has it, and from what it ends at the way
leads outwards to an element.  That this is the innermost element around the offset rests on two
facts: of siblings, at most one element has the offset, and whatever has the offset is inside
elements that have it, too.

* `ElementNode.Holds` — whether an offset belongs to an element; `Tree.IsAncestor` — whether an
  element is around another one.
* `Tree.Nests.exists_enclosing` — inwards: from an element with the offset the descent leads to one
  that is no further out.
* `Tree.Nests.holds_of_enclosing` — outwards: the element that is found has the offset.
* **`Tree.enclosingElement?_eq_some_iff`** — which element is found, and when there is none.
-/

namespace XmlAdvisor

/-- Whether an offset lies behind the start of an element and not behind its end. -/
def ElementNode.Holds (e : ElementNode) (offset : Nat) : Prop :=
  e.span.start < offset ∧ offset ≤ e.span.stop

namespace Tree

/-- Whether an element is around another one, as its parent or further out. -/
def IsAncestor (t : Tree) (a e : ElementNode) : Prop :=
  Relation.TransGen (fun c p => t.parentElement? c = some p) e a

variable {t : Tree} {a c e : ElementNode} {i j offset : Nat} {n m : Node}

/-! ## Inwards -/

lemma descend_nil (depth : Nat) : t.descend offset depth [] = none := by
  cases depth <;> rfl

namespace Nests

variable (ht : t.Nests)
include ht

/-- The descent ends at a child with the offset that is no element. -/
lemma reaches_leaf (hn : t.nodes[i]? = some n) (hel : n.element?.isSome)
    (hstart : n.span.start < offset) (hstop : offset ≤ n.span.stop)
    (hfind : n.children.find? (t.holdsOffset offset) = some j) (hm : t.nodes[j]? = some m)
    (hleaf : m.element? = none) : t.Reaches offset j i n := by
  refine ⟨hel, hstart, hstop, fun depth hdepth => ?_⟩
  have hj := (Array.getElem?_eq_some_iff.mp hm).1
  obtain ⟨m', hm', hparent⟩ := ht.children i n hn j (List.mem_of_find?_eq_some hfind)
  have hlt := (ht.inside j m' i hm' hparent).1
  obtain ⟨depth, rfl⟩ : ∃ k, depth = k + 1 + 1 := ⟨depth - 2, by omega⟩
  have hchildren : (t.nodes[j]?.map Node.children).getD [] = [] := by
    rw [hm, Option.map_some, Option.getD_some, Node.children_eq, hleaf]
    rfl
  rw [ht.descend_siblings hn hel hstart hstop, descend, hfind]
  dsimp only
  rw [hchildren, descend_nil]
  rfl

/-- The way outwards from a node that is no element goes on from its parent. -/
lemma elementsOutwards_leaf (hm : t.nodes[j]? = some m) (hleaf : m.element? = none)
    (hparent : m.parent = some i) : t.elementsOutwards j = t.elementsOutwards i := by
  have hlt := (ht.inside j m i hm hparent).1
  have hnone : t.element? j = none := by
    simp [element?, hm, hleaf]
  rw [elementsOutwards, outwards, List.filterMap_cons_none hnone, hm, Option.bind_some, hparent]
  dsimp only
  rw [ht.outwards_eq hlt]
  rfl

lemma head?_elementsOutwards (he : t.element? i = some e) :
    (t.elementsOutwards i).head? = some e := by
  rw [ht.elementsOutwards_cons he]
  rfl

/-- From an element with the offset, the descent leads to an element that is no further out. -/
theorem exists_enclosing (he : t.element? e.id = some e) (hholds : e.Holds offset) :
    ∃ found, t.enclosingElement? offset = some found ∧ (e = found ∨ t.IsAncestor e found) := by
  -- inwards along the descent, where the numbers become larger
  induction hk : t.nodes.size - e.id using Nat.strongRecOn generalizing e with
  | ind k ih =>
      obtain ⟨-, n, hn, hel, hnparent, hspan⟩ := element?_eq_some he
      obtain ⟨hstart, hstop⟩ := hholds
      rw [← hspan] at hstart hstop
      have helement : n.element?.isSome := by
        rw [hel]
        rfl
      cases hfind : n.children.find? (t.holdsOffset offset) with
      | none =>
          have hreaches := ht.reaches_of_childless hn helement hstart hstop hfind
          refine ⟨e, ?_, .inl rfl⟩
          rw [enclosingElement?, ht.nodeAt?_eq_some hn hreaches]
          exact ht.head?_elementsOutwards he
      | some j =>
          obtain ⟨m, hm, hparent⟩ := ht.children e.id n hn j (List.mem_of_find?_eq_some hfind)
          have hlt := (ht.inside j m e.id hm hparent).1
          have hj := (Array.getElem?_eq_some_iff.mp hm).1
          cases hleaf : m.element? with
          | none =>
              have hreaches := ht.reaches_leaf hn helement hstart hstop hfind hm hleaf
              refine ⟨e, ?_, .inl rfl⟩
              rw [enclosingElement?, ht.nodeAt?_eq_some hn hreaches, Option.bind_eq_bind,
                Option.bind_some, ht.elementsOutwards_leaf hm hleaf hparent]
              exact ht.head?_elementsOutwards he
          | some x =>
              have hc : t.element? j = some ⟨j, m.parent, m.span, x⟩ := by
                simp [element?, hm, hleaf]
              have hcholds := (holdsOffset_iff hm).mp (List.find?_some hfind)
              obtain ⟨found, hfound, hinner⟩ :=
                ih (t.nodes.size - j) (by omega) (e := ⟨j, m.parent, m.span, x⟩) hc hcholds rfl
              have hstep : t.parentElement? ⟨j, m.parent, m.span, x⟩ = some e := by
                rw [parentElement?, hparent]
                exact he
              refine ⟨found, hfound, .inr ?_⟩
              rcases hinner with rfl | hinner
              · exact .single hstep
              · exact hinner.tail hstep

/-! ## Outwards -/

/-- What an offset belongs to is inside what it belongs to. -/
lemma holdsOffset_outwards (hi : t.holdsOffset offset i) (steps : Nat) :
    ∀ j ∈ t.outwards steps i, t.holdsOffset offset j := by
  induction steps generalizing i with
  | zero =>
      intro j hj
      cases hj
  | succ steps ih =>
      intro j hj
      rcases List.mem_cons.mp hj with rfl | hj
      · exact hi
      · cases hp : t.nodes[i]?.bind Node.parent with
        | none =>
            rw [hp] at hj
            cases hj
        | some p =>
            rw [hp] at hj
            obtain ⟨n, hn, hparent⟩ := Option.bind_eq_some_iff.mp hp
            obtain ⟨-, m, hm, -, hstart, hwithin⟩ := ht.inside i n p hn hparent
            have hstop : n.span.stop ≤ m.span.stop := hwithin.resolve_left (by simp)
            obtain ⟨hbefore, hbehind⟩ := (holdsOffset_iff hn).mp hi
            have hmholds : t.holdsOffset offset p :=
              (holdsOffset_iff hm).mpr ⟨Nat.lt_trans hstart hbefore, Nat.le_trans hbehind hstop⟩
            exact ih hmholds j hj

omit ht in
/-- The descent ends at a node that the offset belongs to. -/
lemma holdsOffset_of_descend {depth : Nat} {candidates : List Nat}
    (h : t.descend offset depth candidates = some i) : t.holdsOffset offset i := by
  induction depth generalizing candidates i with
  | zero => cases h
  | succ depth ih =>
      rw [descend] at h
      cases hfind : candidates.find? (t.holdsOffset offset) with
      | none =>
          rw [hfind] at h
          cases h
      | some j =>
          rw [hfind] at h
          dsimp only at h
          cases hmore : t.descend offset depth ((t.nodes[j]?.map Node.children).getD []) with
          | none =>
              rw [hmore] at h
              cases h
              exact List.find?_some hfind
          | some k =>
              rw [hmore] at h
              cases h
              exact ih hmore

/-- The element that is found is one of the tree and has the offset. -/
theorem holds_of_enclosing (h : t.enclosingElement? offset = some e) :
    t.element? e.id = some e ∧ e.Holds offset := by
  obtain ⟨i, hi, hhead⟩ := Option.bind_eq_some_iff.mp h
  obtain ⟨j, hj, he⟩ := List.mem_filterMap.mp (List.mem_of_mem_head? hhead)
  have hholds := ht.holdsOffset_outwards (holdsOffset_of_descend hi) _ j hj
  obtain ⟨hid, n, hn, -, -, hspan⟩ := element?_eq_some he
  rw [holdsOffset_iff hn, hspan] at hholds
  exact ⟨element?_id he, hholds⟩

/-- The elements with the offset are around the one that is found. -/
lemma around_of_enclosing {x : ElementNode} (h : t.enclosingElement? offset = some e)
    (hx : t.element? x.id = some x) (hholds : x.Holds offset) : x = e ∨ t.IsAncestor x e := by
  obtain ⟨found, hfound, haround⟩ := ht.exists_enclosing hx hholds
  rw [h, Option.some.injEq] at hfound
  rwa [hfound]

/-- The elements around an element come before it. -/
lemma id_lt_of_isAncestor (h : t.IsAncestor a e) (he : t.element? e.id = some e) :
    a.id < e.id := by
  have hstep {c p : ElementNode} (hc : t.element? c.id = some c) (h : t.parentElement? c = some p) :
      p.id < c.id ∧ t.element? p.id = some p := by
    obtain ⟨i, hi, hp⟩ := Option.bind_eq_some_iff.mp h
    obtain ⟨n, hn, -, hparent, -⟩ := (element?_eq_some hc).2
    rw [(element?_eq_some hp).1]
    exact ⟨(ht.inside c.id n i hn (hparent.trans hi)).1, hp⟩
  have hall : a.id < e.id ∧ t.element? a.id = some a := by
    induction h with
    | single h => exact hstep he h
    | tail _ h ih =>
        obtain ⟨hlt, hp⟩ := hstep ih.2 h
        exact ⟨Nat.lt_trans hlt ih.1, hp⟩
  exact hall.1

end Nests

/-- **The innermost element around an offset.**  There is none exactly if the offset belongs to no
element. Otherwise it is the one element that the offset belongs to and that has no element inside
with this property, and all elements with the property are around it. -/
theorem enclosingElement?_eq_some_iff (text : List Char) (offset : Nat) :
    ((Tree.parse text).enclosingElement? offset = none ↔
      ∀ e ∈ (Tree.parse text).elements, ¬ e.Holds offset) ∧
    ∀ e, ((Tree.parse text).enclosingElement? offset = some e ↔
        e ∈ (Tree.parse text).elements ∧ e.Holds offset ∧
          ∀ x ∈ (Tree.parse text).elements, x.Holds offset → ¬ (Tree.parse text).IsAncestor e x) ∧
      ((Tree.parse text).enclosingElement? offset = some e →
        ∀ x ∈ (Tree.parse text).elements, x.Holds offset →
          x = e ∨ (Tree.parse text).IsAncestor x e) := by
  have ht := parse_nests text
  generalize Tree.parse text = t at ht ⊢
  have haround {e : ElementNode} (h : t.enclosingElement? offset = some e) :
      ∀ x ∈ t.elements, x.Holds offset → x = e ∨ t.IsAncestor x e := by
    intro x hx hholds
    obtain ⟨found, hfound, hinner⟩ := ht.exists_enclosing (mem_elements.mp hx) hholds
    rw [h, Option.some.injEq] at hfound
    rwa [hfound]
  refine ⟨⟨fun hnone e he hholds => ?_, fun h => ?_⟩, fun e => ⟨⟨fun h => ?_, ?_⟩, haround⟩⟩
  · obtain ⟨found, hfound, -⟩ := ht.exists_enclosing (mem_elements.mp he) hholds
    rw [hnone] at hfound
    cases hfound
  · cases hfound : t.enclosingElement? offset with
    | none => rfl
    | some e =>
        obtain ⟨he, hholds⟩ := ht.holds_of_enclosing hfound
        exact absurd hholds (h e (mem_elements.mpr he))
  · obtain ⟨he, hholds⟩ := ht.holds_of_enclosing h
    refine ⟨mem_elements.mpr he, hholds, fun x hx hxholds hinside => ?_⟩
    have hlt := ht.id_lt_of_isAncestor hinside (mem_elements.mp hx)
    rcases haround h x hx hxholds with rfl | hancestor
    · omega
    · have hgt := ht.id_lt_of_isAncestor hancestor he
      omega
  · rintro ⟨he, hholds, hinnermost⟩
    obtain ⟨found, hfound, rfl | hinside⟩ := ht.exists_enclosing (mem_elements.mp he) hholds
    · exact hfound
    · obtain ⟨hmem, hfholds⟩ := ht.holds_of_enclosing hfound
      exact absurd hinside (hinnermost found (mem_elements.mpr hmem) hfholds)

/-- In a text in which a tag breaks off and nothing is closed, the element of that tag is found. -/
theorem enclosingElement?_eq_some_iff_broken :
    (Tree.parse Document.brokenText).enclosingElement? 20 = some Document.brokenElement ∧
    (Document.brokenElement ∈ (Tree.parse Document.brokenText).elements ∧
      Document.brokenElement.Holds 20 ∧
      ∀ x ∈ (Tree.parse Document.brokenText).elements, x.Holds 20 →
        ¬ (Tree.parse Document.brokenText).IsAncestor Document.brokenElement x) ∧
    (∀ x ∈ (Tree.parse Document.brokenText).elements, x.Holds 20 → x = Document.brokenElement ∨
      (Tree.parse Document.brokenText).IsAncestor x Document.brokenElement) ∧
    ∀ e ∈ (Tree.parse Document.brokenText).elements, ¬ e.Holds 0 := by
  have hfound : (Tree.parse Document.brokenText).enclosingElement? 20 =
      some Document.brokenElement := by decide +kernel
  obtain ⟨hinnermost, haround⟩ :=
    (enclosingElement?_eq_some_iff Document.brokenText 20).2 Document.brokenElement
  exact ⟨hfound, hinnermost.mp hfound, haround hfound,
    (enclosingElement?_eq_some_iff Document.brokenText 0).1.mp (by decide +kernel)⟩

end Tree

end XmlAdvisor
