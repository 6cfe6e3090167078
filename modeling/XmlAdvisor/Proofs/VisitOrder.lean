import XmlAdvisor.Proofs.TreeLanguage
import XmlAdvisor.Proofs.TreeNesting

/-!
# The elements that are validated, again

Validation hands each child the declaration that is found inside its parent's; a request about one
element looks its declaration up along the path from the document element.  Both are the same, so
what was reported on an element can be worked out again from the element alone.

No element is validated twice: the elements come in the order of the text, each before what is
inside it, and next to it only what begins behind its end.

* `Tree.pathFromRoot_child` — the path to a child goes on from that of its parent.
* **`Grammar.declarationOf?_of_mem_visits`** — the declaration in a visit is that of its element.
* **`Grammar.visits_ordered`** — visits are in the order of the text.
-/

namespace XmlAdvisor

namespace Tree

variable {t : Tree} {e c : ElementNode}

/-! ## Children and their parents -/

namespace Nests

variable (ht : t.Nests)
include ht

/-- The parent of a child element. -/
lemma parent_of_mem_childElements (he : t.element? e.id = some e) (hc : c ∈ t.childElements e) :
    ∃ n, t.nodes[c.id]? = some n ∧ n.parent = some e.id ∧ n.span = c.span ∧ n.element?.isSome := by
  obtain ⟨m, hm, hel, -⟩ := (element?_eq_some he).2
  obtain ⟨id, hid, hcid⟩ := List.mem_filterMap.mp hc
  obtain ⟨heq, n, hn, hnel, -, hspan⟩ := element?_eq_some hcid
  rw [heq]
  have hchildren : id ∈ m.children := by
    rw [Node.children_eq, hel]
    exact hid
  obtain ⟨n', hn', hp⟩ := ht.children e.id m hm id hchildren
  rw [hn, Option.some.injEq] at hn'
  exact ⟨n, hn, hn' ▸ hp, hspan, by rw [hnel]; rfl⟩

/-- A child element lies inside its parent, behind the start of it. -/
lemma span_child (he : t.element? e.id = some e) (hc : c ∈ t.childElements e) :
    e.span.start < c.span.start ∧ c.span.stop ≤ e.span.stop := by
  obtain ⟨n, hn, hp, hspan, -⟩ := ht.parent_of_mem_childElements he hc
  obtain ⟨-, m, hm, -, hstart, hwithin⟩ := ht.inside c.id n e.id hn hp
  obtain ⟨m', hm', -, -, hmspan⟩ := (element?_eq_some he).2
  rw [hm, Option.some.injEq] at hm'
  rw [← hspan, ← hmspan, ← hm']
  exact ⟨hstart, hwithin.resolve_left (by simp)⟩

/-- Child elements begin behind the ends of those before them. -/
lemma childElements_apart (hs : t.Shaped) (he : t.element? e.id = some e) :
    (t.childElements e).Pairwise fun a b => a.span.stop ≤ b.span.start := by
  obtain ⟨m, hm, hel, -⟩ := (element?_eq_some he).2
  have hascending := (hs.placed _ _ hm).ascending _ hel
  have hmem : ∀ {x : ElementNode}, ∀ id ∈ e.element.children, t.element? id = some x →
      x ∈ t.childElements e := fun id hid hx => List.mem_filterMap.mpr ⟨id, hid, hx⟩
  refine List.Pairwise.filterMap _ ?_ (List.Pairwise.and_mem.mp hascending)
  rintro i j ⟨hi, hj, hij⟩ a ha b hb
  obtain ⟨n, hn, hp, hspan, hnel⟩ := ht.parent_of_mem_childElements he (hmem i hi ha)
  obtain ⟨n', hn', hp', hspan', -⟩ := ht.parent_of_mem_childElements he (hmem j hj hb)
  rw [← hspan, ← hspan']
  refine ht.apart a.id b.id n n' hn hn' ?_ (hp'.trans hp.symm) (.inl hnel)
  rw [(element?_eq_some ha).1, (element?_eq_some hb).1]
  exact hij

/-! ## Paths -/

/-- The way outwards ends where no parent is left, however many steps may be taken. -/
lemma outwards_eq {id steps : Nat} (h : id < steps) :
    t.outwards steps id = t.outwards (id + 1) id := by
  induction id using Nat.strongRecOn generalizing steps with
  | ind id ih =>
      cases steps with
      | zero => cases h
      | succ steps =>
          rw [outwards, outwards]
          cases hp : t.nodes[id]?.bind Node.parent with
          | none => rfl
          | some p =>
              obtain ⟨n, hn, hparent⟩ := Option.bind_eq_some_iff.mp hp
              have hlt := (ht.inside id n p hn hparent).1
              dsimp only
              rw [ih p hlt (Nat.lt_of_lt_of_le hlt (Nat.le_of_lt_succ h)), ih p hlt hlt]

/-- The path to a child goes on from that of its parent. -/
lemma pathFromRoot_child (he : t.element? e.id = some e) (hc : c ∈ t.childElements e) :
    t.pathFromRoot c = t.pathFromRoot e ++ [c] := by
  obtain ⟨n, hn, hp, -⟩ := ht.parent_of_mem_childElements he hc
  have hlt := (ht.inside c.id n e.id hn hp).1
  have hparent : t.nodes[c.id]?.bind Node.parent = some e.id := by rw [hn]; exact hp
  have houtwards : t.outwards (c.id + 1) c.id = c.id :: t.outwards (e.id + 1) e.id := by
    rw [outwards, hparent]
    dsimp only
    rw [ht.outwards_eq hlt]
  rw [pathFromRoot, elementsOutwards, houtwards,
    List.filterMap_cons_some (element?_of_mem_childElements hc), List.reverse_cons]
  rfl

end Nests

lemma pathFromRoot_ne_nil (he : t.element? e.id = some e) : t.pathFromRoot e ≠ [] := by
  rw [pathFromRoot, elementsOutwards, outwards, List.filterMap_cons_some he]
  simp

end Tree

namespace Grammar

variable {g : Grammar} {t : Tree} {e c : ElementNode}

/-! ## Declarations in visits -/

/-- What a path that goes on leads to stands inside what the path led to. -/
lemma declarationAlong?_append {path : List ElementNode} (hne : path ≠ []) (c : ElementNode) :
    g.declarationAlong? (path ++ [c]) = (g.declarationAlong? path).bind (·.child? c) := by
  cases path with
  | nil => exact absurd rfl hne
  | cons root rest =>
      simp only [declarationAlong?, List.cons_append, List.foldlM_append]
      cases g.topLevel.find? (·.describes root) with
      | none => rfl
      | some top =>
          simp [List.foldlM_cons, List.foldlM_nil]

/-- A child that is validated has the declaration that the grammar finds for it. -/
lemma declarationOf?_child (ht : t.Nests) (he : t.element? e.id = some e)
    (hc : c ∈ t.childElements e) {parent decl : Declaration}
    (hparent : g.declarationOf? t e = some parent)
    (hchild : g.childDeclaration? t parent c = some decl) : g.declarationOf? t c = some decl := by
  rw [childDeclaration?] at hchild
  cases hinside : parent.child? c with
  | none =>
      rw [hinside] at hchild
      exact hchild
  | some d =>
      rw [hinside] at hchild
      cases hchild
      cases g with
      | relaxNg uri s =>
          rw [declarationOf?] at hparent ⊢
          rw [ht.pathFromRoot_child he hc,
            declarationAlong?_append (Tree.pathFromRoot_ne_nil he), hparent]
          exact hinside
      | dtd uri dtd root =>
          obtain ⟨element, -, rfl⟩ := Option.map_eq_some_iff.mp hparent
          rw [Declaration.child?] at hinside
          split_ifs at hinside
          exact hinside

lemma declarationOf?_of_mem_visitsFrom (ht : t.Nests) (levels : Nat) (v : Visit)
    (he : t.element? v.element.id = some v.element)
    (hdecl : g.declarationOf? t v.element = some v.declaration) :
    ∀ w ∈ g.visitsFrom t levels v, g.declarationOf? t w.element = some w.declaration := by
  induction levels generalizing v with
  | zero =>
      intro w hw
      cases hw
  | succ levels ih =>
      intro w hw
      rcases List.mem_cons.mp hw with rfl | hw
      · exact hdecl
      · obtain ⟨u, hu, hwu⟩ := List.mem_flatMap.mp hw
        obtain ⟨c, hc, hcu⟩ := List.mem_filterMap.mp hu
        obtain ⟨decl, hchild, rfl⟩ := Option.map_eq_some_iff.mp hcu
        exact ih ⟨c, decl⟩ (Tree.element?_of_mem_childElements hc)
          (declarationOf?_child ht he hc hdecl hchild) w hwu

/-- **The declaration in a visit is the one that the grammar finds for its element.** -/
theorem declarationOf?_of_mem_visits (ht : t.Nests) {root : ElementNode} {decl : Declaration}
    (hroot : t.root? = some root) (hdecl : g.declarationOf? t root = some decl) {v : Visit}
    (hv : v ∈ g.visits t root decl) : g.declarationOf? t v.element = some v.declaration :=
  declarationOf?_of_mem_visitsFrom ht _ ⟨root, decl⟩ (Tree.element?_root hroot) hdecl v hv

/-! ## The order of visits -/

/-- What is validated from an element down lies inside the element. -/
lemma span_of_mem_visitsFrom (ht : t.Nests) (levels : Nat) (v : Visit)
    (he : t.element? v.element.id = some v.element) :
    ∀ w ∈ g.visitsFrom t levels v, v.element.span.start ≤ w.element.span.start ∧
      w.element.span.start < v.element.span.stop := by
  induction levels generalizing v with
  | zero =>
      intro w hw
      cases hw
  | succ levels ih =>
      intro w hw
      rcases List.mem_cons.mp hw with rfl | hw
      · obtain ⟨n, hn, hel, -, hspan⟩ := (Tree.element?_eq_some he).2
        rw [← hspan]
        exact ⟨Nat.le_refl _, (ht.settled _ n hn).filled _ hel⟩
      · obtain ⟨u, hu, hwu⟩ := List.mem_flatMap.mp hw
        obtain ⟨c, hc, hcu⟩ := List.mem_filterMap.mp hu
        obtain ⟨decl, -, rfl⟩ := Option.map_eq_some_iff.mp hcu
        obtain ⟨hstart, hstop⟩ := ht.span_child he hc
        obtain ⟨hafter, hbefore⟩ := ih ⟨c, decl⟩ (Tree.element?_of_mem_childElements hc) w hwu
        exact ⟨Nat.le_trans (Nat.le_of_lt hstart) hafter, Nat.lt_of_lt_of_le hbefore hstop⟩

lemma visitsFrom_ordered (ht : t.Nests) (hs : t.Shaped) (levels : Nat) (v : Visit)
    (he : t.element? v.element.id = some v.element) :
    (g.visitsFrom t levels v).Pairwise fun a b => a.element.span.start < b.element.span.start := by
  induction levels generalizing v with
  | zero => exact .nil
  | succ levels ih =>
      have hchild : ∀ u ∈ g.childVisits t v, u.element ∈ t.childElements v.element := by
        intro u hu
        obtain ⟨c, hc, hcu⟩ := List.mem_filterMap.mp hu
        obtain ⟨decl, -, rfl⟩ := Option.map_eq_some_iff.mp hcu
        exact hc
      have hchildren : (g.childVisits t v).Pairwise fun a b =>
          a.element.span.stop ≤ b.element.span.start := by
        refine List.Pairwise.filterMap _ ?_ (ht.childElements_apart hs he)
        intro a b hab x hx y hy
        obtain ⟨_, -, rfl⟩ := Option.map_eq_some_iff.mp hx
        obtain ⟨_, -, rfl⟩ := Option.map_eq_some_iff.mp hy
        exact hab
      rw [visitsFrom, List.pairwise_cons, List.pairwise_flatMap]
      refine ⟨fun w hw => ?_, fun u hu => ?_, ?_⟩
      · obtain ⟨u, hu, hwu⟩ := List.mem_flatMap.mp hw
        have hc := hchild u hu
        have hinside := span_of_mem_visitsFrom ht levels u (Tree.element?_of_mem_childElements hc) w
          hwu
        exact Nat.lt_of_lt_of_le (ht.span_child he hc).1 hinside.1
      · exact ih u (Tree.element?_of_mem_childElements (hchild u hu))
      · refine (List.Pairwise.and_mem.mp hchildren).imp ?_
        rintro a b ⟨ha, hb, hab⟩ x hx y hy
        have hxa := span_of_mem_visitsFrom ht levels a
          (Tree.element?_of_mem_childElements (hchild a ha)) x hx
        have hyb := span_of_mem_visitsFrom ht levels b
          (Tree.element?_of_mem_childElements (hchild b hb)) y hy
        omega

/-- **The elements that are validated come in the order of the text**, so none of them comes
twice. -/
theorem visits_ordered (ht : t.Nests) (hs : t.Shaped) {root : ElementNode}
    (hroot : t.root? = some root) (decl : Declaration) :
    (g.visits t root decl).Pairwise fun a b => a.element.span.start < b.element.span.start :=
  visitsFrom_ordered ht hs _ ⟨root, decl⟩ (Tree.element?_root hroot)

end Grammar

end XmlAdvisor
