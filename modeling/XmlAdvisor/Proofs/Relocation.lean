import XmlAdvisor.Advice.Action
import XmlAdvisor.Proofs.Positions
import XmlAdvisor.Proofs.Reporting
import XmlAdvisor.Proofs.TreeNesting

/-!
# Finding an element again

A diagnostic about an element begins where the element does, and one character further the element
is found again: the descent along that offset passes its ancestors, one level at a time, and ends at
the element, since all that is inside it begins later.

* `Tree.find?_siblings` — of siblings, only one element can have an offset.
* `Tree.Reaches` — what is left of a descent at some node on the way to its goal.
* **`Tree.elementAt?_start`** — behind the first character of an element there is that element.
-/

namespace XmlAdvisor

namespace Tree

variable {t : Tree} {e : ElementNode} {i j : Nat} {n m : Node}

/-! ## Siblings -/

/-- The numbers of the nodes with the same parent as a node, itself among them. -/
def siblings (t : Tree) (n : Node) : List Nat :=
  match n.parent with
  | some p => (t.nodes[p]?.map Node.children).getD []
  | none => t.topLevel

lemma holdsOffset_iff {offset : Nat} (hn : t.nodes[i]? = some n) :
    t.holdsOffset offset i ↔ n.span.start < offset ∧ offset ≤ n.span.stop := by
  simp [holdsOffset, hn]

namespace Nests

variable (ht : t.Nests)
include ht

lemma mem_siblings (hn : t.nodes[i]? = some n) : i ∈ t.siblings n := by
  rw [siblings]
  split
  · rename_i p hp
    obtain ⟨-, m, hm, hi, -⟩ := ht.inside i n p hn hp
    rw [hm]
    exact hi
  · rename_i hp
    exact ht.outside i n hn hp

lemma parent_of_mem_siblings (hj : j ∈ t.siblings n) :
    ∃ m, t.nodes[j]? = some m ∧ m.parent = n.parent := by
  rw [siblings] at hj
  split at hj
  · rename_i p hp
    cases hm : t.nodes[p]? with
    | none =>
        rw [hm] at hj
        cases hj
    | some m =>
        rw [hm] at hj
        rw [hp]
        exact ht.children p m hm j hj
  · rename_i hp
    rw [hp]
    exact ht.top j hj

/-- Of siblings, only one element can have an offset. -/
lemma find?_siblings {offset : Nat} (hn : t.nodes[i]? = some n) (hel : n.element?.isSome)
    (hstart : n.span.start < offset) (hstop : offset ≤ n.span.stop) :
    (t.siblings n).find? (t.holdsOffset offset) = some i := by
  have hi : t.holdsOffset offset i := (holdsOffset_iff hn).mpr ⟨hstart, hstop⟩
  have honly : ∀ j ∈ t.siblings n, t.holdsOffset offset j → j = i := by
    intro j hj hholds
    obtain ⟨m, hm, hp⟩ := ht.parent_of_mem_siblings hj
    obtain ⟨hmstart, hmstop⟩ := (holdsOffset_iff hm).mp hholds
    rcases Nat.lt_trichotomy j i with hlt | heq | hgt
    · have hapart := ht.apart j i m n hm hn hlt hp.symm (.inr hel)
      omega
    · exact heq
    · have hapart := ht.apart i j n m hn hm hgt hp (.inl hel)
      omega
  cases hfind : (t.siblings n).find? (t.holdsOffset offset) with
  | none => exact absurd hi (List.find?_eq_none.mp hfind i (ht.mem_siblings hn))
  | some j =>
      have hj := honly j (List.mem_of_find?_eq_some hfind) (List.find?_some hfind)
      rw [hj]

end Nests

/-! ## Descending -/

/-- Whether the descent along an offset leads to a goal from among the siblings of a node, which is
an element around the offset. -/
structure Reaches (t : Tree) (offset goal : Nat) (i : Nat) (n : Node) : Prop where
  element : n.element?.isSome
  before : n.span.start < offset
  behind : offset ≤ n.span.stop
  leads : ∀ depth, t.nodes.size ≤ depth + i →
    t.descend offset depth (t.siblings n) = some goal

namespace Nests

variable (ht : t.Nests)
include ht

/-- From an element with the offset, the descent goes on among its children. -/
lemma descend_siblings {offset : Nat} (hn : t.nodes[i]? = some n) (hel : n.element?.isSome)
    (hstart : n.span.start < offset) (hstop : offset ≤ n.span.stop) (depth : Nat) :
    t.descend offset (depth + 1) (t.siblings n) =
      some ((t.descend offset depth n.children).getD i) := by
  have hchildren : (t.nodes[i]?.map Node.children).getD [] = n.children := by
    rw [hn]
    rfl
  rw [descend, ht.find?_siblings hn hel hstart hstop]
  dsimp only
  rw [hchildren]

/-- The descent ends at an element with the offset if none of its children has it. -/
lemma reaches_of_childless {offset : Nat} (hn : t.nodes[i]? = some n) (hel : n.element?.isSome)
    (hstart : n.span.start < offset) (hstop : offset ≤ n.span.stop)
    (hnone : n.children.find? (t.holdsOffset offset) = none) : t.Reaches offset i i n := by
  refine ⟨hel, hstart, hstop, fun depth hdepth => ?_⟩
  have hi := (Array.getElem?_eq_some_iff.mp hn).1
  obtain ⟨depth, rfl⟩ : ∃ k, depth = k + 1 := ⟨depth - 1, by omega⟩
  rw [ht.descend_siblings hn hel hstart hstop]
  cases depth with
  | zero => rfl
  | succ depth =>
      rw [descend, hnone]
      rfl

/-- The descent ends at an element behind whose first character the offset lies. -/
lemma reaches_self (hn : t.nodes[i]? = some n) (hel : n.element?.isSome) :
    t.Reaches (n.span.start + 1) i i n := by
  obtain ⟨e, he⟩ := Option.isSome_iff_exists.mp hel
  have hfilled := (ht.settled i n hn).filled e he
  refine ht.reaches_of_childless hn hel (Nat.lt_succ_self _) hfilled ?_
  refine List.find?_eq_none.mpr fun c hc hholds => ?_
  obtain ⟨m, hm, hp⟩ := ht.children i n hn c hc
  obtain ⟨-, n', hn', -, hstart, -⟩ := ht.inside c m i hm hp
  rw [hn, Option.some.injEq] at hn'
  obtain ⟨hmstart, -⟩ := (holdsOffset_iff hm).mp hholds
  rw [hn'] at hmstart
  omega

/-- The descent passes the parent of a node on its way. -/
lemma reaches_parent {offset goal : Nat} (hn : t.nodes[i]? = some n)
    (h : t.Reaches offset goal i n) {p : Nat} (hp : n.parent = some p) :
    ∃ m, t.nodes[p]? = some m ∧ t.Reaches offset goal p m := by
  obtain ⟨hlt, m, hm, hi, hstart, hwithin⟩ := ht.inside i n p hn hp
  have hstop : n.span.stop ≤ m.span.stop := hwithin.resolve_left (by simp)
  have hel : m.element?.isSome := by
    rw [Option.isSome_iff_ne_none]
    intro hnone
    rw [Node.children_eq, hnone] at hi
    cases hi
  have hbefore := Nat.lt_trans hstart h.before
  have hbehind := Nat.le_trans h.behind hstop
  refine ⟨m, hm, hel, hbefore, hbehind, fun depth hdepth => ?_⟩
  have hsize := (Array.getElem?_eq_some_iff.mp hn).1
  obtain ⟨depth, rfl⟩ : ∃ k, depth = k + 1 := ⟨depth - 1, by omega⟩
  have hchildren : t.siblings n = m.children := by
    rw [siblings, hp]
    dsimp only
    rw [hm]
    rfl
  rw [ht.descend_siblings hm hel hbefore hbehind, ← hchildren, h.leads depth (by omega)]
  rfl

/-- From the top level the descent reaches its goal. -/
lemma nodeAt?_eq_some {offset goal : Nat} (hn : t.nodes[i]? = some n)
    (h : t.Reaches offset goal i n) : t.nodeAt? offset = some goal := by
  induction i using Nat.strongRecOn generalizing n with
  | ind i ih =>
      -- the goal stays while the induction goes outwards, to a parent with a smaller number
      cases hp : n.parent with
      | none =>
          have hleads := h.leads t.nodes.size (Nat.le_add_right _ _)
          rwa [siblings, hp] at hleads
      | some p =>
          obtain ⟨m, hm, hreaches⟩ := ht.reaches_parent hn h hp
          exact ih p (ht.inside i n p hn hp).1 hm hreaches

/-- **Behind the first character of an element there is that element.** -/
theorem elementAt?_start (he : t.element? e.id = some e) :
    t.elementAt? (e.span.start + 1) = some e := by
  obtain ⟨n, hn, hel, -, hspan⟩ := (element?_eq_some he).2
  have hreaches := ht.reaches_self hn (by rw [hel]; rfl)
  rw [hspan] at hreaches
  rw [elementAt?, ht.nodeAt?_eq_some hn hreaches]
  exact he

end Nests

end Tree

/-! ## Diagnostics -/

namespace Document

variable {d : Document} {e : ElementNode}

/-- The element of a diagnostic that begins where an element does is that element. -/
lemma elementOf_eq_some (hd : d.toTree.Nests) (he : d.element? e.id = some e)
    {diagnostic : Diagnostic} (h : d.positionAt e.span.start = .ok diagnostic.range.start) :
    d.elementOf diagnostic = .ok (some e) := by
  rw [elementOf, offsetAt_positionAt h]
  exact congrArg Except.ok (hd.elementAt?_start he)

/-- **An element is found again from a diagnostic that begins at it**: whatever the text and the
unit of columns, the start of an element has a position, and each diagnostic whose range begins
there leads back to the element. -/
theorem elementOf_startPosition (url : Url) (version : Int) (unit : ColumnUnit) (text : List Char)
    (e : ElementNode) (he : e ∈ (Document.parse url version unit text).elements) :
    ∃ p, (Document.parse url version unit text).positionAt e.span.start = .ok p ∧
      ∀ diagnostic : Diagnostic, diagnostic.range.start = p →
        (Document.parse url version unit text).elementOf diagnostic = .ok (some e) := by
  have hshaped : (Document.parse url version unit text).toTree.Shaped := Tree.parse_shaped text
  have hnests : (Document.parse url version unit text).toTree.Nests := Tree.parse_nests text
  have helement := Tree.mem_elements.mp he
  have hstart : e.span.start ≤ (Document.parse url version unit text).text.length := by
    have hname := hshaped.nameSpan_stop_le helement
    simp only [ElementNode.nameSpan] at hname
    exact Nat.le_trans (by omega) hname
  obtain ⟨p, hp⟩ := exists_positionAt _ hstart
  refine ⟨p, hp, ?_⟩
  rintro diagnostic rfl
  exact elementOf_eq_some hnests helement hp

/-- A text with line breaks of both kinds, in which a tag breaks off and nothing is closed. -/
def brokenText : List Char :=
  "<a>\r\n<b>é</x>\n <c y='<".toList

/-- The element whose tag breaks off in `brokenText`. -/
def brokenElement : ElementNode :=
  ⟨5, some 2, ⟨15, 22⟩, ⟨⟨none, "c"⟩, none, [], [], none, none, false⟩⟩

theorem elementOf_startPosition_broken :
    brokenElement ∈ (Document.parse default 1 .utf8 brokenText).elements ∧
    ∃ p, (Document.parse default 1 .utf8 brokenText).positionAt 15 = .ok p ∧
      ∀ diagnostic : Diagnostic, diagnostic.range.start = p →
        (Document.parse default 1 .utf8 brokenText).elementOf diagnostic
          = .ok (some brokenElement) := by
  have he : brokenElement ∈ (Document.parse default 1 .utf8 brokenText).elements := by
    decide +kernel
  exact ⟨he, elementOf_startPosition default 1 .utf8 brokenText brokenElement he⟩

end Document

end XmlAdvisor
