import XmlAdvisor.Proofs.TreeNesting

/-!
# What is to be seen of elements

Much of what is said about the elements of a tree is about their parents, where they begin and what
they are, but not about where they end.  A view picks such a part.  What a change of a builder does
to a view is said here once; what it does to a part of the elements then follows from what the view
picks.

* `Builder.viewed` — the view of an element.
* `Builder.viewed_onElement`, `Builder.viewed_push` — how a view changes.
* `Tree.viewed_of_element?` — the view of an element of a tree.
-/

namespace XmlAdvisor

/-- A part of an element: of its parent, where it begins, and what it is. -/
abbrev View (α : Type) : Type :=
  Option Nat → Nat → Element → α

/-- The part of a node that is an element. -/
def Node.viewed {α : Type} (ψ : View α) (n : Node) : Option α :=
  n.element?.map (ψ n.parent n.span.start)

variable {α : Type} {ψ : View α}

namespace Node

lemma element?_changeElement (f : Element → Element) (n : Node) :
    (n.changeElement f).element? = n.element?.map f := by
  rw [changeElement]
  split
  · rename_i e hkind
    simp [element?, hkind]
  · rename_i hkind
    rw [element?]
    split
    · rename_i e he
      exact absurd he (hkind e)
    · rfl

lemma viewed_changeElement {f : Element → Element} {g : α → α}
    (hf : ∀ p start e, ψ p start (f e) = g (ψ p start e)) (n : Node) :
    (n.changeElement f).viewed ψ = (n.viewed ψ).map g := by
  rw [viewed, viewed, element?_changeElement, Builder.changeElement_parent,
    Builder.stop_changeElement]
  cases n.element? with
  | none => rfl
  | some e => exact congrArg some (hf n.parent n.span.start e)

end Node

namespace Builder

variable {b : Builder}

/-- What is to be seen of an element. -/
def viewed (ψ : View α) (b : Builder) (i : Nat) : Option α :=
  b.nodes[i]?.bind (Node.viewed ψ)

lemma viewed_of_nodes {b' : Builder} (h : b'.nodes = b.nodes) : b'.viewed ψ = b.viewed ψ := by
  funext i
  rw [viewed, viewed, h]

lemma viewed_onNode_of_keeps (id : Nat) {f : Node → Node}
    (hf : ∀ n, (f n).viewed ψ = n.viewed ψ) : (b.onNode id f).viewed ψ = b.viewed ψ := by
  funext i
  rw [viewed, viewed, getElem?_onNode]
  cases b.nodes[i]? with
  | none => rfl
  | some n =>
      show (if id = i then f n else n).viewed ψ = n.viewed ψ
      split_ifs
      · exact hf n
      · rfl

/-- Where a node ends is not to be seen. -/
lemma viewed_stop (id : Nat) (stop : Node → Nat) :
    (b.onNode id fun n => { n with span.stop := stop n }).viewed ψ = b.viewed ψ :=
  viewed_onNode_of_keeps id fun _ => rfl

lemma viewed_endAt (id stop : Nat) : (b.endAt id stop).viewed ψ = b.viewed ψ :=
  viewed_stop id fun _ => stop

lemma viewed_endAll (unclosed : List OpenElement) (stop : Nat) :
    (b.endAll unclosed stop).viewed ψ = b.viewed ψ := by
  induction unclosed generalizing b with
  | nil => rfl
  | cons o unclosed ih => exact (ih (b := b.endAt o.id stop)).trans (viewed_endAt o.id stop)

lemma viewed_onElement (id : Nat) {f : Element → Element} {g : α → α}
    (hf : ∀ p start e, ψ p start (f e) = g (ψ p start e)) (i : Nat) :
    (b.onElement id f).viewed ψ i = if id = i then (b.viewed ψ i).map g else b.viewed ψ i := by
  rw [onElement_eq, viewed, viewed, getElem?_onNode]
  cases b.nodes[i]? with
  | none => simp
  | some n =>
      show (if id = i then n.changeElement f else n).viewed ψ =
        if id = i then (n.viewed ψ).map g else n.viewed ψ
      split_ifs
      · exact Node.viewed_changeElement hf n
      · rfl

lemma viewed_onElement_of_keeps (id : Nat) {f : Element → Element}
    (hf : ∀ p start e, ψ p start (f e) = ψ p start e) :
    (b.onElement id f).viewed ψ = b.viewed ψ := by
  funext i
  rw [viewed_onElement id (g := fun a => a) hf]
  split_ifs
  · exact Option.map_id'
  · rfl

/-- A new node is seen as what it is, and the others as before, if their children are not to be
seen. -/
lemma viewed_push (hψ : ∀ p start e cs, ψ p start { e with children := cs } = ψ p start e)
    (kind : NodeKind) (span : Span) (hopen : ∀ id ∈ b.openIds, id < b.nodes.size) (i : Nat) :
    (b.push kind span).viewed ψ i =
      if i = b.nodes.size then (Node.mk b.openIds.head? span kind).viewed ψ else b.viewed ψ i := by
  rw [viewed, viewed, nodes_push b kind span hopen]
  split_ifs
  · rfl
  · cases b.nodes[i]? with
    | none => rfl
    | some n =>
        show (b.adopt i n).viewed ψ = n.viewed ψ
        rw [adopt]
        split_ifs
        · rw [Node.viewed_changeElement (g := fun a => a) fun p start e => hψ p start e _]
          exact Option.map_id'
        · rfl

lemma viewed_size (b : Builder) : b.viewed ψ b.nodes.size = none := by
  rw [viewed, Array.getElem?_size]
  rfl

/-- A new node that is no element is not to be seen. -/
lemma viewed_pushOther (hψ : ∀ p start e cs, ψ p start { e with children := cs } = ψ p start e)
    {kind : NodeKind} {span : Span} (hopen : ∀ id ∈ b.openIds, id < b.nodes.size)
    (hkind : ∀ parent, (Node.mk parent span kind).element? = none) :
    (b.push kind span).viewed ψ = b.viewed ψ := by
  funext i
  rw [viewed_push hψ kind span hopen, Node.viewed, hkind]
  split_ifs with hi
  · rw [hi, viewed_size]
    rfl
  · rfl

/-! ### Tokens -/

lemma viewed_endSubset (b : Builder) (text : List Char) (span : Span) :
    (b.endSubset text span).viewed ψ = b.viewed ψ := by
  rw [Builder.endSubset]
  split
  · rfl
  · rename_i id _
    generalize b.subsetStart.map (fun start => Span.slice ⟨start, span.start⟩ text) = subset
    have hrecord : ∀ n, (recordSubset subset n).viewed ψ = n.viewed ψ := by
      intro n
      rw [recordSubset]
      split
      · rename_i hkind
        simp [Node.viewed, Node.element?, hkind]
      · rfl
    exact (viewed_onNode_of_keeps id hrecord).trans (viewed_endAt id span.stop)

lemma viewed_addAttribute {p : OpenElement} (hp : b.pending = some p) {g : α → α}
    (name : QualifiedName) (value : String) (nameSpan valueSpan span : Span)
    (hg : ∀ parent start e, ψ parent start { e with
      attributes := putAttribute ⟨name.text, value, nameSpan, valueSpan⟩ e.attributes } =
        g (ψ parent start e)) (i : Nat) :
    (b.addAttribute name value nameSpan valueSpan span).viewed ψ i =
      if p.id = i then (b.viewed ψ i).map g else b.viewed ψ i := by
  rw [Builder.addAttribute, hp]
  dsimp only
  rw [viewed_onElement p.id hg, viewed_stop]
  rfl

lemma viewed_endTag (hψ : ∀ parent start e stop,
    ψ parent start { e with endTagOpen := some stop } = ψ parent start e)
    (b : Builder) (name : QualifiedName) (span : Span) :
    (b.endTag name span).viewed ψ = b.viewed ψ := by
  rw [Builder.endTag]
  split
  · rfl
  · rename_i closed _ _
    have hnodes : ((b.endAll (b.opened.takeWhile (·.tag != name.text)) span.start).endAt closed.id
        span.stop).viewed ψ = b.viewed ψ := (viewed_endAt _ _).trans (viewed_endAll _ _)
    rw [← hnodes]
    exact (viewed_of_nodes rfl).trans
      (viewed_onElement_of_keeps closed.id fun parent start e => hψ parent start e _)

end Builder

namespace Tree

/-- What is to be seen of an element of a tree. -/
def viewed (ψ : View α) (t : Tree) (i : Nat) : Option α :=
  t.nodes[i]?.bind (Node.viewed ψ)

lemma viewed_eq (t : Tree) (i : Nat) :
    t.viewed ψ i = (t.element? i).map fun e => ψ e.parent e.span.start e.element := by
  rw [viewed, element?]
  cases t.nodes[i]? with
  | none => rfl
  | some n =>
      show n.element?.map (ψ n.parent n.span.start) = _
      cases hn : n.element? <;> simp [hn]

lemma viewed_of_element? {t : Tree} {i : Nat} {e : ElementNode} (h : t.element? i = some e) :
    t.viewed ψ i = some (ψ e.parent e.span.start e.element) := by
  rw [viewed_eq, h]
  rfl

end Tree

end XmlAdvisor
