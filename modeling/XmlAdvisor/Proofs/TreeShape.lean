import XmlAdvisor.Document
import XmlAdvisor.Proofs.Scanning
import Mathlib.Data.List.Basic

/-!
# The shape of a tree

What holds of the tree of every text, whatever faults the text has.  The builder keeps it with every
token that it takes.

* `Node.WellPlaced` — what holds of each node: the name of an element lies inside the text, and its
  children are numbered upwards, after the element and inside the tree.
* `Builder.Sound` — what holds of a builder: its nodes are well placed, the elements that are open
  are among them, and what stands at the top has no parent.
* **`Tree.parse_shaped`** — the same of a tree.

Most of what a builder does to a node changes neither where the node stands nor what stands in it
(`Node.outline`), so one lemma about such changes serves them all.
-/

namespace XmlAdvisor

/-! ## Nodes -/

/-- What places a node: its parent, its start, and the name and the children of an element. -/
def Node.outline (n : Node) : Option Nat × Nat × Option (QualifiedName × List Nat) :=
  (n.parent, n.span.start, n.element?.map fun e => (e.name, e.children))

/-- Whether a node is well placed under a number, in a text of some length and among so many
nodes. -/
structure Node.WellPlaced (length size id : Nat) (n : Node) : Prop where
  name_fits : ∀ e, n.element? = some e → n.span.start + 1 + e.name.text.length ≤ length
  ascending : ∀ e, n.element? = some e → e.children.Pairwise (· < ·)
  after : ∀ e, n.element? = some e → ∀ c ∈ e.children, id < c ∧ c < size

namespace Node

variable {length size id : Nat} {n m : Node}

/-- A node that is no element is well placed. -/
lemma wellPlaced_of_none (h : n.element? = none) : n.WellPlaced length size id := by
  constructor <;> intro e he <;> rw [h] at he <;> cases he

lemma WellPlaced.of_outline (h : n.WellPlaced length size id) (hm : m.outline = n.outline) :
    m.WellPlaced length size id := by
  simp only [outline, Prod.mk.injEq] at hm
  obtain ⟨-, hstart, helement⟩ := hm
  have key : ∀ e, m.element? = some e →
      ∃ e', n.element? = some e' ∧ e'.name = e.name ∧ e'.children = e.children := by
    intro e he
    rw [he, Option.map_some, eq_comm, Option.map_eq_some_iff] at helement
    obtain ⟨e', he', heq⟩ := helement
    obtain ⟨hname, hchildren⟩ := Prod.mk.inj heq
    exact ⟨e', he', hname, hchildren⟩
  constructor
  · intro e he
    obtain ⟨e', he', hname, -⟩ := key e he
    rw [hstart, ← hname]
    exact h.name_fits e' he'
  · intro e he
    obtain ⟨e', he', -, hchildren⟩ := key e he
    rw [← hchildren]
    exact h.ascending e' he'
  · intro e he
    obtain ⟨e', he', -, hchildren⟩ := key e he
    rw [← hchildren]
    exact h.after e' he'

/-- A node stays well placed when more nodes come. -/
lemma WellPlaced.mono {size' : Nat} (h : n.WellPlaced length size id) (hsize : size ≤ size') :
    n.WellPlaced length size' id where
  name_fits := h.name_fits
  ascending := h.ascending
  after e he c hc := by
    obtain ⟨hlt, hc⟩ := h.after e he c hc
    exact ⟨hlt, Nat.lt_of_lt_of_le hc hsize⟩

/-- Changes an element and leaves other nodes as they are. -/
def changeElement (f : Element → Element) (n : Node) : Node :=
  match n.kind with
  | .element e => { n with kind := .element (f e) }
  | _ => n

lemma outline_changeElement {f : Element → Element}
    (hf : ∀ e, (f e).name = e.name ∧ (f e).children = e.children) :
    (n.changeElement f).outline = n.outline := by
  rw [changeElement]
  split
  · rename_i e hkind
    simp [outline, element?, hkind, hf e]
  · rfl

/-- A child that is numbered by the number of nodes so far comes last. -/
lemma WellPlaced.addChild (h : n.WellPlaced length size id) (hid : id < size) :
    (n.changeElement fun e => { e with children := e.children ++ [size] }).WellPlaced length
      (size + 1) id := by
  rw [changeElement]
  split
  · rename_i e hkind
    have he : n.element? = some e := by simp [element?, hkind]
    constructor
    · rintro _ ⟨⟩
      exact h.name_fits e he
    · rintro _ ⟨⟩
      rw [List.pairwise_append]
      refine ⟨h.ascending e he, List.pairwise_singleton _ _, fun a ha b hb => ?_⟩
      rw [List.mem_singleton.mp hb]
      exact (h.after e he a ha).2
    · rintro _ ⟨⟩ c hc
      rcases List.mem_append.mp hc with hc | hc
      · obtain ⟨hlt, hc⟩ := h.after e he c hc
        exact ⟨hlt, Nat.lt_succ_of_lt hc⟩
      · rw [List.mem_singleton.mp hc]
        exact ⟨hid, Nat.lt_succ_self _⟩
  · exact h.mono (Nat.le_succ _)

end Node

/-! ## The builder -/

namespace Builder

/-- What holds of a builder after any tokens of a text with the given length. -/
structure Sound (length : Nat) (b : Builder) : Prop where
  placed : ∀ (i : Nat) (n : Node), b.nodes[i]? = some n → n.WellPlaced length b.nodes.size i
  opened : ∀ o ∈ b.opened, o.id < b.nodes.size
  pending : ∀ o ∈ b.pending, o.id < b.nodes.size
  top : ∀ i ∈ b.topLevel, ∀ n : Node, b.nodes[i]? = some n → n.parent = none
  top_lt : ∀ i ∈ b.topLevel, i < b.nodes.size

variable {length : Nat} {b : Builder}

lemma sound_empty (length : Nat) : empty.Sound length := by
  constructor <;> simp [empty]

lemma onElement_eq (b : Builder) (id : Nat) (f : Element → Element) :
    b.onElement id f = b.onNode id (Node.changeElement f) := rfl

/-- A change that leaves the outlines as they are. -/
lemma Sound.onNode (h : b.Sound length) (id : Nat) {f : Node → Node}
    (hf : ∀ n, (f n).outline = n.outline) : (b.onNode id f).Sound length := by
  have key : ∀ (i : Nat) (n : Node), (b.onNode id f).nodes[i]? = some n →
      ∃ m : Node, b.nodes[i]? = some m ∧ n.outline = m.outline := by
    intro i n hn
    simp only [Builder.onNode, Array.getElem?_modify] at hn
    split_ifs at hn
    · obtain ⟨m, hm, rfl⟩ := Option.map_eq_some_iff.mp hn
      exact ⟨m, hm, hf m⟩
    · exact ⟨n, hn, rfl⟩
  have hsize : (b.onNode id f).nodes.size = b.nodes.size := Array.size_modify
  constructor
  · intro i n hn
    obtain ⟨m, hm, heq⟩ := key i n hn
    rw [hsize]
    exact (h.placed i m hm).of_outline heq
  · rw [hsize]; exact h.opened
  · rw [hsize]; exact h.pending
  · intro i hi n hn
    obtain ⟨m, hm, heq⟩ := key i n hn
    exact (congrArg Prod.fst heq).trans (h.top i hi m hm)
  · rw [hsize]; exact h.top_lt

lemma Sound.onElement (h : b.Sound length) (id : Nat) {f : Element → Element}
    (hf : ∀ e, (f e).name = e.name ∧ (f e).children = e.children) :
    (b.onElement id f).Sound length := by
  rw [onElement_eq]
  exact h.onNode id fun n => Node.outline_changeElement hf

lemma Sound.endAt (h : b.Sound length) (id stop : Nat) : (b.endAt id stop).Sound length :=
  h.onNode id fun _ => rfl

lemma Sound.resolve (h : b.Sound length) (id : Nat) : (b.resolve id).Sound length :=
  h.onElement id fun _ => ⟨rfl, rfl⟩

lemma Sound.endAll (h : b.Sound length) (unclosed : List OpenElement) (stop : Nat) :
    (b.endAll unclosed stop).Sound length := by
  induction unclosed generalizing b with
  | nil => exact h
  | cons o unclosed ih => exact ih (h.endAt o.id stop)

lemma opened_endAll (b : Builder) (unclosed : List OpenElement) (stop : Nat) :
    (b.endAll unclosed stop).opened = b.opened := by
  induction unclosed generalizing b with
  | nil => rfl
  | cons o unclosed ih => exact ih (b.endAt o.id stop)

@[simp] lemma size_push (b : Builder) (kind : NodeKind) (span : Span) :
    (b.push kind span).nodes.size = b.nodes.size + 1 := by
  rw [push]
  cases b.opened with
  | nil => simp
  | cons o outside => simp [Builder.onElement, Builder.onNode]

@[simp] lemma opened_push (b : Builder) (kind : NodeKind) (span : Span) :
    (b.push kind span).opened = b.opened := by
  rw [push]
  cases h : b.opened with
  | nil => rfl
  | cons o outside => rfl

@[simp] lemma pending_push (b : Builder) (kind : NodeKind) (span : Span) :
    (b.push kind span).pending = b.pending := by
  rw [push]
  cases b.opened <;> rfl

/-- The nodes after a new one: those before, of which one may have got a child, and the new one. -/
lemma getElem?_push {kind : NodeKind} {span : Span} {i : Nat} {n : Node}
    (h : (b.push kind span).nodes[i]? = some n) (ho : ∀ o ∈ b.opened, o.id < b.nodes.size) :
    (∃ m, b.nodes[i]? = some m ∧ (n = m ∨ n = m.changeElement fun e =>
      { e with children := e.children ++ [b.nodes.size] })) ∨
    (i = b.nodes.size ∧ n = ⟨b.opened.head?.map (·.id), span, kind⟩) := by
  rw [push] at h
  cases hopened : b.opened with
  | nil =>
      simp only [hopened, Array.getElem?_push] at h
      split_ifs at h with hi
      · cases h
        exact .inr ⟨hi, rfl⟩
      · exact .inl ⟨n, h, .inl rfl⟩
  | cons o outside =>
      have hlt : o.id < b.nodes.size := ho o (by simp [hopened])
      simp only [hopened, onElement_eq, Builder.onNode, Array.getElem?_modify,
        Array.getElem?_push] at h
      split_ifs at h with hid hi hi
      · omega
      · obtain ⟨m, hm, rfl⟩ := Option.map_eq_some_iff.mp h
        exact .inl ⟨m, hm, .inr rfl⟩
      · cases h
        exact .inr ⟨hi, rfl⟩
      · exact .inl ⟨n, h, .inl rfl⟩

lemma mem_topLevel_push {kind : NodeKind} {span : Span} {i : Nat}
    (h : i ∈ (b.push kind span).topLevel) :
    i ∈ b.topLevel ∨ (i = b.nodes.size ∧ b.opened = []) := by
  rw [push] at h
  cases hopened : b.opened with
  | nil => simpa [hopened] using h
  | cons o outside =>
      rw [hopened] at h
      exact .inl h

lemma changeElement_parent (f : Element → Element) (n : Node) :
    (n.changeElement f).parent = n.parent := by
  rw [Node.changeElement]
  split <;> rfl

/-- A new node keeps the builder sound if it is well placed itself. -/
lemma Sound.push (h : b.Sound length) (kind : NodeKind) (span : Span)
    (hnew : ∀ parent,
      (Node.mk parent span kind).WellPlaced length (b.nodes.size + 1) b.nodes.size) :
    (b.push kind span).Sound length where
  placed i n hn := by
    rw [size_push]
    rcases getElem?_push hn h.opened with ⟨m, hm, rfl | rfl⟩ | ⟨rfl, rfl⟩
    · exact (h.placed i n hm).mono (Nat.le_succ _)
    · have hi : i < b.nodes.size := (Array.getElem?_eq_some_iff.mp hm).1
      exact (h.placed i m hm).addChild hi
    · exact hnew _
  opened o ho := by
    rw [opened_push] at ho
    rw [size_push]
    exact Nat.lt_succ_of_lt (h.opened o ho)
  pending o ho := by
    rw [pending_push] at ho
    rw [size_push]
    exact Nat.lt_succ_of_lt (h.pending o ho)
  top i hi n hn := by
    rcases mem_topLevel_push hi with hi | ⟨rfl, hnone⟩
    · rcases getElem?_push hn h.opened with ⟨m, hm, rfl | rfl⟩ | ⟨rfl, rfl⟩
      · exact h.top i hi n hm
      · exact (changeElement_parent _ m).trans (h.top i hi m hm)
      · exact absurd (h.top_lt _ hi) (Nat.lt_irrefl _)
    · rcases getElem?_push hn h.opened with ⟨m, hm, -⟩ | ⟨-, rfl⟩
      · exact absurd (Array.getElem?_eq_some_iff.mp hm).1 (Nat.lt_irrefl _)
      · simp [hnone]
  top_lt i hi := by
    rw [size_push]
    rcases mem_topLevel_push hi with hi | ⟨rfl, -⟩
    · exact Nat.lt_succ_of_lt (h.top_lt i hi)
    · exact Nat.lt_succ_self _

lemma Sound.pushOther (h : b.Sound length) (kind : NodeKind) (span : Span)
    (hkind : ∀ parent, (Node.mk parent span kind).element? = none) :
    (b.push kind span).Sound length :=
  h.push kind span fun parent => Node.wellPlaced_of_none (hkind parent)

/-! ## Tokens -/

lemma Sound.openTag (h : b.Sound length) {name : QualifiedName} {span : Span}
    (hfits : span.start + 1 + name.text.length ≤ length) : (b.openTag name span).Sound length := by
  have hpush := h.push (.element ⟨name, none, [], [], none, none, false⟩) span
    fun parent => ⟨by rintro _ ⟨⟩; exact hfits, by rintro _ ⟨⟩; exact .nil, by rintro _ ⟨⟩ c ⟨⟩⟩
  exact ⟨hpush.placed, hpush.opened, by rintro _ ⟨⟩; simp [Builder.openTag], hpush.top,
    hpush.top_lt⟩

lemma Sound.addAttribute (h : b.Sound length) (name : QualifiedName) (value : String)
    (nameSpan valueSpan span : Span) :
    (b.addAttribute name value nameSpan valueSpan span).Sound length := by
  rw [Builder.addAttribute]
  split
  · exact h
  · rename_i p _
    have hscope : Sound length { b with scope := (bindingOf name value).toList ++ b.scope } :=
      ⟨h.placed, h.opened, h.pending, h.top, h.top_lt⟩
    have hnode := hscope.onNode p.id
      (f := fun n => { n with span.stop := max n.span.stop span.stop }) fun _ => rfl
    exact hnode.onElement p.id
      (f := fun e => { e with
        attributes := putAttribute ⟨name.text, value, nameSpan, valueSpan⟩ e.attributes })
      fun _ => ⟨rfl, rfl⟩

lemma Sound.closeTag (h : b.Sound length) (span : Span) : (b.closeTag span).Sound length := by
  rw [Builder.closeTag]
  cases hp : b.pending with
  | none => exact h
  | some p =>
      have hend := ((h.resolve p.id).endAt p.id span.stop).onElement p.id
        (f := fun e => { e with startTagClose := some span.start }) fun _ => ⟨rfl, rfl⟩
      refine ⟨hend.placed, ?_, by rintro _ ⟨⟩, hend.top, hend.top_lt⟩
      intro o ho
      rcases List.mem_cons.mp ho with rfl | ho
      · exact hend.pending o hp
      · exact hend.opened o ho

lemma Sound.selfCloseTag (h : b.Sound length) (span : Span) :
    (b.selfCloseTag span).Sound length := by
  rw [Builder.selfCloseTag]
  cases b.pending with
  | none => exact h
  | some p =>
      have hend := ((h.resolve p.id).endAt p.id span.stop).onElement p.id
        (f := fun e => { e with startTagClose := some (span.stop - 1), selfClosed := true })
        fun _ => ⟨rfl, rfl⟩
      exact ⟨hend.placed, hend.opened, by rintro _ ⟨⟩, hend.top, hend.top_lt⟩

lemma Sound.endTag (h : b.Sound length) (name : QualifiedName) (span : Span) :
    (b.endTag name span).Sound length := by
  rw [Builder.endTag]
  cases hd : b.opened.dropWhile (·.tag != name.text) with
  | nil => exact h
  | cons closed outside =>
      have hunclosed := h.endAll (b.opened.takeWhile (·.tag != name.text)) span.start
      have hend := (hunclosed.endAt closed.id span.stop).onElement closed.id
        (f := fun e => { e with endTagOpen := some span.start }) fun _ => ⟨rfl, rfl⟩
      refine ⟨hend.placed, ?_, hend.pending, hend.top, hend.top_lt⟩
      intro o ho
      refine hend.opened o ?_
      show o ∈ (b.endAll (b.opened.takeWhile (·.tag != name.text)) span.start).opened
      rw [opened_endAll]
      exact (List.dropWhile_suffix _).mem (hd ▸ List.mem_cons_of_mem closed ho)

lemma Sound.addDoctype (h : b.Sound length) (name : String) (external : Option ExternalId)
    (subset : Bool) (span : Span) : (b.addDoctype name external subset span).Sound length := by
  have hpush := h.pushOther
    (.doctype ⟨name, external.bind (·.publicId), external.map (·.systemId), none⟩) span fun _ => rfl
  rw [Builder.addDoctype]
  dsimp only
  split_ifs <;> exact ⟨hpush.placed, hpush.opened, hpush.pending, hpush.top, hpush.top_lt⟩

lemma Sound.endSubset (h : b.Sound length) (text : List Char) (span : Span) :
    (b.endSubset text span).Sound length := by
  rw [Builder.endSubset]
  split
  · exact h
  · rename_i id _
    have hsubset : Sound length { b with subsetStart := none } :=
      ⟨h.placed, h.opened, h.pending, h.top, h.top_lt⟩
    apply (hsubset.endAt id span.stop).onNode id
    intro n
    split
    · rename_i hkind
      simp [Node.outline, Node.element?, hkind]
    · rfl

/-- One token inside the text keeps the builder sound. -/
lemma Sound.step {text : List Char} (h : b.Sound text.length) {token : Token}
    (hin : token.Inside text) : (b.step text token).Sound text.length := by
  cases token with
  | doctype name external subset span => exact h.addDoctype name external subset span
  | subsetEnd span => exact h.endSubset text span
  | comment content span => exact h.pushOther _ span fun _ => rfl
  | instruction target data span => exact h.pushOther _ span fun _ => rfl
  | cdata content span => exact h.pushOther _ span fun _ => rfl
  | text content span => exact h.pushOther _ span fun _ => rfl
  | tagOpen name span => exact h.openTag hin
  | «attribute» name value nameSpan valueSpan span =>
      exact h.addAttribute name value nameSpan valueSpan span
  | tagClose span => exact h.closeTag span
  | tagSelfClose span => exact h.selfCloseTag span
  | endTag name span => exact h.endTag name span

lemma Sound.foldl_step {text : List Char} (h : b.Sound text.length) (tokens : List Token)
    (hin : ∀ t ∈ tokens, t.Inside text) :
    (tokens.foldl (Builder.step text) b).Sound text.length := by
  induction tokens generalizing b with
  | nil => exact h
  | cons t tokens ih =>
      have hstep := h.step (hin t (List.mem_cons_self ..))
      exact ih hstep fun t' ht' => hin t' (List.mem_cons_of_mem t ht')

lemma Sound.finish (h : b.Sound length) (stop : Nat) : (b.finish stop).Sound length := by
  rw [Builder.finish]
  refine Sound.endAll ?_ _ stop
  cases b.pending with
  | none => exact h
  | some p => exact (h.resolve p.id).endAt p.id stop

end Builder

/-! ## The tree -/

namespace Tree

/-- What holds of a tree whatever its text is. -/
structure Shaped (t : Tree) : Prop where
  placed : ∀ (i : Nat) (n : Node), t.nodes[i]? = some n →
    n.WellPlaced t.text.length t.nodes.size i
  top : ∀ i ∈ t.topLevel, ∀ n : Node, t.nodes[i]? = some n → n.parent = none

/-- **Every text has a well shaped tree.** -/
theorem parse_shaped (text : List Char) : (Tree.parse text).Shaped := by
  have hbuilt := (Builder.sound_empty text.length).foldl_step (scanAll text).1
    (inside_of_mem_scanAll text)
  have hdone := hbuilt.finish text.length
  exact ⟨hdone.placed, hdone.top⟩

variable {t : Tree} {e c : ElementNode}

lemma element?_eq_some {id : Nat} (h : t.element? id = some e) :
    e.id = id ∧ ∃ n, t.nodes[id]? = some n ∧ n.element? = some e.element ∧ n.parent = e.parent ∧
      n.span = e.span := by
  simp only [element?, Option.bind_eq_bind, Option.bind_eq_some_iff, Option.pure_def,
    Option.some.injEq] at h
  obtain ⟨n, hn, element, helement, rfl⟩ := h
  exact ⟨rfl, n, hn, helement, rfl, rfl⟩

lemma element?_id {id : Nat} (h : t.element? id = some e) : t.element? e.id = some e := by
  rw [(element?_eq_some h).1]
  exact h

lemma mem_elements : e ∈ t.elements ↔ t.element? e.id = some e := by
  simp only [elements, ids, List.mem_filterMap, List.mem_range]
  constructor
  · rintro ⟨id, -, h⟩
    exact element?_id h
  · intro h
    obtain ⟨n, hn, -⟩ := (element?_eq_some h).2
    exact ⟨e.id, (Array.getElem?_eq_some_iff.mp hn).1, h⟩

lemma id_lt_size (h : t.element? e.id = some e) : e.id < t.nodes.size := by
  obtain ⟨n, hn, -⟩ := (element?_eq_some h).2
  exact (Array.getElem?_eq_some_iff.mp hn).1

lemma element?_of_mem_childElements (h : c ∈ t.childElements e) : t.element? c.id = some c := by
  obtain ⟨id, -, hid⟩ := List.mem_filterMap.mp h
  exact element?_id hid

lemma element?_root {root : ElementNode} (h : t.root? = some root) :
    t.element? root.id = some root := by
  obtain ⟨id, -, hid⟩ := List.exists_of_findSome?_eq_some h
  exact element?_id hid

namespace Shaped

variable (ht : t.Shaped)
include ht

/-- Children are numbered after their parents. -/
lemma id_lt_child (he : t.element? e.id = some e) (hc : c ∈ t.childElements e) : e.id < c.id := by
  obtain ⟨n, hn, hel, -⟩ := (element?_eq_some he).2
  obtain ⟨id, hid, hcid⟩ := List.mem_filterMap.mp hc
  rw [(element?_eq_some hcid).1]
  exact ((ht.placed _ _ hn).after _ hel id hid).1

/-- The child elements have different numbers. -/
lemma nodup_childElements (he : t.element? e.id = some e) :
    ((t.childElements e).map ElementNode.id).Nodup := by
  obtain ⟨n, hn, hel, -⟩ := (element?_eq_some he).2
  have hpair := (ht.placed _ _ hn).ascending _ hel
  have hids : (t.childElements e).Pairwise fun a b => a.id < b.id := by
    refine List.Pairwise.filterMap _ (fun a a' haa b hb b' hb' => ?_) hpair
    rw [(element?_eq_some hb).1, (element?_eq_some hb').1]
    exact haa
  exact (List.pairwise_map.mpr (hids.imp fun h => h)).imp Nat.ne_of_lt

/-- The document element has no parent. -/
lemma root_parent {root : ElementNode} (h : t.root? = some root) : root.parent = none := by
  obtain ⟨id, hid, hroot⟩ := List.exists_of_findSome?_eq_some h
  obtain ⟨n, hn, -, hparent, -⟩ := (element?_eq_some hroot).2
  rw [← hparent]
  exact ht.top id hid n hn

/-- The name in a start tag ends inside the text. -/
lemma nameSpan_stop_le (he : t.element? e.id = some e) : e.nameSpan.stop ≤ t.text.length := by
  obtain ⟨n, hn, hel, -, hspan⟩ := (element?_eq_some he).2
  have h := (ht.placed _ _ hn).name_fits _ hel
  rw [hspan] at h
  exact h

end Shaped

end Tree

end XmlAdvisor
