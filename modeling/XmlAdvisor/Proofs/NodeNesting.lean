import XmlAdvisor.Proofs.TreeShape

/-!
# Nodes whose spans nest

The span of a node lies inside that of its parent, and an element overlaps none of its siblings.

While nodes are added, the spans of open elements still grow.  The invariant names these elements,
as the spine, and grants them what they need: nothing stands behind them yet, and what is around
them is open too (`Growable`).

* `Node.Settled` — what holds of the place of one node.
* `Nested` — the invariant: nodes with a spine of open elements.  `retouch`, `enter` and `drop` are
  the ways to change them.
* `Builder.NestedWith` — the invariant of the nodes of a builder, kept by each of its changes.
-/

namespace XmlAdvisor

/-! ## Places of nodes -/

/-- What holds of the place of a node in a text that has been read up to an offset. -/
structure Node.Settled (now : Nat) (n : Node) : Prop where
  ordered : n.span.start ≤ n.span.stop
  before : n.span.stop ≤ now
  filled : ∀ e, n.element? = some e → n.span.start < n.span.stop
  closing : ∀ e, n.element? = some e → ∀ o ∈ e.startTagClose, o + 1 ≤ now
  ending : ∀ e, n.element? = some e → ∀ o ∈ e.endTagOpen, o ≤ now
  named : ∀ d, n.kind = .doctype d → d.name ≠ ""

namespace Node

variable {n m : Node} {now now' : Nat}

lemma Settled.mono (h : n.Settled now) (hle : now ≤ now') : n.Settled now' where
  ordered := h.ordered
  before := Nat.le_trans h.before hle
  filled := h.filled
  closing e he o ho := Nat.le_trans (h.closing e he o ho) hle
  ending e he o ho := Nat.le_trans (h.ending e he o ho) hle
  named := h.named

/-- A node that ends later, where the text has been read to. -/
lemma Settled.grow (h : n.Settled now) (hle : now ≤ now') {stop : Nat} (hstop : n.span.stop ≤ stop)
    (hbefore : stop ≤ now') : ({ n with span.stop := stop } : Node).Settled now' where
  ordered := Nat.le_trans h.ordered hstop
  before := hbefore
  filled e he := Nat.lt_of_lt_of_le (h.filled e he) hstop
  closing e he o ho := Nat.le_trans (h.closing e he o ho) hle
  ending e he o ho := Nat.le_trans (h.ending e he o ho) hle
  named := h.named

/-- A change of an element that leaves its tags where they are, or inside what has been read. -/
lemma Settled.changeElement (h : n.Settled now) {f : Element → Element}
    (hclose : ∀ e, ∀ o ∈ (f e).startTagClose, o ∈ e.startTagClose ∨ o + 1 ≤ now)
    (hopen : ∀ e, ∀ o ∈ (f e).endTagOpen, o ∈ e.endTagOpen ∨ o ≤ now) :
    (n.changeElement f).Settled now := by
  rw [Node.changeElement]
  split
  · rename_i e hkind
    have he : n.element? = some e := by simp [element?, hkind]
    refine ⟨h.ordered, h.before, fun _ _ => h.filled e he, ?_, ?_, ?_⟩
    · rintro _ ⟨⟩ o ho
      rcases hclose e o ho with ho | ho
      · exact h.closing e he o ho
      · exact ho
    · rintro _ ⟨⟩ o ho
      rcases hopen e o ho with ho | ho
      · exact h.ending e he o ho
      · exact ho
    · rintro d ⟨⟩
  · exact h

/-! ### Nodes with the same outline -/

lemma parent_of_outline (h : m.outline = n.outline) : m.parent = n.parent :=
  congrArg (·.1) h

lemma start_of_outline (h : m.outline = n.outline) : m.span.start = n.span.start :=
  congrArg (·.2.1) h

lemma element_isSome_of_outline (h : m.outline = n.outline) :
    m.element?.isSome = n.element?.isSome := by
  have helement := congrArg (fun o => o.2.2.isSome) h
  simpa [outline] using helement

lemma children_eq (n : Node) : n.children = (n.element?.map Element.children).getD [] := by
  rw [children, element?]
  split <;> simp_all

lemma children_of_outline (h : m.outline = n.outline) : m.children = n.children := by
  have helement := congrArg (fun o => (o.2.2.map Prod.snd).getD []) h
  simp only [outline, Option.map_map, Function.comp_def] at helement
  rw [children_eq, children_eq]
  exact helement

end Node

/-! ## Nodes with a spine -/

/-- Whether the span of a node may still grow: what is around it is open, and no element stands
behind it, nor anything if it is an element itself. -/
structure Growable (spine : List Nat) (nodes : Array Node) (id : Nat) : Prop where
  around : ∀ n p, nodes[id]? = some n → n.parent = some p → p ∈ spine
  last : ∀ n m j, nodes[id]? = some n → nodes[j]? = some m → id < j → m.parent = n.parent →
    n.element? = none ∧ m.element? = none

/-- Whether the spans of nodes nest, but for the open elements of a spine, in a text that has been
read up to an offset. -/
structure Nested (now : Nat) (spine : List Nat) (nodes : Array Node) (top : List Nat) : Prop where
  settled : ∀ (i : Nat) (n : Node), nodes[i]? = some n → n.Settled now
  inside : ∀ (i : Nat) (n : Node) (p : Nat), nodes[i]? = some n → n.parent = some p →
    p < i ∧ ∃ m, nodes[p]? = some m ∧ i ∈ m.children ∧ m.span.start < n.span.start ∧
      (p ∈ spine ∨ n.span.stop ≤ m.span.stop)
  outside : ∀ (i : Nat) (n : Node), nodes[i]? = some n → n.parent = none → i ∈ top
  children : ∀ (p : Nat) (m : Node), nodes[p]? = some m → ∀ i ∈ m.children,
    ∃ n, nodes[i]? = some n ∧ n.parent = some p
  top : ∀ i ∈ top, ∃ n, nodes[i]? = some n ∧ n.parent = none
  apart : ∀ (i j : Nat) (n m : Node), nodes[i]? = some n → nodes[j]? = some m → i < j →
    m.parent = n.parent → n.element?.isSome ∨ m.element?.isSome → n.span.stop ≤ m.span.start
  opened : ∀ id ∈ spine, (∃ n, nodes[id]? = some n ∧ n.element?.isSome) ∧ Growable spine nodes id
  descending : spine.Pairwise (· > ·)

namespace Nested

variable {now now' : Nat} {spine : List Nat} {nodes : Array Node} {top : List Nat}

lemma mono (h : Nested now spine nodes top) (hle : now ≤ now') : Nested now' spine nodes top :=
  { h with settled := fun i n hn => (h.settled i n hn).mono hle }

/-! ### Nodes that are touched -/

section Retouch

variable {nodes' : Array Node} {g : Nat → Node → Node}
  (hg : ∀ i, nodes'[i]? = nodes[i]?.map (g i)) (hout : ∀ i n, (g i n).outline = n.outline)
include hg

lemma exists_of_retouched {i : Nat} {n' : Node} (hn' : nodes'[i]? = some n') :
    ∃ n, nodes[i]? = some n ∧ n' = g i n := by
  rw [hg, Option.map_eq_some_iff] at hn'
  obtain ⟨n, hn, rfl⟩ := hn'
  exact ⟨n, hn, rfl⟩

lemma getElem?_retouched {i : Nat} {n : Node} (hn : nodes[i]? = some n) :
    nodes'[i]? = some (g i n) := by
  rw [hg, hn]
  rfl

include hout

/-- What may grow does not depend on more than the outlines of nodes. -/
lemma growable_retouched {id : Nat} (h : Growable spine nodes id) : Growable spine nodes' id := by
  have hparent (i : Nat) (n : Node) : (g i n).parent = n.parent := Node.parent_of_outline (hout i n)
  have hnone (i : Nat) (n : Node) : (g i n).element? = none ↔ n.element? = none := by
    rw [← Option.not_isSome_iff_eq_none, ← Option.not_isSome_iff_eq_none,
      Node.element_isSome_of_outline (hout i n)]
  constructor
  case around =>
    intro n' p hn' hp
    obtain ⟨n, hn, rfl⟩ := exists_of_retouched hg hn'
    rw [hparent] at hp
    exact h.around n p hn hp
  case last =>
    intro n' m' j hn' hm' hlt hp
    obtain ⟨n, hn, rfl⟩ := exists_of_retouched hg hn'
    obtain ⟨m, hm, rfl⟩ := exists_of_retouched hg hm'
    rw [hparent, hparent] at hp
    rw [hnone, hnone]
    exact h.last n m j hn hm hlt hp

/-- Nodes of which each keeps its outline nest as before, if only those that may grow end
elsewhere. -/
lemma retouch (h : Nested now spine nodes top)
    (hsettled : ∀ i n, nodes[i]? = some n → (g i n).Settled now')
    (hstop : ∀ i n, nodes[i]? = some n → (g i n).span.stop = n.span.stop ∨
      Growable spine nodes i ∧ (i ∈ spine ∨ n.element? = none)) :
    Nested now' spine nodes' top := by
  have hparent (i : Nat) (n : Node) : (g i n).parent = n.parent := Node.parent_of_outline (hout i n)
  have hstart (i : Nat) (n : Node) : (g i n).span.start = n.span.start :=
    Node.start_of_outline (hout i n)
  have hchildren (i : Nat) (n : Node) : (g i n).children = n.children :=
    Node.children_of_outline (hout i n)
  have helement (i : Nat) (n : Node) : (g i n).element?.isSome = n.element?.isSome :=
    Node.element_isSome_of_outline (hout i n)
  constructor
  case settled =>
    intro i n' hn'
    obtain ⟨n, hn, rfl⟩ := exists_of_retouched hg hn'
    exact hsettled i n hn
  case inside =>
    intro i n' p hn' hp
    obtain ⟨n, hn, rfl⟩ := exists_of_retouched hg hn'
    rw [hparent] at hp
    obtain ⟨hlt, m, hm, hi, hbefore, hwithin⟩ := h.inside i n p hn hp
    refine ⟨hlt, g p m, getElem?_retouched hg hm, by rwa [hchildren], by rwa [hstart, hstart], ?_⟩
    rcases hwithin with hwithin | hwithin
    · exact .inl hwithin
    -- an element that is not open keeps its end, and so do those in it
    have hparentStop : (g p m).span.stop = m.span.stop ∨ p ∈ spine := by
      rcases hstop p m hm with heq | ⟨-, hopen | hother⟩
      · exact .inl heq
      · exact .inr hopen
      · rw [Node.children_eq, hother] at hi
        cases hi
    rcases hparentStop with hparentStop | hopen
    · rcases hstop i n hn with heq | ⟨hgrow, -⟩
      · exact .inr (by rw [heq, hparentStop]; exact hwithin)
      · exact .inl (hgrow.around n p hn hp)
    · exact .inl hopen
  case outside =>
    intro i n' hn' hp
    obtain ⟨n, hn, rfl⟩ := exists_of_retouched hg hn'
    rw [hparent] at hp
    exact h.outside i n hn hp
  case children =>
    intro p m' hm' i hi
    obtain ⟨m, hm, rfl⟩ := exists_of_retouched hg hm'
    rw [hchildren] at hi
    obtain ⟨n, hn, hp⟩ := h.children p m hm i hi
    exact ⟨g i n, getElem?_retouched hg hn, by rwa [hparent]⟩
  case top =>
    intro i hi
    obtain ⟨n, hn, hp⟩ := h.top i hi
    exact ⟨g i n, getElem?_retouched hg hn, by rwa [hparent]⟩
  case apart =>
    intro i j n' m' hn' hm' hij hp hel
    obtain ⟨n, hn, rfl⟩ := exists_of_retouched hg hn'
    obtain ⟨m, hm, rfl⟩ := exists_of_retouched hg hm'
    rw [hparent, hparent] at hp
    rw [helement, helement] at hel
    rw [hstart]
    rcases hstop i n hn with heq | ⟨hgrow, -⟩
    · rw [heq]
      exact h.apart i j n m hn hm hij hp hel
    · obtain ⟨hn', hm'⟩ := hgrow.last n m j hn hm hij hp
      simp [hn', hm'] at hel
  case opened =>
    intro id hid
    obtain ⟨⟨n, hn, hel⟩, hgrow⟩ := h.opened id hid
    exact ⟨⟨g id n, getElem?_retouched hg hn, by rwa [helement]⟩, growable_retouched hg hout hgrow⟩
  case descending => exact h.descending

end Retouch

/-! ### Elements that are closed and opened -/

/-- The innermost open element may be closed when it ends where the text has been read to. -/
lemma drop {id : Nat} (h : Nested now (id :: spine) nodes top)
    (hstop : ∀ m, nodes[id]? = some m → m.span.stop = now) : Nested now spine nodes top := by
  obtain ⟨hbelow, hdescending⟩ := List.pairwise_cons.mp h.descending
  refine { h with inside := ?_, opened := ?_, descending := hdescending }
  · intro i n p hn hp
    obtain ⟨hlt, m, hm, hi, hbefore, hwithin⟩ := h.inside i n p hn hp
    refine ⟨hlt, m, hm, hi, hbefore, ?_⟩
    rcases hwithin with hwithin | hwithin
    · rcases List.mem_cons.mp hwithin with rfl | hwithin
      · rw [hstop m hm]
        exact .inr (h.settled i n hn).before
      · exact .inl hwithin
    · exact .inr hwithin
  · intro id' hid'
    obtain ⟨hnode, hgrow⟩ := h.opened id' (List.mem_cons_of_mem id hid')
    refine ⟨hnode, fun n p hn hp => ?_, hgrow.last⟩
    rcases List.mem_cons.mp (hgrow.around n p hn hp) with rfl | hopen
    · have hlt := (h.inside id' n p hn hp).1
      have hgt := hbelow id' hid'
      omega
    · exact hopen

/-- A growable element behind the innermost open one may be opened. -/
lemma enter (h : Nested now spine nodes top) {id : Nat}
    (hnode : ∃ n, nodes[id]? = some n ∧ n.element?.isSome) (hgrow : Growable spine nodes id)
    (habove : ∀ o ∈ spine, o < id) : Nested now (id :: spine) nodes top := by
  refine { h with inside := ?_, opened := ?_, descending := .cons habove h.descending }
  · intro i n p hn hp
    obtain ⟨hlt, m, hm, hi, hbefore, hwithin⟩ := h.inside i n p hn hp
    exact ⟨hlt, m, hm, hi, hbefore, hwithin.imp_left (List.mem_cons_of_mem id)⟩
  · intro o ho
    have hwiden {o : Nat} (hgrow : Growable spine nodes o) : Growable (id :: spine) nodes o :=
      ⟨fun n p hn hp => List.mem_cons_of_mem id (hgrow.around n p hn hp), hgrow.last⟩
    rcases List.mem_cons.mp ho with rfl | ho
    · exact ⟨hnode, hwiden hgrow⟩
    · exact ⟨(h.opened o ho).1, hwiden (h.opened o ho).2⟩

end Nested

/-! ## Changes of a builder -/

namespace Builder

variable {b : Builder} {now now' : Nat} {ids : List Nat}

/-- Whether the spans of a builder's nodes nest, with the given elements open. -/
abbrev NestedWith (b : Builder) (now : Nat) (ids : List Nat) : Prop :=
  Nested now ids b.nodes b.topLevel

lemma getElem?_onNode (b : Builder) (id : Nat) (f : Node → Node) (i : Nat) :
    (b.onNode id f).nodes[i]? = b.nodes[i]?.map fun n => if id = i then f n else n := by
  simp only [Builder.onNode, Array.getElem?_modify]
  split_ifs with h
  · rfl
  · exact Option.map_id'.symm

/-- A change of one node that keeps its outline and its end. -/
lemma NestedWith.onNode (h : b.NestedWith now ids) (id : Nat) {f : Node → Node}
    (hout : ∀ n, (f n).outline = n.outline) (hstop : ∀ n, (f n).span.stop = n.span.stop)
    (hsettled : ∀ n, n.Settled now → (f n).Settled now) : (b.onNode id f).NestedWith now ids := by
  refine Nested.retouch (getElem?_onNode b id f) (fun i n => ?_) h (fun i n hn => ?_)
    fun i n hn => ?_
  · split_ifs
    · exact hout n
    · rfl
  · split_ifs
    · exact hsettled n (h.settled i n hn)
    · exact h.settled i n hn
  · split_ifs
    · exact .inl (hstop n)
    · exact .inl rfl

lemma stop_changeElement (f : Element → Element) (n : Node) :
    (n.changeElement f).span = n.span := by
  rw [Node.changeElement]
  split <;> rfl

/-- A change of one element that keeps its name, its children and where its tags are. -/
lemma NestedWith.onElement (h : b.NestedWith now ids) (id : Nat) {f : Element → Element}
    (hf : ∀ e, (f e).name = e.name ∧ (f e).children = e.children)
    (hclose : ∀ e, ∀ o ∈ (f e).startTagClose, o ∈ e.startTagClose ∨ o + 1 ≤ now)
    (hopen : ∀ e, ∀ o ∈ (f e).endTagOpen, o ∈ e.endTagOpen ∨ o ≤ now) :
    (b.onElement id f).NestedWith now ids := by
  rw [onElement_eq]
  exact h.onNode id (fun n => Node.outline_changeElement hf)
    (fun n => by rw [stop_changeElement]) fun n hn => hn.changeElement hclose hopen

lemma NestedWith.resolve (h : b.NestedWith now ids) (id : Nat) :
    (b.resolve id).NestedWith now ids :=
  h.onElement id (fun _ => ⟨rfl, rfl⟩) (fun _ _ ho => .inl ho) fun _ _ ho => .inl ho

/-- A node that may grow ends at some offset from now on. -/
lemma NestedWith.growTo (h : b.NestedWith now ids) {id : Nat} (stop : Node → Nat) (hle : now ≤ now')
    (hgrow : Growable ids b.nodes id)
    (hid : ∀ n, b.nodes[id]? = some n → id ∈ ids ∨ n.element? = none)
    (hstop : ∀ n, n.Settled now → n.span.stop ≤ stop n ∧ stop n ≤ now') :
    (b.onNode id fun n => { n with span.stop := stop n }).NestedWith now' ids := by
  refine Nested.retouch (getElem?_onNode b id _) (fun i n => ?_) h (fun i n hn => ?_)
    fun i n hn => ?_
  · split_ifs <;> rfl
  · split_ifs
    · obtain ⟨hgrown, hbefore⟩ := hstop n (h.settled i n hn)
      exact (h.settled i n hn).grow hle hgrown hbefore
    · exact (h.settled i n hn).mono hle
  · split_ifs with hi
    · subst hi
      exact .inr ⟨hgrow, hid n hn⟩
    · exact .inl rfl

/-- An open element ends at some offset from now on. -/
lemma NestedWith.endAt (h : b.NestedWith now ids) {id : Nat} (hid : id ∈ ids)
    (hle : now ≤ now') : (b.endAt id now').NestedWith now' ids :=
  h.growTo (fun _ => now') hle (h.opened id hid).2 (fun _ _ => .inl hid)
    fun _ hn => ⟨Nat.le_trans hn.before hle, Nat.le_refl _⟩

lemma pending_endAll (b : Builder) (unclosed : List OpenElement) (stop : Nat) :
    (b.endAll unclosed stop).pending = b.pending := by
  induction unclosed generalizing b with
  | nil => rfl
  | cons o unclosed ih => exact ih (b.endAt o.id stop)

lemma stop_endAt (b : Builder) (id stop : Nat) {m : Node}
    (h : (b.endAt id stop).nodes[id]? = some m) : m.span.stop = stop := by
  rw [Builder.endAt, getElem?_onNode, Option.map_eq_some_iff] at h
  obtain ⟨n, -, rfl⟩ := h
  rw [if_pos rfl]

/-- The innermost open element is closed. -/
lemma NestedWith.close {id : Nat} (h : b.NestedWith now (id :: ids)) (hle : now ≤ now') :
    (b.endAt id now').NestedWith now' ids :=
  (h.endAt (List.mem_cons_self ..) hle).drop fun _ hm => stop_endAt b id now' hm

/-- The innermost open elements are closed one after the other. -/
lemma NestedWith.endAll (unclosed : List OpenElement)
    (h : b.NestedWith now (unclosed.map (·.id) ++ ids)) (hle : now ≤ now') :
    (b.endAll unclosed now').NestedWith now' ids := by
  induction unclosed generalizing b now with
  | nil => exact h.mono hle
  | cons o unclosed ih => exact ih (h.close hle) (Nat.le_refl _)

/-! ### New nodes -/

/-- The numbers of the elements inside which nodes are added. -/
def openIds (b : Builder) : List Nat :=
  b.opened.map (·.id)

/-- What becomes of a node when a new one is added inside the innermost open element. -/
def adopt (b : Builder) (i : Nat) (n : Node) : Node :=
  if b.openIds.head? = some i then
    n.changeElement fun e => { e with children := e.children ++ [b.nodes.size] }
  else n

lemma nodes_push (b : Builder) (kind : NodeKind) (span : Span)
    (hopen : ∀ id ∈ b.openIds, id < b.nodes.size) (i : Nat) :
    (b.push kind span).nodes[i]? =
      if i = b.nodes.size then some ⟨b.openIds.head?, span, kind⟩
      else b.nodes[i]?.map (b.adopt i) := by
  have hadopt (n : Node) : b.adopt i n = if b.openIds.head? = some i then n.changeElement fun e =>
      { e with children := e.children ++ [b.nodes.size] } else n := rfl
  rw [push]
  cases hopened : b.opened with
  | nil =>
      have hnone : b.openIds.head? = none := by rw [openIds, hopened]; rfl
      have hsame : b.adopt i = id := by
        funext n
        rw [hadopt, hnone, if_neg (by simp)]
        rfl
      simp only [hnone, hsame, Option.map_id_fun, id_eq, Array.getElem?_push]
  | cons o outside =>
      have hsome : b.openIds.head? = some o.id := by rw [openIds, hopened]; rfl
      have hlt := hopen o.id (List.mem_of_head? hsome)
      have hchange : b.adopt i = fun n => if o.id = i then n.changeElement fun e =>
          { e with children := e.children ++ [b.nodes.size] } else n := by
        funext n
        simp only [hadopt, hsome, Option.some.injEq]
      simp only [hsome, hchange, onElement_eq, getElem?_onNode, Array.getElem?_push]
      split_ifs with hi hnew
      · omega
      · rfl
      · rfl
      · rfl

lemma getElem?_push_cases {kind : NodeKind} {span : Span}
    (hopen : ∀ id ∈ b.openIds, id < b.nodes.size) {i : Nat} {n' : Node}
    (h : (b.push kind span).nodes[i]? = some n') :
    (i = b.nodes.size ∧ n' = ⟨b.openIds.head?, span, kind⟩) ∨
      ∃ n, b.nodes[i]? = some n ∧ n' = b.adopt i n := by
  rw [nodes_push b kind span hopen] at h
  split_ifs at h with hi
  · cases h
    exact .inl ⟨hi, rfl⟩
  · obtain ⟨n, hn, rfl⟩ := Option.map_eq_some_iff.mp h
    exact .inr ⟨n, hn, rfl⟩

lemma topLevel_push (b : Builder) (kind : NodeKind) (span : Span) :
    (b.push kind span).topLevel =
      if b.openIds = [] then b.topLevel ++ [b.nodes.size] else b.topLevel := by
  rw [push, openIds]
  cases hopened : b.opened with
  | nil => rfl
  | cons o outside => rfl

lemma adopt_parent (b : Builder) (i : Nat) (n : Node) : (b.adopt i n).parent = n.parent := by
  rw [adopt]
  split_ifs
  · exact changeElement_parent _ n
  · rfl

lemma adopt_span (b : Builder) (i : Nat) (n : Node) : (b.adopt i n).span = n.span := by
  rw [adopt]
  split_ifs
  · exact stop_changeElement _ n
  · rfl

lemma adopt_isSome (b : Builder) (i : Nat) (n : Node) :
    (b.adopt i n).element?.isSome = n.element?.isSome := by
  rw [adopt, Node.changeElement]
  split_ifs
  · split
    · rename_i e hkind
      simp [Node.element?, hkind]
    · rfl
  · rfl

lemma adopt_settled (b : Builder) (i : Nat) {n : Node} (h : n.Settled now) :
    (b.adopt i n).Settled now := by
  rw [adopt]
  split_ifs
  · exact h.changeElement (fun _ _ ho => .inl ho) fun _ _ ho => .inl ho
  · exact h

lemma mem_children_adopt (b : Builder) (i : Nat) (n : Node) (c : Nat) :
    c ∈ (b.adopt i n).children ↔
      c ∈ n.children ∨ (c = b.nodes.size ∧ b.openIds.head? = some i ∧ n.element?.isSome) := by
  rw [adopt]
  split_ifs with h
  · rw [Node.changeElement]
    split
    · rename_i e hkind
      simp [Node.children, Node.element?, hkind, h]
    · rename_i hkind
      have hnone : n.element? = none := by
        rw [Node.element?]
        split
        · rename_i e he
          exact absurd he (hkind e)
        · rfl
      simp [hnone]
  · simp [h]

lemma NestedWith.openIds_lt (h : b.NestedWith now b.openIds) :
    ∀ id ∈ b.openIds, id < b.nodes.size := by
  intro id hid
  obtain ⟨n, hn, -⟩ := (h.opened id hid).1
  exact (Array.getElem?_eq_some_iff.mp hn).1

section Push

variable {kind : NodeKind} {span : Span}

lemma getElem?_push_old (hlt : ∀ id ∈ b.openIds, id < b.nodes.size) {i : Nat} {n : Node}
    (hn : b.nodes[i]? = some n) : (b.push kind span).nodes[i]? = some (b.adopt i n) := by
  have hi := (Array.getElem?_eq_some_iff.mp hn).1
  rw [nodes_push b kind span hlt, if_neg (Nat.ne_of_lt hi), hn]
  rfl

lemma getElem?_push_new (hlt : ∀ id ∈ b.openIds, id < b.nodes.size) :
    (b.push kind span).nodes[b.nodes.size]? = some ⟨b.openIds.head?, span, kind⟩ := by
  rw [nodes_push b kind span hlt, if_pos rfl]

lemma mem_topLevel_push_iff {i : Nat} : i ∈ (b.push kind span).topLevel ↔
    i ∈ b.topLevel ∨ (b.openIds = [] ∧ i = b.nodes.size) := by
  rw [topLevel_push]
  split_ifs with hnone <;> simp [hnone]

/-- No open element is a child of the innermost one. -/
lemma NestedWith.head_ne_parent (h : b.NestedWith now b.openIds) {id : Nat} (hid : id ∈ b.openIds)
    {n : Node} (hn : b.nodes[id]? = some n) : b.openIds.head? ≠ n.parent := by
  intro hparent
  have hdescending := h.descending
  cases hids : b.openIds with
  | nil =>
      rw [hids] at hid
      cases hid
  | cons o outside =>
      rw [hids, List.head?_cons] at hparent
      have hbelow := (h.inside id n o hn hparent.symm).1
      rw [hids] at hid hdescending
      rcases List.mem_cons.mp hid with rfl | hid
      · exact absurd hbelow (Nat.lt_irrefl _)
      · have habove := (List.pairwise_cons.mp hdescending).1 id hid
        omega

/-- The open elements may still grow when there is a new node. -/
lemma NestedWith.growable_push (h : b.NestedWith now b.openIds) {id : Nat} (hid : id ∈ b.openIds) :
    Growable b.openIds (b.push kind span).nodes id := by
  have hlt := h.openIds_lt
  obtain ⟨⟨n, hn, hel⟩, hgrow⟩ := h.opened id hid
  constructor
  case around =>
    intro n' p hn' hp
    rw [getElem?_push_old hlt hn, Option.some.injEq] at hn'
    rw [← hn', adopt_parent] at hp
    exact hgrow.around n p hn hp
  case last =>
    intro n' m' j hn' hm' hj hp
    rw [getElem?_push_old hlt hn, Option.some.injEq] at hn'
    rw [← hn', adopt_parent] at hp
    rcases getElem?_push_cases hlt hm' with ⟨rfl, rfl⟩ | ⟨m, hm, rfl⟩
    · exact absurd hp (h.head_ne_parent hid hn)
    · rw [adopt_parent] at hp
      obtain ⟨hnone, -⟩ := hgrow.last n m j hn hm hj hp
      rw [hnone] at hel
      cases hel

/-- A new node begins behind the start of the element that it is added to. -/
lemma NestedWith.start_lt_of_open (h : b.NestedWith now b.openIds)
    (hle : now ≤ span.start) {p : Nat}
    {m : Node} (hm : b.nodes[p]? = some m) (hel : m.element?.isSome) :
    m.span.start < span.start := by
  obtain ⟨e, he⟩ := Option.isSome_iff_exists.mp hel
  have hstart := (h.settled p m hm).filled e he
  have hstop := (h.settled p m hm).before
  exact Nat.lt_of_lt_of_le hstart (Nat.le_trans hstop hle)

/-- A new node stands behind all that is there, inside the innermost open element. -/
lemma NestedWith.push (h : b.NestedWith now b.openIds) (hle : now ≤ span.start)
    (hnew : ∀ parent, (Node.mk parent span kind).Settled now')
    (hchildren : ∀ parent, (Node.mk parent span kind).children = []) :
    (b.push kind span).NestedWith now' b.openIds := by
  have hlt := h.openIds_lt
  have hnow : now ≤ now' :=
    Nat.le_trans hle (Nat.le_trans (hnew none).ordered (hnew none).before)
  constructor
  case settled =>
    intro i n' hn'
    rcases getElem?_push_cases hlt hn' with ⟨rfl, rfl⟩ | ⟨n, hn, rfl⟩
    · exact hnew _
    · exact b.adopt_settled i ((h.settled i n hn).mono hnow)
  case inside =>
    intro i n' p hn' hp
    rcases getElem?_push_cases hlt hn' with ⟨rfl, rfl⟩ | ⟨n, hn, rfl⟩
    · have hopen : p ∈ b.openIds := List.mem_of_head? hp
      obtain ⟨⟨m, hm, hel⟩, -⟩ := h.opened p hopen
      refine ⟨hlt p hopen, b.adopt p m, getElem?_push_old hlt hm, ?_, ?_, .inl hopen⟩
      · exact (b.mem_children_adopt p m _).mpr (.inr ⟨rfl, hp, hel⟩)
      · rw [adopt_span]
        exact h.start_lt_of_open hle hm hel
    · rw [adopt_parent] at hp
      obtain ⟨hbelow, m, hm, hi, hstart, hwithin⟩ := h.inside i n p hn hp
      refine ⟨hbelow, b.adopt p m, getElem?_push_old hlt hm, ?_, ?_, ?_⟩
      · exact (b.mem_children_adopt p m i).mpr (.inl hi)
      · rwa [adopt_span, adopt_span]
      · rwa [adopt_span, adopt_span]
  case outside =>
    intro i n' hn' hp
    rw [mem_topLevel_push_iff]
    rcases getElem?_push_cases hlt hn' with ⟨rfl, rfl⟩ | ⟨n, hn, rfl⟩
    · exact .inr ⟨List.head?_eq_none_iff.mp hp, rfl⟩
    · rw [adopt_parent] at hp
      exact .inl (h.outside i n hn hp)
  case children =>
    intro p m' hm' i hi
    rcases getElem?_push_cases hlt hm' with ⟨rfl, rfl⟩ | ⟨m, hm, rfl⟩
    · rw [hchildren] at hi
      cases hi
    · rcases (b.mem_children_adopt p m i).mp hi with hi | ⟨rfl, hp, -⟩
      · obtain ⟨n, hn, hp⟩ := h.children p m hm i hi
        exact ⟨b.adopt i n, getElem?_push_old hlt hn, by rwa [adopt_parent]⟩
      · exact ⟨_, getElem?_push_new hlt, hp⟩
  case top =>
    intro i hi
    rcases mem_topLevel_push_iff.mp hi with hi | ⟨hnone, rfl⟩
    · obtain ⟨n, hn, hp⟩ := h.top i hi
      exact ⟨b.adopt i n, getElem?_push_old hlt hn, by rwa [adopt_parent]⟩
    · exact ⟨_, getElem?_push_new hlt, by simp [hnone]⟩
  case apart =>
    intro i j n' m' hn' hm' hij hp hel
    rcases getElem?_push_cases hlt hm' with ⟨rfl, rfl⟩ | ⟨m, hm, rfl⟩
    · rcases getElem?_push_cases hlt hn' with ⟨rfl, rfl⟩ | ⟨n, hn, rfl⟩
      · exact absurd hij (Nat.lt_irrefl _)
      · rw [adopt_span]
        exact Nat.le_trans (h.settled i n hn).before hle
    · have hj := (Array.getElem?_eq_some_iff.mp hm).1
      rcases getElem?_push_cases hlt hn' with ⟨rfl, rfl⟩ | ⟨n, hn, rfl⟩
      · exact absurd hij (Nat.lt_asymm hj)
      · rw [adopt_parent, adopt_parent] at hp
        rw [adopt_isSome, adopt_isSome] at hel
        rw [adopt_span, adopt_span]
        exact h.apart i j n m hn hm hij hp hel
  case opened =>
    intro id hid
    obtain ⟨n, hn, hel⟩ := (h.opened id hid).1
    exact ⟨⟨b.adopt id n, getElem?_push_old hlt hn, by rwa [adopt_isSome]⟩, h.growable_push hid⟩
  case descending => exact h.descending

end Push

/-- A new element may grow. -/
lemma NestedWith.pushElement (h : b.NestedWith now b.openIds) {e : Element} {span : Span}
    (hle : now ≤ span.start) (hnew : ∀ parent, (Node.mk parent span (.element e)).Settled now')
    (hchildren : e.children = []) :
    (b.push (.element e) span).NestedWith now' (b.nodes.size :: b.openIds) := by
  have hlt := h.openIds_lt
  have hlast : (b.push (.element e) span).nodes[b.nodes.size]? =
      some ⟨b.openIds.head?, span, .element e⟩ := getElem?_push_new hlt
  refine (h.push hle hnew fun _ => hchildren).enter ⟨_, hlast, rfl⟩ ⟨?_, ?_⟩ hlt
  · intro n p hn hp
    rw [hlast, Option.some.injEq] at hn
    rw [← hn] at hp
    exact List.mem_of_head? hp
  · intro n m j hn hm hj hp
    have hbound := (Array.getElem?_eq_some_iff.mp hm).1
    rw [size_push] at hbound
    omega

end Builder

end XmlAdvisor
