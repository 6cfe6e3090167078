import XmlAdvisor.Proofs.TagPlaces
import Mathlib.Data.List.Nodup

/-!
# Every tree is well nested

What holds of the nodes of every tree, whatever faults its text has: each is listed once, where it
belongs, and takes up some of the text; it stands in the content of its parent, behind the siblings
before it.

**Document types.**  An internal subset may hold comments and instructions.  They are listed beside
the document type and lie inside it, so they alone overlap a sibling (`Node.Before`).

**Alterations.**  Once a node is there, only elements change, and they keep their starts and parents
(`Node.Alike`).  Elements that may still end elsewhere are open, and so are the elements around
them, whose end tags have not been read: nothing can leave content that has ended.

* `Builder.Alters` — what tokens do to the nodes that are there.
* `Builder.Lined`, `Builder.Contained` — the order of nodes, and their places in their parents.
* `Tree.WellNested` — what is said of a tree.
* **`Tree.parse_wellNested`** — every tree is well nested.
-/

namespace XmlAdvisor

/-! ## Nodes one behind the other -/

namespace Node

variable {n m k : Node}

/-- Whether a node is a document type. -/
def IsDoctype (n : Node) : Prop :=
  ∃ d, n.kind = .doctype d

/-- Whether a node lies inside another one and touches neither of its ends. -/
def LiesIn (m n : Node) : Prop :=
  n.span.start < m.span.start ∧ m.span.stop < n.span.stop

/-- Whether a node ends before another one begins, unless the other is in its internal subset. -/
def Before (n m : Node) : Prop :=
  n.span.stop ≤ m.span.start ∨
    n.IsDoctype ∧ m.element? = none ∧ ¬ m.IsDoctype ∧ m.LiesIn n

/-- Whether a node is another one, or an element at the same place that may end elsewhere. -/
def Alike (m n : Node) : Prop :=
  m = n ∨ m.element?.isSome ∧ n.element?.isSome ∧ m.parent = n.parent ∧
    m.span.start = n.span.start

lemma alike_refl (n : Node) : n.Alike n :=
  .inl rfl

lemma Alike.trans (h : m.Alike n) (h' : n.Alike k) : m.Alike k := by
  rcases h with rfl | ⟨hm, hn, hparent, hstart⟩
  · exact h'
  · rcases h' with rfl | ⟨-, hk, hparent', hstart'⟩
    · exact .inr ⟨hm, hn, hparent, hstart⟩
    · exact .inr ⟨hm, hk, hparent.trans hparent', hstart.trans hstart'⟩

lemma Alike.parent (h : m.Alike n) : m.parent = n.parent := by
  rcases h with rfl | ⟨-, -, hparent, -⟩
  · rfl
  · exact hparent

lemma Alike.start (h : m.Alike n) : m.span.start = n.span.start := by
  rcases h with rfl | ⟨-, -, -, hstart⟩
  · rfl
  · exact hstart

lemma Alike.isElement (h : m.Alike n) : m.element?.isSome = n.element?.isSome := by
  rcases h with rfl | ⟨hm, hn, -, -⟩
  · rfl
  · rw [hm, hn]

/-- What is no element has not changed. -/
lemma Alike.eq_of_none (h : m.Alike n) (hm : m.element? = none) : m = n := by
  rcases h with rfl | ⟨hsome, -, -, -⟩
  · rfl
  · rw [hm] at hsome
    cases hsome

lemma IsDoctype.element?_eq_none (h : n.IsDoctype) : n.element? = none := by
  obtain ⟨d, hd⟩ := h
  simp [element?, hd]

lemma alike_changeElement (n : Node) (f : Element → Element) : (n.changeElement f).Alike n := by
  rw [changeElement]
  split
  · rename_i e hkind
    exact .inr ⟨rfl, by simp [element?, hkind], rfl, rfl⟩
  · exact n.alike_refl

/-- A node before another one stays there when the other is altered. -/
lemma Before.alike (h : n.Before m) (hk : k.Alike m) : n.Before k := by
  rcases h with hle | ⟨hdoctype, hnone, hplain, hin⟩
  · exact .inl (hk.start ▸ hle)
  · have hsame : k.element? = none := by
      rw [← Option.not_isSome_iff_eq_none, hk.isElement, hnone]
      exact Bool.false_ne_true
    obtain rfl := hk.eq_of_none hsame
    exact .inr ⟨hdoctype, hnone, hplain, hin⟩

end Node

/-! ## What a builder keeps -/

namespace Builder

variable {text : List Char} {b b' b'' : Builder} {phase : Phase} {now : Nat} {ids : List Nat}

lemma alike_adopt (b : Builder) (i : Nat) (n : Node) : (b.adopt i n).Alike n := by
  rw [adopt]
  split_ifs
  · exact n.alike_changeElement _
  · exact n.alike_refl

/-- Whether one builder has the nodes of another one, altered, where only those given end
elsewhere. -/
structure Alters (ids : List Nat) (b b' : Builder) : Prop where
  size : b'.nodes.size = b.nodes.size
  node : ∀ (i : Nat) (m : Node), b'.nodes[i]? = some m →
    ∃ n, b.nodes[i]? = some n ∧ m.Alike n ∧ (m.span.stop = n.span.stop ∨ i ∈ ids)

/-- Whether there is no node but an element under a number. -/
def ElementAt (b : Builder) (id : Nat) : Prop :=
  ∀ n, b.nodes[id]? = some n → n.element?.isSome

lemma alters_refl (ids : List Nat) (b : Builder) : b.Alters ids b :=
  ⟨rfl, fun _ m hm => ⟨m, hm, m.alike_refl, .inl rfl⟩⟩

lemma Alters.trans (h : b.Alters ids b') (h' : b'.Alters ids b'') : b.Alters ids b'' := by
  refine ⟨h'.size.trans h.size, fun i k hk => ?_⟩
  obtain ⟨m, hm, halike', hstop'⟩ := h'.node i k hk
  obtain ⟨n, hn, halike, hstop⟩ := h.node i m hm
  refine ⟨n, hn, halike'.trans halike, ?_⟩
  rcases hstop' with hstop' | hid
  · exact hstop.imp_left hstop'.trans
  · exact .inr hid

lemma Alters.elementAt (h : b.Alters ids b') {id : Nat} (hid : b.ElementAt id) :
    b'.ElementAt id := by
  intro m hm
  obtain ⟨n, hn, halike, -⟩ := h.node id m hm
  rw [halike.isElement]
  exact hid n hn

lemma alters_onNode (b : Builder) {id : Nat} {f : Node → Node}
    (hf : ∀ n, b.nodes[id]? = some n →
      (f n).Alike n ∧ ((f n).span.stop = n.span.stop ∨ id ∈ ids)) :
    b.Alters ids (b.onNode id f) := by
  refine ⟨Array.size_modify, fun i m hm => ?_⟩
  rw [getElem?_onNode, Option.map_eq_some_iff] at hm
  obtain ⟨n, hn, rfl⟩ := hm
  refine ⟨n, hn, ?_⟩
  split_ifs with hi
  · subst hi
    exact hf n hn
  · exact ⟨n.alike_refl, .inl rfl⟩

lemma alters_onElement (ids : List Nat) (b : Builder) (id : Nat) (f : Element → Element) :
    b.Alters ids (b.onElement id f) := by
  rw [onElement_eq]
  exact b.alters_onNode fun n _ => ⟨n.alike_changeElement f, .inl (by rw [stop_changeElement])⟩

lemma alters_stop {id : Nat} (helement : b.ElementAt id) (hid : id ∈ ids) (stop : Node → Nat) :
    b.Alters ids (b.onNode id fun n => { n with span.stop := stop n }) :=
  b.alters_onNode fun n hn => ⟨.inr ⟨helement n hn, helement n hn, rfl, rfl⟩, .inr hid⟩

lemma alters_endAt {id : Nat} (helement : b.ElementAt id) (hid : id ∈ ids) (stop : Nat) :
    b.Alters ids (b.endAt id stop) :=
  alters_stop helement hid fun _ => stop

lemma alters_endAll (unclosed : List OpenElement) (stop : Nat)
    (helement : ∀ o ∈ unclosed, b.ElementAt o.id) (hids : ∀ o ∈ unclosed, o.id ∈ ids) :
    b.Alters ids (b.endAll unclosed stop) := by
  induction unclosed generalizing b with
  | nil => exact alters_refl ids b
  | cons o unclosed ih =>
      have hend := alters_endAt (helement o (List.mem_cons_self ..))
        (hids o (List.mem_cons_self ..))
        stop
      exact hend.trans (ih (fun o' ho' => hend.elementAt (helement o' (List.mem_cons_of_mem o ho')))
        fun o' ho' => hids o' (List.mem_cons_of_mem o ho'))

/-! ### Tokens that alter elements -/

lemma Steady.elementAt (h : b.Steady phase now) {id : Nat} (hid : id ∈ b.spine) :
    b.ElementAt id := by
  intro n hn
  obtain ⟨m, hm, helement⟩ := (h.nested.opened id hid).1
  rw [hn, Option.some.injEq] at hm
  rwa [hm]

lemma mem_spine_of_pending {p : OpenElement} (hp : b.pending = some p) : p.id ∈ b.spine := by
  simp [spine, hp]

lemma mem_spine_of_opened {o : OpenElement} (ho : o ∈ b.opened) : o.id ∈ b.spine :=
  List.mem_map_of_mem (List.mem_append_right _ ho)

lemma Steady.alters_addAttribute (h : b.Steady phase now) (name : QualifiedName) (value : String)
    (nameSpan valueSpan span : Span) :
    b.Alters b.spine (b.addAttribute name value nameSpan valueSpan span) := by
  rw [Builder.addAttribute]
  split
  · exact alters_refl _ b
  · rename_i p hp
    have hid := mem_spine_of_pending hp
    have hscope : b.Alters b.spine { b with scope := (bindingOf name value).toList ++ b.scope } :=
      ⟨rfl, (alters_refl _ b).node⟩
    exact (hscope.trans (alters_stop (hscope.elementAt (h.elementAt hid)) hid
      fun n => max n.span.stop span.stop)).trans (alters_onElement _ _ p.id _)

/-- The end of a start tag alters the element whose tag it is. -/
lemma Steady.alters_endOfStart (h : b.Steady phase now) {p : OpenElement} (hp : b.pending = some p)
    (stop : Nat) (f : Element → Element) :
    b.Alters b.spine (((b.resolve p.id).endAt p.id stop).onElement p.id f) := by
  have hid := mem_spine_of_pending hp
  have hresolve : b.Alters b.spine (b.resolve p.id) := alters_onElement _ b p.id _
  exact (hresolve.trans (alters_endAt (hresolve.elementAt (h.elementAt hid)) hid stop)).trans
    (alters_onElement _ _ p.id f)

lemma Steady.alters_closeTag (h : b.Steady phase now) (span : Span) :
    b.Alters b.spine (b.closeTag span) := by
  rw [Builder.closeTag]
  cases hp : b.pending with
  | none => exact alters_refl _ b
  | some p =>
      obtain ⟨hsize, hnode⟩ := h.alters_endOfStart hp span.stop _
      exact ⟨hsize, hnode⟩

lemma Steady.alters_selfCloseTag (h : b.Steady phase now) (span : Span) :
    b.Alters b.spine (b.selfCloseTag span) := by
  rw [Builder.selfCloseTag]
  cases hp : b.pending with
  | none => exact alters_refl _ b
  | some p =>
      obtain ⟨hsize, hnode⟩ := h.alters_endOfStart hp span.stop _
      exact ⟨hsize, hnode⟩

lemma Steady.alters_endTag (h : b.Steady phase now) (name : QualifiedName) (span : Span) :
    b.Alters b.spine (b.endTag name span) := by
  rw [Builder.endTag]
  have hsplit := List.takeWhile_append_dropWhile (p := fun o : OpenElement => o.tag != name.text)
    (l := b.opened)
  generalize b.opened.takeWhile (fun o : OpenElement => o.tag != name.text) = unclosed at hsplit ⊢
  cases hd : b.opened.dropWhile (fun o : OpenElement => o.tag != name.text) with
  | nil => exact alters_refl _ b
  | cons closed outside =>
      rw [hd] at hsplit
      have hunclosed {o : OpenElement} (ho : o ∈ unclosed) : o.id ∈ b.spine :=
        mem_spine_of_opened (hsplit ▸ List.mem_append_left _ ho)
      have hid : closed.id ∈ b.spine :=
        mem_spine_of_opened (hsplit ▸ List.mem_append_right _ (List.mem_cons_self ..))
      have hend : b.Alters b.spine (b.endAll unclosed span.start) :=
        alters_endAll unclosed span.start (fun o ho => h.elementAt (hunclosed ho))
          fun o ho => hunclosed ho
      obtain ⟨hsize, hnode⟩ := (hend.trans (alters_endAt (hend.elementAt (h.elementAt hid)) hid
        span.stop)).trans (alters_onElement _ _ closed.id
        fun e => { e with endTagOpen := some span.start })
      exact ⟨hsize, hnode⟩

lemma Steady.alters_finish (h : b.Steady phase now) (length : Nat) :
    b.Alters b.spine (b.finish length) := by
  have hall {b' : Builder} (hb' : b.Alters b.spine b') (heq : b'.opened = b.opened) :
      b.Alters b.spine (b'.endAll b'.opened length) := by
    rw [heq]
    exact hb'.trans (alters_endAll b.opened length
      (fun o ho => hb'.elementAt (h.elementAt (mem_spine_of_opened ho)))
      fun o ho => mem_spine_of_opened ho)
  rw [Builder.finish]
  split
  · exact hall (alters_refl _ b) rfl
  · rename_i p hp
    have hid := mem_spine_of_pending hp
    have hresolve : b.Alters b.spine (b.resolve p.id) := alters_onElement _ b p.id _
    exact hall (hresolve.trans (alters_endAt (hresolve.elementAt (h.elementAt hid)) hid length)) rfl

/-! ### The order of nodes -/

/-- Whether the nodes that are no elements take up some of the text and end before what comes behind
them. -/
structure Lined (b : Builder) : Prop where
  filled : ∀ (i : Nat) (n : Node), b.nodes[i]? = some n → n.element? = none →
    n.span.start < n.span.stop
  before : ∀ (i j : Nat) (n m : Node), b.nodes[i]? = some n → b.nodes[j]? = some m → i < j →
    n.element? = none → n.Before m

lemma Lined.alters (h : b.Lined) (ha : b.Alters ids b') : b'.Lined := by
  constructor
  case filled =>
    intro i m hm hnone
    obtain ⟨n, hn, halike, -⟩ := ha.node i m hm
    obtain rfl := halike.eq_of_none hnone
    exact h.filled i m hn hnone
  case before =>
    intro i j n m hn hm hij hnone
    obtain ⟨n₀, hn₀, halike, -⟩ := ha.node i n hn
    obtain ⟨m₀, hm₀, halike', -⟩ := ha.node j m hm
    obtain rfl := halike.eq_of_none hnone
    exact (h.before i j n m₀ hn₀ hm₀ hij hnone).alike halike'

/-- A new node stands behind all others. -/
lemma Lined.push (h : b.Lined) (hnested : b.NestedWith now b.openIds) {kind : NodeKind}
    {span : Span}
    (hle : now ≤ span.start) (hfilled : span.start < span.stop) : (b.push kind span).Lined := by
  have hlt := hnested.openIds_lt
  constructor
  case filled =>
    intro i m hm hnone
    rcases getElem?_push_cases hlt hm with ⟨-, rfl⟩ | ⟨n, hn, rfl⟩
    · exact hfilled
    · have hsame := (b.alike_adopt i n).eq_of_none hnone
      rw [hsame] at hnone ⊢
      exact h.filled i n hn hnone
  case before =>
    intro i j n m hn hm hij hnone
    rcases getElem?_push_cases hlt hn with ⟨rfl, -⟩ | ⟨n, hold, rfl⟩
    · have hj := (Array.getElem?_eq_some_iff.mp hm).1
      rw [size_push] at hj
      omega
    · have hsame := (b.alike_adopt i n).eq_of_none hnone
      rw [hsame] at hnone ⊢
      rcases getElem?_push_cases hlt hm with ⟨-, rfl⟩ | ⟨m, hold', rfl⟩
      · exact .inl (Nat.le_trans (hnested.settled i n hold).before hle)
      · exact (h.before i j n m hold hold' hij hnone).alike (b.alike_adopt j m)

/-- Whether document types have no parents and the builder knows the last one. -/
structure KnowsDoctype (b : Builder) : Prop where
  known : ∀ id, b.doctypeNode = some id → ∃ n, b.nodes[id]? = some n ∧ n.IsDoctype
  latest : ∀ (i : Nat) (n : Node), b.nodes[i]? = some n → n.IsDoctype →
    n.parent = none ∧ ∃ id, b.doctypeNode = some id ∧ i ≤ id

lemma KnowsDoctype.alters (h : b.KnowsDoctype) (ha : b.Alters ids b')
    (hid : b'.doctypeNode = b.doctypeNode) : b'.KnowsDoctype := by
  constructor
  case known =>
    intro id hid'
    obtain ⟨n, hn, hdoctype⟩ := h.known id (hid ▸ hid')
    have hlt := (Array.getElem?_eq_some_iff.mp hn).1
    rw [← ha.size] at hlt
    obtain ⟨n₀, hn₀, halike, -⟩ := ha.node id _ (Array.getElem?_eq_getElem hlt)
    rw [hn, Option.some.injEq] at hn₀
    subst hn₀
    refine ⟨_, Array.getElem?_eq_getElem hlt, ?_⟩
    rcases halike with heq | ⟨-, hsome, -, -⟩
    · rwa [heq]
    · rw [hdoctype.element?_eq_none] at hsome
      cases hsome
  case latest =>
    intro i m hm hdoctype
    obtain ⟨n, hn, halike, -⟩ := ha.node i m hm
    obtain rfl := halike.eq_of_none hdoctype.element?_eq_none
    rw [hid]
    exact h.latest i m hn hdoctype

lemma doctypeNode_push (b : Builder) (kind : NodeKind) (span : Span) :
    (b.push kind span).doctypeNode = b.doctypeNode := by
  rw [push]
  cases b.opened <;> rfl

/-- A node that is no document type changes nothing about them. -/
lemma KnowsDoctype.push (h : b.KnowsDoctype) (hlt : ∀ id ∈ b.openIds, id < b.nodes.size)
    {kind : NodeKind} {span : Span} (hkind : ∀ d, kind ≠ .doctype d) :
    (b.push kind span).KnowsDoctype := by
  constructor
  case known =>
    intro id hid
    rw [doctypeNode_push] at hid
    obtain ⟨n, hn, hdoctype⟩ := h.known id hid
    refine ⟨_, getElem?_push_old hlt hn, ?_⟩
    rcases b.alike_adopt id n with heq | ⟨-, hsome, -, -⟩
    · rwa [heq]
    · rw [hdoctype.element?_eq_none] at hsome
      cases hsome
  case latest =>
    intro i m hm hdoctype
    rw [doctypeNode_push]
    rcases getElem?_push_cases hlt hm with ⟨-, rfl⟩ | ⟨n, hn, rfl⟩
    · obtain ⟨d, hd⟩ := hdoctype
      exact absurd hd (hkind d)
    · have hsame := (b.alike_adopt i n).eq_of_none hdoctype.element?_eq_none
      rw [hsame] at hdoctype ⊢
      exact h.latest i n hn hdoctype

/-- Before the document element no node has a parent. -/
lemma Steady.parent_eq_none (h : b.Steady .head now) {i : Nat} {n : Node}
    (hn : b.nodes[i]? = some n) : n.parent = none := by
  cases hp : n.parent with
  | none => rfl
  | some p =>
      have hopen := (h.growable_head i).around n p hn hp
      rw [h.fits.1] at hopen
      cases hopen

lemma Steady.knowsDoctype_addDoctype (h : b.Steady .head now) (name : String)
    (external : Option ExternalId) (subset : Bool) (span : Span) :
    (b.addDoctype name external subset span).KnowsDoctype := by
  have hnone : b.openIds = [] := by
    have hspine := h.fits.1
    rwa [spine_of_pending_none (h.pending_none (by decide))] at hspine
  have hlt : ∀ id ∈ b.openIds, id < b.nodes.size := by
    rw [hnone]
    rintro id ⟨⟩
  have hnodes : (b.addDoctype name external subset span).nodes =
      (b.push (.doctype ⟨name, external.bind (·.publicId), external.map (·.systemId), none⟩)
        span).nodes := by
    rw [Builder.addDoctype]
    dsimp only
    split_ifs <;> rfl
  have hid : (b.addDoctype name external subset span).doctypeNode = some b.nodes.size := by
    rw [Builder.addDoctype]
    dsimp only
    split_ifs <;> rfl
  constructor
  case known =>
    intro id hid'
    rw [hid, Option.some.injEq] at hid'
    subst hid'
    rw [hnodes]
    exact ⟨_, getElem?_push_new hlt, _, rfl⟩
  case latest =>
    intro i m hm _
    have hi := (Array.getElem?_eq_some_iff.mp hm).1
    rw [hnodes, size_push] at hi
    refine ⟨?_, _, hid, Nat.lt_succ_iff.mp hi⟩
    rw [hnodes] at hm
    rcases getElem?_push_cases hlt hm with ⟨-, rfl⟩ | ⟨n, hn, rfl⟩
    · rw [hnone]
      rfl
    · rw [adopt_parent]
      exact h.parent_eq_none hn

/-! ### The content of elements -/

/-- Whether nodes stand in the content of their parents, as far as this has been read. -/
def Contained (b : Builder) : Prop :=
  ∀ (i : Nat) (n : Node) (p : Nat), b.nodes[i]? = some n → n.parent = some p →
    ∃ start close stop?, b.tags? p = some ⟨start, some close, stop?⟩ ∧ close < n.span.start ∧
      ∀ stop ∈ stop?, n.span.stop ≤ stop

/-- The end tag of an open element has not been read. -/
lemma Tagged.stop_eq_none (h : b.Tagged text now) {p : Nat} (hp : p ∈ b.spine) {tags : Tags}
    (htags : b.tags? p = some tags) : tags.stop? = none := by
  obtain ⟨o, ho, rfl⟩ := List.mem_map.mp hp
  rcases List.mem_append.mp ho with ho | ho
  · obtain ⟨start, hstart, -⟩ := h.pending o (Option.mem_toList.mp ho)
    rw [hstart] at htags
    cases htags
    rfl
  · obtain ⟨start, close, hclose, -⟩ := h.opened o ho
    rw [hclose] at htags
    cases htags
    rfl

/-- What ends elsewhere is open, and so is what is around it.  Content that is ended must hold what
is in it. -/
lemma Contained.alters (h : b.Contained) (hs : b.Steady phase now) (ht : b.Tagged text now)
    (ha : b.Alters b.spine b')
    (htags : ∀ p start close stop?, b.tags? p = some ⟨start, some close, stop?⟩ →
      ∃ stop?', b'.tags? p = some ⟨start, some close, stop?'⟩ ∧ (stop?' = stop? ∨
        ∀ (i : Nat) (m : Node), b'.nodes[i]? = some m → m.parent = some p →
          ∀ stop ∈ stop?', m.span.stop ≤ stop)) : b'.Contained := by
  intro i m p hm hp
  obtain ⟨n, hn, halike, hstop⟩ := ha.node i m hm
  have hp' : n.parent = some p := halike.parent ▸ hp
  obtain ⟨start, close, stop?, hclose, hafter, hinside⟩ := h i n p hn hp'
  obtain ⟨stop?', hclose', hsame⟩ := htags p start close stop? hclose
  refine ⟨start, close, stop?', hclose', halike.start ▸ hafter, ?_⟩
  rcases hsame with rfl | hended
  · rcases hstop with hstop | hopen
    · rw [hstop]
      exact hinside
    · have hnone := ht.stop_eq_none ((hs.nested.opened i hopen).2.around n p hn hp') hclose
      dsimp only at hnone
      rw [hnone]
      rintro stop ⟨⟩
  · exact hended i m hm hp

/-- A new node stands in the content of the innermost open element, which has not ended. -/
lemma Contained.push (h : b.Contained) (ht : b.Tagged text now)
    (hlt : ∀ id ∈ b.openIds, id < b.nodes.size) {kind : NodeKind} {span : Span}
    (hle : now ≤ span.start) : (b.push kind span).Contained := by
  have htags {p : Nat} (hp : p < b.nodes.size) : (b.push kind span).tags? p = b.tags? p := by
    rw [b.tags?_push kind span hlt, if_neg (Nat.ne_of_lt hp)]
  intro i m p hm hp
  rcases getElem?_push_cases hlt hm with ⟨-, rfl⟩ | ⟨n, hn, rfl⟩
  · have hopen : p ∈ b.openIds := List.mem_of_head? hp
    obtain ⟨o, ho, rfl⟩ := List.mem_map.mp hopen
    obtain ⟨start, close, hclose, -, hbefore, -⟩ := ht.opened o ho
    refine ⟨start, close, none, by rw [htags (hlt _ hopen), hclose], ?_, by rintro stop ⟨⟩⟩
    exact Nat.lt_of_lt_of_le hbefore hle
  · rw [adopt_parent] at hp
    rw [adopt_span]
    obtain ⟨start, close, stop?, hclose, hinside⟩ := h i n p hn hp
    refine ⟨start, close, stop?, ?_, hinside⟩
    rw [htags, hclose]
    rw [tags?, Option.bind_eq_some_iff] at hclose
    obtain ⟨parent, hparent, -⟩ := hclose
    exact (Array.getElem?_eq_some_iff.mp hparent).1

/-! ### Document types that end -/

lemma getElem?_endSubset (b : Builder) (text : List Char) (span : Span) {id : Nat}
    (hid : b.doctypeNode = some id) : ∃ subset, ∀ i, (b.endSubset text span).nodes[i]? =
      b.nodes[i]?.map fun n =>
        if id = i then recordSubset subset { n with span.stop := span.stop } else n := by
  refine ⟨b.subsetStart.map fun start => Span.slice ⟨start, span.start⟩ text, fun i => ?_⟩
  rw [Builder.endSubset, hid]
  dsimp only
  rw [getElem?_onNode, Builder.endAt, getElem?_onNode, Option.map_map]
  refine congrArg (fun f => Option.map f b.nodes[i]?) (funext fun n => ?_)
  simp only [Function.comp_apply, recordSubset]
  split_ifs <;> rfl

lemma recordSubset_span (subset : Option String) (n : Node) :
    (recordSubset subset n).span = n.span := by
  rw [recordSubset]
  split <;> rfl

lemma recordSubset_parent (subset : Option String) (n : Node) :
    (recordSubset subset n).parent = n.parent := by
  rw [recordSubset]
  split <;> rfl

lemma isDoctype_recordSubset (subset : Option String) (stop : Nat) {n : Node} (h : n.IsDoctype) :
    (recordSubset subset { n with span.stop := stop }).IsDoctype := by
  obtain ⟨d, hd⟩ := h
  rw [recordSubset, hd]
  exact ⟨_, rfl⟩

section EndSubset

variable {span : Span} {id : Nat} (hid : b.doctypeNode = some id) (hk : b.KnowsDoctype)
include hid hk

/-- The document type that ends, and the other nodes as they are. -/
lemma KnowsDoctype.endSubset_cases (text : List Char) (span : Span) {i : Nat} {m : Node}
    (hm : (b.endSubset text span).nodes[i]? = some m) :
    ∃ n, b.nodes[i]? = some n ∧ m.parent = n.parent ∧ m.span.start = n.span.start ∧
      (i = id ∧ n.IsDoctype ∧ m.IsDoctype ∧ m.span.stop = span.stop ∨ i ≠ id ∧ m = n) := by
  obtain ⟨subset, hnodes⟩ := b.getElem?_endSubset text span hid
  rw [hnodes, Option.map_eq_some_iff] at hm
  obtain ⟨n, hn, rfl⟩ := hm
  obtain ⟨n', hn', hdoctype⟩ := hk.known id hid
  split_ifs with hi
  · subst hi
    rw [hn, Option.some.injEq] at hn'
    subst hn'
    exact ⟨n, hn, recordSubset_parent .., by rw [recordSubset_span], .inl ⟨rfl, hdoctype,
      isDoctype_recordSubset subset span.stop hdoctype, by rw [recordSubset_span]⟩⟩
  · exact ⟨n, hn, rfl, rfl, .inr ⟨fun h => hi h.symm, rfl⟩⟩

lemma Lined.endSubset (h : b.Lined) (hs : b.Steady .head now) (text : List Char)
    (hle : now ≤ span.start) (hfilled : span.start < span.stop) :
    (b.endSubset text span).Lined := by
  constructor
  case filled =>
    intro i m hm hnone
    obtain ⟨n, hn, -, hstart, ⟨rfl, hdoctype, -, hstop⟩ | ⟨-, rfl⟩⟩ :=
      hk.endSubset_cases hid text span hm
    · have hlt := h.filled i n hn hdoctype.element?_eq_none
      have hbefore := (hs.nested.settled i n hn).before
      omega
    · exact h.filled i m hn hnone
  case before =>
    intro i j n' m' hn' hm' hij hnone
    obtain ⟨n, hn, -, hstart, hni⟩ := hk.endSubset_cases hid text span hn'
    obtain ⟨m, hm, -, hstart', hmj⟩ := hk.endSubset_cases hid text span hm'
    rcases hni with ⟨rfl, hdoctype, hdoctype', hstop⟩ | ⟨-, rfl⟩
    · -- what came after the document type stands inside it now
      obtain ⟨-, rfl⟩ : j ≠ i ∧ m' = m := hmj.resolve_left fun h => by omega
      have hafter : n.span.start < m'.span.start := by
        rcases h.before i j n m' hn hm hij hdoctype.element?_eq_none with hle | ⟨-, -, -, hin, -⟩
        · exact Nat.lt_of_lt_of_le (h.filled i n hn hdoctype.element?_eq_none) hle
        · exact hin
      have hbefore := (hs.nested.settled j m' hm).before
      refine .inr ⟨hdoctype', hs.fits.2 j m' hm, fun hsecond => ?_, by omega, by omega⟩
      obtain ⟨-, last, hlast, hle⟩ := hk.latest j m' hm hsecond
      rw [hid, Option.some.injEq] at hlast
      omega
    · rcases hmj with ⟨rfl, hdoctype, hdoctype', -⟩ | ⟨-, rfl⟩
      · rcases h.before i j n' m hn hm hij hnone with hle | ⟨-, -, hplain, -⟩
        · exact .inl (hstart' ▸ hle)
        · exact absurd hdoctype hplain
      · exact h.before i j n' m' hn hm hij hnone

lemma KnowsDoctype.endSubset (text : List Char) (span : Span) :
    (b.endSubset text span).KnowsDoctype := by
  have hsame : (b.endSubset text span).doctypeNode = some id := by
    rw [Builder.endSubset, hid]
    rfl
  obtain ⟨subset, hnodes⟩ := b.getElem?_endSubset text span hid
  constructor
  case known =>
    intro id' hid'
    rw [hsame, Option.some.injEq] at hid'
    subst hid'
    obtain ⟨n, hn, hdoctype⟩ := hk.known id hid
    refine ⟨_, by rw [hnodes, hn]; rfl, ?_⟩
    dsimp only
    rw [if_pos rfl]
    exact isDoctype_recordSubset subset span.stop hdoctype
  case latest =>
    intro i m hm hdoctype
    rw [hsame, ← hid]
    obtain ⟨n, hn, hparent, -, ⟨-, hdoctype, -⟩ | ⟨-, rfl⟩⟩ := hk.endSubset_cases hid text span hm
    · rw [hparent]
      exact hk.latest i n hn hdoctype
    · exact hk.latest i m hn hdoctype

omit hid hk in
/-- Before the document element no node has a parent. -/
lemma Contained.endSubset (hs : b.Steady .head now) (text : List Char) (span : Span) :
    (b.endSubset text span).Contained := by
  intro i m p hm hp
  cases hid : b.doctypeNode with
  | none =>
      rw [Builder.endSubset, hid] at hm
      rw [hs.parent_eq_none hm] at hp
      cases hp
  | some id =>
      obtain ⟨subset, hnodes⟩ := b.getElem?_endSubset text span hid
      rw [hnodes, Option.map_eq_some_iff] at hm
      obtain ⟨n, hn, rfl⟩ := hm
      have hparent := hs.parent_eq_none hn
      split_ifs at hp
      · rw [recordSubset_parent, hparent] at hp
        cases hp
      · rw [hparent] at hp
        cases hp

end EndSubset

/-! ### Tokens -/

/-- What holds of the order and the places of the nodes of a builder. -/
structure Arranged (b : Builder) : Prop where
  lined : b.Lined
  doctype : b.KnowsDoctype
  contained : b.Contained
  top : b.topLevel.Pairwise (· < ·)

lemma arranged_empty : empty.Arranged := by
  refine ⟨?_, ?_, fun i n p hn => ?_, .nil⟩
  · constructor <;> simp [empty]
  · constructor <;> simp [empty]
  · simp [empty] at hn

lemma top_push (h : b.topLevel.Pairwise (· < ·)) (hnested : b.NestedWith now b.openIds)
    (kind : NodeKind) (span : Span) : (b.push kind span).topLevel.Pairwise (· < ·) := by
  rw [topLevel_push]
  split_ifs
  · rw [List.pairwise_append]
    refine ⟨h, List.pairwise_singleton _ _, fun i hi j hj => ?_⟩
    obtain ⟨n, hn, -⟩ := hnested.top i hi
    rw [List.mem_singleton.mp hj]
    exact (Array.getElem?_eq_some_iff.mp hn).1
  · exact h

lemma Arranged.push (h : b.Arranged) (hs : b.Steady phase now) (ht : b.Tagged text now)
    (hphase : phase ≠ .tag) {kind : NodeKind} {span : Span} (hle : now ≤ span.start)
    (hfilled : span.start < span.stop) (hkind : ∀ d, kind ≠ .doctype d) :
    (b.push kind span).Arranged := by
  have hnested := hs.nested_open hphase
  exact ⟨h.lined.push hnested hle hfilled, h.doctype.push hnested.openIds_lt hkind,
    h.contained.push ht hnested.openIds_lt hle, top_push h.top hnested kind span⟩

lemma Arranged.openTag (h : b.Arranged) (hs : b.Steady phase now) (ht : b.Tagged text now)
    (hphase : phase ≠ .tag) {name : QualifiedName} {span : Span} (hle : now ≤ span.start)
    (hfilled : span.start < span.stop) : (b.openTag name span).Arranged := by
  have hpush : (b.push (.element ⟨name, none, [], [], none, none, false⟩) span).Arranged :=
    h.push hs ht hphase hle hfilled (by rintro d ⟨⟩)
  have hsame : (b.push (.element ⟨name, none, [], [], none, none, false⟩) span).Alters []
      (b.openTag name span) := ⟨rfl, (alters_refl [] _).node⟩
  exact ⟨hpush.lined.alters hsame, hpush.doctype.alters hsame rfl, hpush.contained, hpush.top⟩

lemma Arranged.addDoctype (h : b.Arranged) (hs : b.Steady .head now) (ht : b.Tagged text now)
    (name : String) (external : Option ExternalId) (subset : Bool) {span : Span}
    (hle : now ≤ span.start) (hfilled : span.start < span.stop) :
    (b.addDoctype name external subset span).Arranged := by
  have hnested := hs.nested_open (by decide)
  have hknows := hs.knowsDoctype_addDoctype name external subset span
  have hpush (declared : DocumentType) : (b.push (.doctype declared) span).Lined ∧
      (b.push (.doctype declared) span).Contained ∧
      (b.push (.doctype declared) span).topLevel.Pairwise (· < ·) :=
    ⟨h.lined.push hnested hle hfilled, h.contained.push ht hnested.openIds_lt hle,
      top_push h.top hnested _ span⟩
  obtain ⟨hlined, hcontained, htop⟩ :=
    hpush ⟨name, external.bind (·.publicId), external.map (·.systemId), none⟩
  rw [Builder.addDoctype] at hknows ⊢
  dsimp only at hknows ⊢
  split_ifs at hknows ⊢ <;> exact ⟨⟨hlined.filled, hlined.before⟩, hknows, hcontained, htop⟩

/-- Elements that are altered stay where they are, and so does the end of their start tags. -/
lemma Arranged.alters (h : b.Arranged) (ha : b.Alters b.spine b') (hcontained : b'.Contained)
    (hid : b'.doctypeNode = b.doctypeNode) (htop : b'.topLevel = b.topLevel) : b'.Arranged :=
  ⟨h.lined.alters ha, h.doctype.alters ha hid, hcontained, htop ▸ h.top⟩

lemma Arranged.addAttribute (h : b.Arranged) (hs : b.Steady .tag now) (ht : b.Tagged text now)
    (name : QualifiedName) (value : String) (nameSpan valueSpan span : Span) :
    (b.addAttribute name value nameSpan valueSpan span).Arranged := by
  have ha := hs.alters_addAttribute name value nameSpan valueSpan span
  have htags : (b.addAttribute name value nameSpan valueSpan span).tags? = b.tags? := by
    rw [Builder.addAttribute]
    split
    · rfl
    · dsimp only
      rw [tags?_onElement_of_keeps _ _ fun _ => by exact ⟨rfl, rfl⟩,
        tags?_onNode _ _ fun _ => by rfl]
      rfl
  refine h.alters ha (h.contained.alters hs ht ha fun p start close stop? hp => ?_) ?_ ?_
  · exact ⟨stop?, by rw [htags, hp], .inl rfl⟩
  all_goals
    rw [Builder.addAttribute]
    split <;> rfl

/-- The end of a start tag leaves the tags of the elements around it alone. -/
lemma Contained.endOfStart (h : b.Contained) (hs : b.Steady phase now) (ht : b.Tagged text now)
    {p : OpenElement} (hp : b.pending = some p) (ha : b.Alters b.spine b')
    (htags : ∀ i, p.id ≠ i → b'.tags? i = b.tags? i) : b'.Contained := by
  refine h.alters hs ht ha fun q start close stop? hq => ⟨stop?, ?_, .inl rfl⟩
  rw [htags, hq]
  rintro rfl
  obtain ⟨_, hpending, -⟩ := ht.pending p hp
  rw [hpending] at hq
  cases hq

lemma Arranged.closeTag (h : b.Arranged) (hs : b.Steady .tag now) (ht : b.Tagged text now)
    (span : Span) : (b.closeTag span).Arranged := by
  obtain ⟨p, hp⟩ := Option.isSome_iff_exists.mp hs.fits
  have ha := hs.alters_closeTag span
  refine h.alters ha (h.contained.endOfStart hs ht hp ha fun i hi => ?_) ?_ ?_
  · rw [Builder.closeTag, hp]
    exact (b.tags?_endOfStart p.id span.stop (fun _ => by exact ⟨rfl, rfl⟩) i).trans (if_neg hi)
  all_goals
    rw [Builder.closeTag, hp]
    rfl

lemma Arranged.selfCloseTag (h : b.Arranged) (hs : b.Steady .tag now) (ht : b.Tagged text now)
    (span : Span) : (b.selfCloseTag span).Arranged := by
  obtain ⟨p, hp⟩ := Option.isSome_iff_exists.mp hs.fits
  have ha := hs.alters_selfCloseTag span
  refine h.alters ha (h.contained.endOfStart hs ht hp ha fun i hi => ?_) ?_ ?_
  · rw [Builder.selfCloseTag, hp]
    exact (b.tags?_endOfStart p.id span.stop (fun _ => by exact ⟨rfl, rfl⟩) i).trans (if_neg hi)
  all_goals
    rw [Builder.selfCloseTag, hp]
    rfl

lemma topLevel_endAll (b : Builder) (unclosed : List OpenElement) (stop : Nat) :
    (b.endAll unclosed stop).topLevel = b.topLevel := by
  induction unclosed generalizing b with
  | nil => rfl
  | cons o unclosed ih => exact ih (b.endAt o.id stop)

lemma doctypeNode_endAll (b : Builder) (unclosed : List OpenElement) (stop : Nat) :
    (b.endAll unclosed stop).doctypeNode = b.doctypeNode := by
  induction unclosed generalizing b with
  | nil => rfl
  | cons o unclosed ih => exact ih (b.endAt o.id stop)

/-- An end tag opens behind all that is in its element, which ends there if it was still open. -/
lemma Contained.endTag (h : b.Contained) (hs : b.Steady .body now) (ht : b.Tagged text now)
    (name : QualifiedName) {span : Span} (hle : now ≤ span.start) :
    (b.endTag name span).Contained := by
  have ha := hs.alters_endTag name span
  have hnested := hs.nested
  rw [Builder.endTag] at ha ⊢
  have hsplit := List.takeWhile_append_dropWhile (p := fun o : OpenElement => o.tag != name.text)
    (l := b.opened)
  generalize b.opened.takeWhile (fun o : OpenElement => o.tag != name.text) = unclosed
    at hsplit ha ⊢
  cases hd : b.opened.dropWhile (fun o : OpenElement => o.tag != name.text) with
  | nil => exact h
  | cons closed outside =>
      rw [hd] at ha
      have hspine : b.spine = unclosed.map (·.id) ++ closed.id :: outside.map (·.id) := by
        rw [spine_of_pending_none hs.fits, openIds, ← hsplit, hd, List.map_append, List.map_cons]
      rw [hspine] at hnested
      have hended := NestedWith.endAll unclosed hnested hle
      refine h.alters hs ht ha fun p start close stop? hp => ?_
      have htags := tags?_onElement ((b.endAll unclosed span.start).endAt closed.id span.stop)
        closed.id (f := fun e => { e with endTagOpen := some span.start })
        (g := fun tags => { tags with stop? := some span.start }) (fun _ _ => rfl) p
      rw [tags?_endAt, tags?_endAll, hp] at htags
      split_ifs at htags with hself
      · refine ⟨some span.start, htags, .inr fun i m hm hparent stop hstop => ?_⟩
        cases hstop
        -- a child of the element comes behind it, so its end is where it was before the end tag
        have hm' := hm
        dsimp only at hm'
        rw [onElement_eq, getElem?_onNode, Builder.endAt, getElem?_onNode, Option.map_map,
          Option.map_eq_some_iff] at hm'
        obtain ⟨n, hn, hnm⟩ := hm'
        have hchild : n.parent = some closed.id := by
          rw [hself, ← hparent, ← hnm, Function.comp_apply]
          split_ifs
          · rw [changeElement_parent]
          · rfl
        have hne : closed.id ≠ i := Nat.ne_of_lt (hended.inside i n closed.id hn hchild).1
        rw [Function.comp_apply, if_neg hne, if_neg hne] at hnm
        rw [← hnm]
        exact (hended.settled i n hn).before
      · exact ⟨stop?, htags, .inl rfl⟩

lemma Arranged.endTag (h : b.Arranged) (hs : b.Steady .body now) (ht : b.Tagged text now)
    (name : QualifiedName) {span : Span} (hle : now ≤ span.start) :
    (b.endTag name span).Arranged := by
  refine h.alters (hs.alters_endTag name span) (h.contained.endTag hs ht name hle) ?_ ?_
  · rw [Builder.endTag]
    split
    · rfl
    · exact doctypeNode_endAll b _ span.start
  · rw [Builder.endTag]
    split
    · rfl
    · exact topLevel_endAll b _ span.start

lemma Arranged.endSubset (h : b.Arranged) (hs : b.Steady .head now) (text : List Char) {span : Span}
    (hle : now ≤ span.start) (hfilled : span.start < span.stop) :
    (b.endSubset text span).Arranged := by
  cases hid : b.doctypeNode with
  | none =>
      rw [Builder.endSubset, hid]
      exact h
  | some id =>
      refine ⟨h.lined.endSubset hid h.doctype hs text hle hfilled,
        h.doctype.endSubset hid text span,
        .endSubset hs text span, ?_⟩
      rw [Builder.endSubset, hid]
      exact h.top

/-- One token that may come keeps the nodes arranged. -/
lemma Arranged.step (h : b.Arranged) (hs : b.Steady phase now) (ht : b.Tagged text now)
    {phase' : Phase} {t : Token} (hnext : t.next? phase = some phase') (hle : now ≤ t.span.start)
    (hfilled : t.span.start < t.span.stop) : (b.step text t).Arranged := by
  cases t with
  | doctype name external subset span =>
      cases phase <;> cases hnext
      exact h.addDoctype hs ht name external subset hle hfilled
  | subsetEnd span =>
      cases phase <;> cases hnext
      exact h.endSubset hs text hle hfilled
  | comment content span =>
      cases phase <;> cases hnext <;> exact h.push hs ht (by decide) hle hfilled (by rintro d ⟨⟩)
  | instruction target data span =>
      cases phase <;> cases hnext <;> exact h.push hs ht (by decide) hle hfilled (by rintro d ⟨⟩)
  | cdata content span =>
      cases phase <;> cases hnext
      exact h.push hs ht (by decide) hle hfilled (by rintro d ⟨⟩)
  | text content span =>
      cases phase <;> cases hnext
      exact h.push hs ht (by decide) hle hfilled (by rintro d ⟨⟩)
  | tagOpen name span =>
      cases phase <;> cases hnext <;> exact h.openTag hs ht (by decide) hle hfilled
  | «attribute» name value nameSpan valueSpan span =>
      cases phase <;> cases hnext
      exact h.addAttribute hs ht name value nameSpan valueSpan span
  | tagClose span =>
      cases phase <;> cases hnext
      exact h.closeTag hs ht span
  | tagSelfClose span =>
      cases phase <;> cases hnext
      exact h.selfCloseTag hs ht span
  | endTag name span =>
      cases phase <;> cases hnext
      exact h.endTag hs ht name hle

/-- At the end of the text the nodes stay arranged. -/
lemma Arranged.finish (h : b.Arranged) (hs : b.Steady phase now) (ht : b.Tagged text now)
    (length : Nat) : (b.finish length).Arranged := by
  have ha := hs.alters_finish length
  refine h.alters ha (h.contained.alters hs ht ha fun p start close stop? hp => ?_) ?_ ?_
  · exact ⟨stop?, by rw [tags?_finish, hp], .inl rfl⟩
  · rw [Builder.finish]
    split <;> exact doctypeNode_endAll _ _ length
  · rw [Builder.finish]
    split <;> exact topLevel_endAll _ _ length

/-- What may follow keeps the nodes arranged, to the end of the text. -/
lemma Arranged.foldl_step {tokens : List Token} (h : b.Arranged) (hs : b.Steady phase now)
    (ht : b.Tagged text now) (hfollow : Follow text.length phase now tokens)
    (hmarked : ∀ t ∈ tokens, t.Marked text) (hfilled : ∀ t ∈ tokens, t.span.start < t.span.stop) :
    ((tokens.foldl (Builder.step text) b).finish text.length).Arranged := by
  induction hfollow generalizing b with
  | nil inside => exact h.finish hs ht text.length
  | cons next behind ordered read more ih =>
      have hmark := hmarked _ (List.mem_cons_self ..)
      exact ih (h.step hs ht next behind (hfilled _ (List.mem_cons_self ..)))
        (hs.step next behind ordered read) (ht.step hs next behind ordered read hmark)
        (fun t ht => hmarked t (List.mem_cons_of_mem _ ht))
        fun t ht => hfilled t (List.mem_cons_of_mem _ ht)

end Builder

/-! ## The tree -/

namespace Tree

/-- Whether a node stands inside a document type, as what is in an internal subset does. -/
def InDoctype (t : Tree) (n : Node) : Prop :=
  ∃ (i : Nat) (d : Node), t.nodes[i]? = some d ∧ d.IsDoctype ∧ n.LiesIn d

/-- What holds of the nodes of a tree, whatever its text is. -/
structure WellNested (t : Tree) : Prop where
  /-- The number of a node is its place.  Nodes keep no number besides, so this holds of every tree
  as such; that the numbers which the builder writes down are those of the right nodes is what the
  clauses about parents and lists say. -/
  numbered : ∀ (i : Nat) (e : ElementNode), t.element? i = some e → e.id = i
  /-- Every node is listed once. -/
  listed : (t.topLevel ++ t.nodes.toList.flatMap Node.children).Perm t.ids
  top : ∀ (i : Nat) (n : Node), t.nodes[i]? = some n → (n.parent = none ↔ i ∈ t.topLevel)
  parent : ∀ (i : Nat) (n : Node) (p : Nat), t.nodes[i]? = some n →
    (n.parent = some p ↔ ∃ m, t.nodes[p]? = some m ∧ i ∈ m.children)
  parent_lt : ∀ (i : Nat) (n : Node) (p : Nat), t.nodes[i]? = some n → n.parent = some p → p < i
  ascending : t.topLevel.Pairwise (· < ·) ∧
    ∀ (p : Nat) (m : Node), t.nodes[p]? = some m → m.children.Pairwise (· < ·)
  filled : ∀ (i : Nat) (n : Node), t.nodes[i]? = some n →
    n.span.start < n.span.stop ∧ n.span.stop ≤ t.length
  /-- A node stands between the tags of its parent, or in what there is of it. -/
  contained : ∀ (i : Nat) (n : Node) (p : Nat), t.nodes[i]? = some n → n.parent = some p →
    ∃ e, t.element? p = some e ∧ (∃ close ∈ e.element.startTagClose, close < n.span.start) ∧
      n.span.stop ≤ e.element.endTagOpen.getD e.span.stop
  children_apart : ∀ (i j : Nat) (n m : Node) (p : Nat), t.nodes[i]? = some n →
    t.nodes[j]? = some m → i < j → n.parent = some p → m.parent = some p →
    n.span.stop ≤ m.span.start
  top_apart : ∀ (i j : Nat) (n m : Node), t.nodes[i]? = some n → t.nodes[j]? = some m → i < j →
    n.parent = none → m.parent = none → ¬ t.InDoctype n → ¬ t.InDoctype m →
    n.span.stop ≤ m.span.start

variable {t : Tree}

/-- Lists in which every number comes once and that name all nodes. -/
lemma listed_perm (hnests : t.Nests) (htop : t.topLevel.Pairwise (· < ·))
    (hchildren : ∀ (p : Nat) (m : Node), t.nodes[p]? = some m → m.children.Pairwise (· < ·)) :
    (t.topLevel ++ t.nodes.toList.flatMap Node.children).Perm t.ids := by
  have hmem {p : Nat} {m : Node} (hm : t.nodes[p]? = some m) {i : Nat} (hi : i ∈ m.children) :
      ∃ n, t.nodes[i]? = some n ∧ n.parent = some p := hnests.children p m hm i hi
  have hnodup (is : List Nat) (h : is.Pairwise (· < ·)) : is.Nodup := h.imp Nat.ne_of_lt
  refine (List.perm_ext_iff_of_nodup ?_ (List.nodup_range)).mpr fun i => ?_
  · rw [List.nodup_append, List.nodup_flatMap]
    refine ⟨hnodup _ htop, ⟨fun m hm => ?_, ?_⟩, ?_⟩
    · obtain ⟨p, hp⟩ := List.mem_iff_getElem?.mp hm
      exact hnodup _ (hchildren p m (by rwa [← Array.getElem?_toList]))
    · rw [List.pairwise_iff_getElem]
      intro p q hp hq hpq i hip hiq
      obtain ⟨n, hn, hparent⟩ := hmem (Array.getElem?_eq_getElem hp) hip
      obtain ⟨n', hn', hparent'⟩ := hmem (Array.getElem?_eq_getElem hq) hiq
      rw [hn, Option.some.injEq] at hn'
      rw [hn', hparent', Option.some.injEq] at hparent
      omega
    · rintro i hi _ hi' rfl
      obtain ⟨m, hm, him⟩ := List.mem_flatMap.mp hi'
      obtain ⟨p, hp⟩ := List.mem_iff_getElem?.mp hm
      obtain ⟨n, hn, hparent⟩ := hmem (by rwa [← Array.getElem?_toList]) him
      obtain ⟨n', hn', hnone⟩ := hnests.top i hi
      rw [hn, Option.some.injEq] at hn'
      rw [hn', hnone] at hparent
      cases hparent
  · rw [List.mem_append, List.mem_flatMap, List.mem_range]
    constructor
    · rintro (hi | ⟨m, hm, him⟩)
      · obtain ⟨n, hn, -⟩ := hnests.top i hi
        exact (Array.getElem?_eq_some_iff.mp hn).1
      · obtain ⟨p, hp⟩ := List.mem_iff_getElem?.mp hm
        obtain ⟨n, hn, -⟩ := hmem (by rwa [← Array.getElem?_toList]) him
        exact (Array.getElem?_eq_some_iff.mp hn).1
    · intro hi
      have hn := Array.getElem?_eq_getElem hi
      cases hparent : (t.nodes[i]).parent with
      | none => exact .inl (hnests.outside i _ hn hparent)
      | some p =>
          obtain ⟨-, m, hm, him, -⟩ := hnests.inside i _ p hn hparent
          refine .inr ⟨m, ?_, him⟩
          rw [← Array.getElem?_toList] at hm
          exact List.mem_of_getElem? hm

/-- The element whose tags are known. -/
lemma element?_of_tags? {n : Node} {p start : Nat} {close? stop? : Option Nat}
    (hn : t.nodes[p]? = some n) (htags : n.tags? = some ⟨start, close?, stop?⟩) :
    ∃ e, t.element? p = some e ∧ e.span = n.span ∧ e.element.startTagClose = close? ∧
      e.element.endTagOpen = stop? := by
  rw [Node.tags?, Option.map_eq_some_iff] at htags
  obtain ⟨element, helement, htags⟩ := htags
  cases htags
  exact ⟨⟨p, n.parent, n.span, element⟩, by simp [element?, hn, helement], rfl, rfl, rfl⟩

/-- A child begins behind the start tag of its parent. -/
lemma exists_startTag_before {text : List Char} {i p : Nat} {n : Node}
    (hn : (Tree.parse text).nodes[i]? = some n) (hp : n.parent = some p) :
    ∃ e, (Tree.parse text).element? p = some e ∧
      ∃ close, e.element.startTagClose = some close ∧ close < n.span.start := by
  have harranged := Builder.arranged_empty.foldl_step Builder.steady_empty Builder.tagged_empty
    (follow_scanAll text) (marked_of_mem_scanAll text) (filled_of_mem_scanAll text)
  obtain ⟨start, close, stop?, htags, hafter, -⟩ := harranged.contained i n p hn hp
  obtain ⟨m, hm, htags⟩ := Option.bind_eq_some_iff.mp htags
  obtain ⟨e, he, -, hclose, -⟩ := element?_of_tags? (t := Tree.parse text) hm htags
  exact ⟨e, he, close, hclose, hafter⟩

/-- **Every tree is well nested**, whatever faults its text has. -/
theorem parse_wellNested (text : List Char) : (Tree.parse text).WellNested := by
  have hnests := parse_nests text
  have hshaped := parse_shaped text
  have harranged := Builder.arranged_empty.foldl_step Builder.steady_empty Builder.tagged_empty
    (follow_scanAll text) (marked_of_mem_scanAll text) (filled_of_mem_scanAll text)
  have hlined {i j : Nat} {n m : Node} (hn : (Tree.parse text).nodes[i]? = some n)
      (hm : (Tree.parse text).nodes[j]? = some m) (hij : i < j) (hp : m.parent = n.parent) :
      n.Before m := by
    cases hel : n.element? with
    | none => exact harranged.lined.before i j n m hn hm hij hel
    | some e => exact .inl (hnests.apart i j n m hn hm hij hp (.inl (by rw [hel]; rfl)))
  have hascending (p : Nat) (m : Node) (hm : (Tree.parse text).nodes[p]? = some m) :
      m.children.Pairwise (· < ·) := by
    rw [Node.children_eq]
    cases hel : m.element? with
    | none => exact .nil
    | some e => exact (hshaped.placed p m hm).ascending e hel
  constructor
  case numbered => exact fun i e he => (element?_eq_some he).1
  case listed => exact listed_perm hnests harranged.top hascending
  case top =>
    intro i n hn
    refine ⟨hnests.outside i n hn, fun hi => ?_⟩
    obtain ⟨n', hn', hnone⟩ := hnests.top i hi
    rw [hn, Option.some.injEq] at hn'
    rwa [hn']
  case parent =>
    intro i n p hn
    constructor
    · intro hp
      obtain ⟨-, m, hm, hi, -⟩ := hnests.inside i n p hn hp
      exact ⟨m, hm, hi⟩
    · rintro ⟨m, hm, hi⟩
      obtain ⟨n', hn', hp⟩ := hnests.children p m hm i hi
      rw [hn, Option.some.injEq] at hn'
      rwa [hn']
  case parent_lt => exact fun i n p hn hp => (hnests.inside i n p hn hp).1
  case ascending => exact ⟨harranged.top, hascending⟩
  case filled =>
    intro i n hn
    have hsettled := hnests.settled i n hn
    refine ⟨?_, hsettled.before⟩
    cases hel : n.element? with
    | none => exact harranged.lined.filled i n hn hel
    | some e => exact hsettled.filled e hel
  case contained =>
    intro i n p hn hp
    obtain ⟨start, close, stop?, htags, hafter, hinside⟩ := harranged.contained i n p hn hp
    obtain ⟨m, hm, htags⟩ := Option.bind_eq_some_iff.mp htags
    obtain ⟨e, he, hspan, hclose, hstop⟩ := element?_of_tags? (t := Tree.parse text) hm htags
    refine ⟨e, he, ⟨close, hclose, hafter⟩, ?_⟩
    rw [hstop]
    cases stop? with
    | some stop => exact hinside stop rfl
    | none =>
        obtain ⟨-, m', hm', -, -, hwithin⟩ := hnests.inside i n p hn hp
        obtain rfl : m' = m := Option.some.inj (hm'.symm.trans hm)
        rw [Option.getD_none, hspan]
        exact hwithin.resolve_left List.not_mem_nil
  case children_apart =>
    intro i j n m p hn hm hij hp hp'
    rcases hlined hn hm hij (hp'.trans hp.symm) with hle | ⟨hdoctype, -⟩
    · exact hle
    · rw [(harranged.doctype.latest i n hn hdoctype).1] at hp
      cases hp
  case top_apart =>
    intro i j n m hn hm hij hp hp' _ hout
    rcases hlined hn hm hij (hp'.trans hp.symm) with hle | ⟨hdoctype, -, -, hin⟩
    · exact hle
    · exact absurd ⟨i, n, hn, hdoctype, hin⟩ hout

end Tree

end XmlAdvisor
