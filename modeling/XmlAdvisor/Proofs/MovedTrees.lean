import XmlAdvisor.Proofs.MovedScans
import XmlAdvisor.Proofs.NodeStarts
import XmlAdvisor.Proofs.TreeOrder

/-!
# Trees of moved tokens

Tokens that stand further on build the same nodes further on.  Where some of the tokens are moved
and others are not, the nodes that begin before stay where they are; of these, the elements that are
still open end further on.

* `Node.moved`, `Node.endMoved` — a node further on, and a node that only ends there.
* `Builder.moved` — a builder of which the nodes from some number on are moved, and the ends of
  others.
* **`Builder.moved_step`** — a token further on does to it what the token does.
-/

namespace XmlAdvisor

/-! ## Nodes further on -/

/-- An attribute that stands `k` characters further on. -/
def Attribute.moved (k : Nat) (a : Attribute) : Attribute :=
  { a with nameSpan := a.nameSpan.moved k, valueSpan := a.valueSpan.moved k }

/-- An element that stands `k` characters further on. -/
def Element.moved (k : Nat) (e : Element) : Element :=
  { e with
    attributes := e.attributes.map (·.moved k)
    startTagClose := e.startTagClose.map (· + k)
    endTagOpen := e.endTagOpen.map (· + k) }

/-- An element of which the end tag stands `k` characters further on. -/
def Element.endMoved (k : Nat) (e : Element) : Element :=
  { e with endTagOpen := e.endTagOpen.map (· + k) }

/-- A node that stands `k` characters further on. -/
def Node.moved (k : Nat) (n : Node) : Node :=
  { n with span := n.span.moved k }.changeElement (·.moved k)

/-- A node that begins where it did and ends `k` characters further on. -/
def Node.endMoved (k : Nat) (n : Node) : Node :=
  { n with span.stop := n.span.stop + k }.changeElement (·.endMoved k)

/-- The node with a number, where nodes are moved from the number `first` on, and of those before
only the ends of some. -/
def Node.carried (k first : Nat) (ended : Nat → Bool) (id : Nat) (n : Node) : Node :=
  if first ≤ id then n.moved k else if ended id then n.endMoved k else n

namespace Node

variable {k first id : Nat} {ended ended' : Nat → Bool} {f g : Element → Element}

lemma carried_congr (h : id < first → ended' id = ended id) (n : Node) :
    n.carried k first ended' id = n.carried k first ended id := by
  rw [carried, carried]
  split_ifs with hid hended' hended hended
  · rfl
  · rfl
  · rw [h (by omega)] at hended'
    exact absurd hended' hended
  · rw [h (by omega)] at hended'
    exact absurd hended hended'
  · rfl

lemma moved_changeElement (h : ∀ e, (f e).moved k = g (e.moved k)) (n : Node) :
    (n.changeElement f).moved k = (n.moved k).changeElement g := by
  obtain ⟨parent, span, kind⟩ := n
  cases kind with
  | element e => simp [moved, changeElement, h]
  | _ => rfl

lemma endMoved_changeElement (h : ∀ e, (f e).endMoved k = g (e.endMoved k)) (n : Node) :
    (n.changeElement f).endMoved k = (n.endMoved k).changeElement g := by
  obtain ⟨parent, span, kind⟩ := n
  cases kind with
  | element e => simp [endMoved, changeElement, h]
  | _ => rfl

/-- A change that has nothing to do with places. -/
lemma carried_changeElement (hmoved : ∀ e, (f e).moved k = f (e.moved k))
    (hended : ∀ e, (f e).endMoved k = f (e.endMoved k)) (n : Node) :
    (n.changeElement f).carried k first ended id =
      (n.carried k first ended id).changeElement f := by
  rw [carried, carried]
  split_ifs
  · exact moved_changeElement hmoved n
  · exact endMoved_changeElement hended n
  · rfl

lemma moved_stop (n : Node) (stop : Nat) :
    ({ n with span.stop := stop } : Node).moved k = { n.moved k with span.stop := stop + k } := by
  obtain ⟨parent, span, kind⟩ := n
  cases kind <;> rfl

/-- Whether no end tag has been read of a node. -/
def Unended (n : Node) : Prop :=
  ∀ e, n.element? = some e → e.endTagOpen = none

lemma endMoved_stop {n : Node} (h : n.Unended) (stop : Nat) :
    ({ n with span.stop := stop } : Node).endMoved k = { n with span.stop := stop + k } := by
  obtain ⟨parent, span, kind⟩ := n
  cases kind with
  | element e =>
      obtain ⟨name, uri, attributes, children, close, ending, selfClosed⟩ := e
      cases (h _ rfl : ending = none)
      rfl
  | _ => rfl

end Node

namespace Builder

variable {b : Builder} {k first id : Nat} {ended ended' : Nat → Bool}

/-- A builder whose nodes are moved from the number `first` on, and of those before only the ends of
some. -/
def moved (k first : Nat) (ended : Nat → Bool) (b : Builder) : Builder :=
  { b with nodes := b.nodes.mapIdx (Node.carried k first ended) }

/-! ## Changes of nodes -/

lemma moved_congr (h : ∀ i < first, ended' i = ended i) :
    b.moved k first ended' = b.moved k first ended := by
  have hcarried : Node.carried k first ended' = Node.carried k first ended := by
    funext i n
    exact Node.carried_congr (h i) n
  rw [moved, moved, hcarried]

lemma moved_onNode {f g : Node → Node} (hsame : ∀ i < first, i ≠ id → ended' i = ended i)
    (h : ∀ n, b.nodes[id]? = some n →
      (f n).carried k first ended' id = g (n.carried k first ended id)) :
    (b.onNode id f).moved k first ended' = (b.moved k first ended).onNode id g := by
  have hnodes : (b.onNode id f).nodes.mapIdx (Node.carried k first ended') =
      (b.nodes.mapIdx (Node.carried k first ended)).modify id g := by
    refine Array.ext_getElem? fun i => ?_
    rw [Array.getElem?_mapIdx, getElem?_onNode, Array.getElem?_modify, Array.getElem?_mapIdx]
    cases hn : b.nodes[i]? with
    | none => simp
    | some n =>
        by_cases hi : id = i
        · subst hi
          simp [h n hn]
        · rw [if_neg hi, Option.map_some, Option.map_some, Option.map_some, if_neg hi,
            Node.carried_congr fun hlt => hsame i hlt (Ne.symm hi)]
  rw [moved, hnodes]
  rfl

/-- A change of an element that has nothing to do with places. -/
lemma moved_onElement_of_keeps {f : Element → Element} (hmoved : ∀ e, (f e).moved k = f (e.moved k))
    (hended : ∀ e, (f e).endMoved k = f (e.endMoved k)) :
    (b.onElement id f).moved k first ended = (b.moved k first ended).onElement id f := by
  rw [onElement_eq, onElement_eq]
  exact moved_onNode (fun _ _ _ => rfl) fun n _ => Node.carried_changeElement hmoved hended n

lemma moved_resolve : (b.resolve id).moved k first ended = (b.moved k first ended).resolve id :=
  moved_onElement_of_keeps (fun _ => rfl) fun _ => rfl

section Behind

variable (hid : first ≤ id)
include hid

/-- A change of a node that is moved. -/
lemma moved_onNode_of_le {f g : Node → Node} (h : ∀ n, (f n).moved k = g (n.moved k)) :
    (b.onNode id f).moved k first ended = (b.moved k first ended).onNode id g := by
  refine moved_onNode (fun _ _ _ => rfl) fun n _ => ?_
  rw [Node.carried, Node.carried, if_pos hid, if_pos hid, h]

lemma moved_onElement_of_le {f g : Element → Element} (h : ∀ e, (f e).moved k = g (e.moved k)) :
    (b.onElement id f).moved k first ended = (b.moved k first ended).onElement id g := by
  rw [onElement_eq, onElement_eq]
  exact moved_onNode_of_le hid (Node.moved_changeElement h)

lemma moved_endAt_of_le (stop : Nat) :
    (b.endAt id stop).moved k first ended = (b.moved k first ended).endAt id (stop + k) :=
  moved_onNode_of_le hid fun n => n.moved_stop stop

end Behind

/-- Whether no end tag has been read of the element with a number. -/
def Unended (b : Builder) (id : Nat) : Prop :=
  ∀ tags, b.tags? id = some tags → tags.stop? = none

lemma Unended.of_tags {b' : Builder} (h : b.Unended id) (htags : b'.tags? = b.tags?) :
    b'.Unended id := by
  rw [Unended, htags]
  exact h

lemma Unended.node (h : b.Unended id) {n : Node} (hn : b.nodes[id]? = some n) : n.Unended := by
  intro e he
  refine h ⟨n.span.start, e.startTagClose, e.endTagOpen⟩ ?_
  rw [tags?, hn, Option.bind_some, Node.tags?, he]
  rfl

/-- A node that has begun before ends further on. -/
lemma moved_endAt (ended : Nat → Bool) (h : id < first → b.Unended id) (stop : Nat) :
    (b.endAt id stop).moved k first (fun i => ended i || i == id) =
      (b.moved k first ended).endAt id (stop + k) := by
  refine moved_onNode (fun i _ hi => by simp [hi]) fun n hn => ?_
  by_cases hid : first ≤ id
  · rw [Node.carried, Node.carried, if_pos hid, if_pos hid, Node.moved_stop]
  · have hunended := (h (Nat.lt_of_not_le hid)).node hn
    have hstop : n.endMoved k = { n with span.stop := n.span.stop + k } :=
      Node.endMoved_stop hunended n.span.stop
    rw [Node.carried, Node.carried, if_neg hid, if_neg hid, if_pos (by simp),
      Node.endMoved_stop hunended]
    split_ifs
    · rw [hstop]
    · rfl

/-- Elements that have begun before end further on. -/
lemma moved_endAll (ended : Nat → Bool) (unclosed : List OpenElement)
    (h : ∀ o ∈ unclosed, o.id < first → b.Unended o.id) (stop : Nat) :
    (b.endAll unclosed stop).moved k first (fun i => ended i || (unclosed.map (·.id)).contains i) =
      (b.moved k first ended).endAll unclosed (stop + k) := by
  induction unclosed generalizing b ended with
  | nil =>
      refine moved_congr fun i _ => ?_
      rw [List.map_nil, List.contains_nil, Bool.or_false]
  | cons o unclosed ih =>
      have hunended : ∀ o' ∈ unclosed, o'.id < first → (b.endAt o.id stop).Unended o'.id :=
        fun o' ho hlt => (h o' (List.mem_cons_of_mem _ ho) hlt).of_tags (b.tags?_endAt o.id stop)
      have hfirst := moved_endAt (k := k) ended (h o List.mem_cons_self) stop
      have hmore := ih (fun i => ended i || i == o.id) hunended
      rw [hfirst] at hmore
      refine Eq.trans (moved_congr fun i _ => ?_) hmore
      rw [List.map_cons, List.contains_cons, Bool.or_assoc]

/-! ## New nodes -/

lemma moved_size : (b.moved k first ended).nodes.size = b.nodes.size :=
  Array.size_mapIdx

/-- A node that is added is moved. -/
lemma moved_push {kind : NodeKind} {span : Span} (hsize : first ≤ b.nodes.size)
    (hkind : ∀ parent, (Node.mk parent span kind).moved k = ⟨parent, span.moved k, kind⟩) :
    (b.push kind span).moved k first ended = (b.moved k first ended).push kind (span.moved k) := by
  have hnodes (parent : Option Nat) :
      (b.nodes.push ⟨parent, span, kind⟩).mapIdx (Node.carried k first ended) =
      (b.nodes.mapIdx (Node.carried k first ended)).push ⟨parent, span.moved k, kind⟩ := by
    rw [Array.mapIdx_push, Node.carried, if_pos hsize, hkind]
  rw [push, push, moved_size]
  cases hopened : b.opened with
  | nil =>
      rw [show (b.moved k first ended).opened = [] from hopened]
      dsimp only
      rw [moved, hnodes]
      rfl
  | cons parent outside =>
      rw [show (b.moved k first ended).opened = parent :: outside from hopened]
      dsimp only
      refine (moved_onElement_of_keeps
        (f := fun e => { e with children := e.children ++ [b.nodes.size] })
        (fun _ => rfl) fun _ => rfl).trans ?_
      rw [moved, hnodes]
      rfl

/-! ## Tags -/

lemma moved_openTag {name : QualifiedName} {span : Span} (hsize : first ≤ b.nodes.size) :
    (b.openTag name span).moved k first ended = (b.moved k first ended).openTag name
    (span.moved k) := by
  rw [openTag, openTag, moved_size, ← moved_push hsize fun _ => rfl]
  rfl

lemma map_putAttribute (a : Attribute) (attributes : List Attribute) :
    (putAttribute a attributes).map (·.moved k) = putAttribute (a.moved k)
    (attributes.map (·.moved k)) := by
  induction attributes with
  | nil => rfl
  | cons b attributes ih =>
      by_cases hb : b.name = a.name
      · have hb' : (b.moved k).name = (a.moved k).name := hb
        rw [putAttribute, if_pos hb, List.map_cons, List.map_cons, putAttribute, if_pos hb']
      · have hb' : ¬(b.moved k).name = (a.moved k).name := hb
        rw [putAttribute, if_neg hb, List.map_cons, List.map_cons, putAttribute, if_neg hb', ih]

lemma moved_maxStop (n : Node) (stop : Nat) :
    ({ n with span.stop := max n.span.stop stop } : Node).moved k =
      { n.moved k with span.stop := max (n.moved k).span.stop (stop + k) } := by
  have hstop : (n.moved k).span.stop = n.span.stop + k := by
    obtain ⟨parent, span, kind⟩ := n
    cases kind <;> rfl
  rw [Node.moved_stop, hstop, Nat.add_max_add_right]

lemma moved_addAttribute {name : QualifiedName} {value : String} {nameSpan valueSpan span : Span}
    (hpending : ∀ p ∈ b.pending, first ≤ p.id) :
    (b.addAttribute name value nameSpan valueSpan span).moved k first ended =
      (b.moved k first ended).addAttribute name value (nameSpan.moved k) (valueSpan.moved k)
        (span.moved k) := by
  rw [addAttribute, addAttribute]
  cases hp : b.pending with
  | none => rw [show (b.moved k first ended).pending = none from hp]
  | some p =>
      have hid := hpending p hp
      rw [show (b.moved k first ended).pending = some p from hp]
      have hattribute (e : Element) :
          ({ e with
              attributes := putAttribute ⟨name.text, value, nameSpan, valueSpan⟩ e.attributes } :
            Element).moved k = { e.moved k with
              attributes := putAttribute ⟨name.text, value, nameSpan.moved k, valueSpan.moved k⟩
                (e.moved k).attributes } := by
        rw [Element.moved, map_putAttribute]
        rfl
      refine (moved_onElement_of_le hid hattribute).trans (congrArg (onElement · p.id _) ?_)
      exact moved_onNode_of_le hid fun n => moved_maxStop n span.stop

/-- A start tag that ends. -/
lemma moved_endOfStart (ended : Nat → Bool) {f g : Element → Element} (hid : first ≤ id)
    (h : ∀ e, (f e).moved k = g (e.moved k)) (stop : Nat) :
    (((b.resolve id).endAt id stop).onElement id f).moved k first ended =
      ((((b.moved k first ended).resolve id).endAt id (stop + k)).onElement id g) := by
  rw [moved_onElement_of_le hid h, moved_endAt_of_le hid, moved_resolve]

lemma moved_closeTag {span : Span} (hpending : ∀ p ∈ b.pending, first ≤ p.id) :
    (b.closeTag span).moved k first ended = (b.moved k first ended).closeTag (span.moved k) := by
  rw [closeTag, closeTag]
  cases hp : b.pending with
  | none => rw [show (b.moved k first ended).pending = none from hp]
  | some p =>
      rw [show (b.moved k first ended).pending = some p from hp]
      have hend := moved_endOfStart (b := b) (k := k) ended (hpending p hp)
        (f := fun e => { e with startTagClose := some span.start })
        (g := fun e => { e with startTagClose := some (span.moved k).start })
          (fun _ => rfl) span.stop
      exact congrArg (fun b' => ({ b' with pending := none, opened := p :: b'.opened } : Builder))
        hend

lemma moved_selfCloseTag {span : Span} (hpending : ∀ p ∈ b.pending, first ≤ p.id)
    (hstop : 0 < span.stop) :
    (b.selfCloseTag span).moved k first ended = (b.moved k first ended).selfCloseTag
      (span.moved k) := by
  rw [selfCloseTag, selfCloseTag]
  cases hp : b.pending with
  | none => rw [show (b.moved k first ended).pending = none from hp]
  | some p =>
      rw [show (b.moved k first ended).pending = some p from hp]
      have hstop' : (span.moved k).stop - 1 = span.stop - 1 + k := Nat.sub_add_comm hstop
      have hend := moved_endOfStart (b := b) (k := k) ended (hpending p hp)
        (f := fun e => { e with startTagClose := some (span.stop - 1), selfClosed := true })
        (g := fun e => { e with
          startTagClose := some ((span.moved k).stop - 1), selfClosed := true })
        (fun e => by rw [hstop']; rfl) span.stop
      exact congrArg (fun b' => ({ b' with pending := none, scope := p.outer } : Builder)) hend

/-- Where an end tag opens is moved with the end of its element. -/
lemma moved_onElement_endTagOpen (ended : Nat → Bool) (h : first ≤ id ∨ ended id = true)
    (start : Nat) :
    (b.onElement id fun e => { e with endTagOpen := some start }).moved k first ended =
      (b.moved k first ended).onElement id fun e => { e with endTagOpen := some (start + k) } := by
  rw [onElement_eq, onElement_eq]
  refine moved_onNode (fun _ _ _ => rfl) fun n _ => ?_
  rw [Node.carried, Node.carried]
  split_ifs
  · refine n.moved_changeElement ?_
    exact fun _ => rfl
  · refine n.endMoved_changeElement ?_
    exact fun _ => rfl
  · rcases h with hid | hended
    · exact absurd hid ‹_›
    · exact absurd hended ‹_›

/-- Which of some elements are open no more. -/
def endedSince (ids : List Nat) (b : Builder) (id : Nat) : Bool :=
  ids.contains id && !b.openIds.contains id

/-- What is known of a builder of which the nodes are moved from some number on: what is open has a
greater number, or was open when that number was reached. -/
structure GrownFrom (first : Nat) (ids : List Nat) (b : Builder) : Prop where
  size : first ≤ b.nodes.size
  pending : ∀ p ∈ b.pending, first ≤ p.id
  opened : ∀ o ∈ b.opened, o.id < first → o.id ∈ ids

variable {ids : List Nat}

lemma endedSince_of_opened {b' : Builder} (h : b'.opened = b.opened) :
    endedSince ids b' = endedSince ids b := by
  funext i
  rw [endedSince, endedSince, openIds, openIds, h]

/-- An end tag ends the elements that it closes, wherever they have begun. -/
lemma moved_endTag (h : b.GrownFrom first ids) (hnodup : b.openIds.Nodup)
    (hunended : ∀ o ∈ b.opened, b.Unended o.id) (name : QualifiedName) (span : Span) :
    (b.endTag name span).moved k first (endedSince ids (b.endTag name span)) =
      (b.moved k first (endedSince ids b)).endTag name (span.moved k) := by
  have hsplit := List.takeWhile_append_dropWhile (p := fun o : OpenElement => o.tag != name.text)
    (l := b.opened)
  have hopened : (b.moved k first (endedSince ids b)).opened = b.opened := rfl
  rw [endTag, endTag, hopened]
  generalize b.opened.takeWhile (fun o : OpenElement => o.tag != name.text) = unclosed at hsplit ⊢
  cases hd : b.opened.dropWhile (fun o : OpenElement => o.tag != name.text) with
  | nil => rfl
  | cons closed outside =>
      rw [hd] at hsplit
      dsimp only
      have hopenIds : b.openIds = unclosed.map (·.id) ++ closed.id :: outside.map (·.id) := by
        rw [openIds, ← hsplit, List.map_append, List.map_cons]
      have hunclosed : ∀ o ∈ unclosed, o.id < first → b.Unended o.id :=
        fun o ho _ => hunended o (by rw [← hsplit]; exact List.mem_append_left _ ho)
      have hclosed : closed.id < first → (b.endAll unclosed span.start).Unended closed.id :=
        fun _ => (hunended closed (by rw [← hsplit]; simp)).of_tags
        (b.tags?_endAll unclosed span.start)
      have hended : ∀ i < first, (ids.contains i && !(outside.map (·.id)).contains i) =
          (endedSince ids b i || (unclosed.map (·.id)).contains i || i == closed.id) := by
        intro i hi
        rw [hopenIds] at hnodup
        have hmem : i ∈ b.openIds → i ∈ ids := by
          intro hopen
          obtain ⟨o, ho, rfl⟩ := List.mem_map.mp hopen
          exact h.opened o ho hi
        rw [hopenIds] at hmem
        have hapart : i ∈ outside.map (·.id) → i ∉ unclosed.map (·.id) ∧ i ≠ closed.id := by
          intro hout
          obtain ⟨-, htail, hdisjoint⟩ := List.nodup_append.mp hnodup
          refine ⟨fun hin => hdisjoint i hin i (List.mem_cons_of_mem _ hout) rfl, ?_⟩
          rintro rfl
          exact (List.nodup_cons.mp htail).1 hout
        rw [endedSince, hopenIds, Bool.eq_iff_iff]
        simp only [Bool.and_eq_true, Bool.or_eq_true, Bool.not_eq_true', List.contains_eq_mem,
          decide_eq_true_eq, decide_eq_false_iff_not, beq_iff_eq, List.mem_append,
            List.mem_cons] at hmem ⊢
        tauto
      have hall := moved_endAll (k := k) (endedSince ids b) unclosed hunclosed span.start
      have hend := moved_endAt (k := k)
        (fun i => endedSince ids b i || (unclosed.map (·.id)).contains i) hclosed span.stop
      rw [hall] at hend
      have htag := moved_onElement_endTagOpen (k := k)
        (b := (b.endAll unclosed span.start).endAt closed.id span.stop)
        (fun i => endedSince ids b i || (unclosed.map (·.id)).contains i || i == closed.id)
        (.inr (by simp) : first ≤ closed.id ∨ _) span.start
      rw [hend] at htag
      refine (moved_congr hended).trans ?_
      exact congrArg (fun b' => ({ b' with opened := outside, scope := closed.outer } : Builder))
        htag

/-! ## Tokens -/

variable {text : List Char} {phase phase' : Phase} {now : Nat}

/-- No end tag has been read of an open element. -/
lemma Tagged.unended (h : b.Tagged text now) {o : OpenElement} (ho : o ∈ b.opened) :
    b.Unended o.id :=
  fun _ htags => h.stop_eq_none (mem_spine_of_opened ho) htags

lemma Steady.nodup_openIds (h : b.Steady phase now) (hphase : phase ≠ .tag) : b.openIds.Nodup :=
  (h.nested_open hphase).descending.imp Nat.ne_of_gt

/-- What becomes of a builder by a token. -/
lemma GrownFrom.step (h : b.GrownFrom first ids) (t : Token) :
    (b.step text t).GrownFrom first ids := by
  have hsize := Nat.le_trans h.size (b.size_le_step text t)
  have hsame {b' : Builder} (hsize : first ≤ b'.nodes.size) (hopened : b'.opened = b.opened)
      (hpending : ∀ p ∈ b'.pending, first ≤ p.id) : b'.GrownFrom first ids :=
    ⟨hsize, hpending, by rw [hopened]; exact h.opened⟩
  have hpush (kind : NodeKind) (span : Span) : ∀ p ∈ (b.push kind span).pending, first ≤ p.id := by
    rw [pending_push]
    exact h.pending
  cases t with
  | doctype name external subset span =>
      refine hsame hsize ?_ ?_
      all_goals
        rw [Builder.step, Builder.addDoctype]
        dsimp only
      · split_ifs <;> exact opened_push _ _ _
      · split_ifs <;> exact hpush _ _
  | subsetEnd span =>
      refine hsame hsize ?_ ?_
      all_goals rw [Builder.step, Builder.endSubset]
      · split <;> rfl
      · split <;> exact h.pending
  | comment content span => exact hsame hsize (opened_push _ _ _) (hpush _ _)
  | instruction target data span => exact hsame hsize (opened_push _ _ _) (hpush _ _)
  | cdata content span => exact hsame hsize (opened_push _ _ _) (hpush _ _)
  | text content span => exact hsame hsize (opened_push _ _ _) (hpush _ _)
  | tagOpen name span =>
      refine hsame hsize (opened_push _ _ _) ?_
      rintro p ⟨⟩
      exact h.size
  | «attribute» name value nameSpan valueSpan span =>
      refine hsame hsize ?_ ?_
      all_goals rw [Builder.step, Builder.addAttribute]
      · split <;> rfl
      · split <;> exact h.pending
  | tagClose span =>
      refine ⟨hsize, ?_, ?_⟩
      all_goals
        rw [Builder.step, Builder.closeTag]
        split
      · exact h.pending
      · rintro p ⟨⟩
      · exact h.opened
      · rename_i p hp
        intro o ho hlt
        rcases List.mem_cons.mp ho with rfl | ho
        · exact absurd (h.pending _ hp) (Nat.not_le_of_lt hlt)
        · exact h.opened o ho hlt
  | tagSelfClose span =>
      refine hsame hsize ?_ ?_
      all_goals
        rw [Builder.step, Builder.selfCloseTag]
        split
      · rfl
      · rfl
      · exact h.pending
      · rintro p ⟨⟩
  | endTag name span =>
      refine ⟨hsize, ?_, ?_⟩
      all_goals
        rw [Builder.step, Builder.endTag]
        split
      · exact h.pending
      · intro p hp
        refine h.pending p ?_
        rw [← pending_endAll b _ span.start]
        exact hp
      · exact h.opened
      · rename_i closed outside hd
        intro o ho
        have hmem : o ∈ b.opened.dropWhile (fun o : OpenElement => o.tag != name.text) := by
          rw [hd]
          exact List.mem_cons_of_mem _ ho
        exact h.opened o ((List.dropWhile_suffix _).subset hmem)

/-- No token leads back before the document element. -/
lemma next?_ne_head {t : Token} (h : t.next? phase = some phase') (hphase : phase ≠ .head) :
    phase' ≠ .head := by
  rintro rfl
  cases phase with
  | head => exact hphase rfl
  | tag => cases t <;> cases h
  | body => cases t <;> cases h

/-- **A token further on does to moved nodes what the token does to the nodes.** -/
theorem moved_step (text' : List Char) (h : b.GrownFrom first ids) (hs : b.Steady phase now)
    (ht : b.Tagged text now) {t : Token} (hphase : phase ≠ .head)
    (hnext : t.next? phase = some phase')
    (hfilled : 0 < t.span.stop) :
    (b.step text t).moved k first (endedSince ids (b.step text t)) =
      (b.moved k first (endedSince ids b)).step text' (t.moved k) := by
  have hpush (kind : NodeKind) (span : Span)
      (hkind : ∀ parent, (Node.mk parent span kind).moved k = ⟨parent, span.moved k, kind⟩) :
      (b.push kind span).moved k first (endedSince ids (b.push kind span)) =
        (b.moved k first (endedSince ids b)).push kind (span.moved k) := by
    rw [endedSince_of_opened (opened_push b kind span)]
    exact moved_push h.size hkind
  cases t with
  | doctype name external subset span =>
      cases phase with
      | head => exact absurd rfl hphase
      | tag | body => cases hnext
  | subsetEnd span =>
      cases phase with
      | head => exact absurd rfl hphase
      | tag | body => cases hnext
  | comment content span => exact hpush _ _ fun _ => rfl
  | instruction target data span => exact hpush _ _ fun _ => rfl
  | cdata content span => exact hpush _ _ fun _ => rfl
  | text content span => exact hpush _ _ fun _ => rfl
  | tagOpen name span =>
      have hopened : (b.openTag name span).opened = b.opened := opened_push _ _ _
      rw [step, endedSince_of_opened hopened]
      exact moved_openTag h.size
  | «attribute» name value nameSpan valueSpan span =>
      have hopened : (b.addAttribute name value nameSpan valueSpan span).opened = b.opened := by
        rw [addAttribute]
        split <;> rfl
      rw [step, endedSince_of_opened hopened]
      exact moved_addAttribute h.pending
  | tagClose span =>
      rw [step]
      refine (moved_congr fun i hi => ?_).trans (moved_closeTag h.pending)
      rw [closeTag]
      split
      · rfl
      · rename_i p hp
        -- the element that is opened now is moved anyway
        have hne : (i == p.id) = false := by
          have hle := h.pending p hp
          rw [beq_eq_false_iff_ne]
          omega
        rw [endedSince, endedSince, openIds, List.map_cons, List.contains_cons, hne, Bool.false_or]
        rfl
  | tagSelfClose span =>
      have hopened : (b.selfCloseTag span).opened = b.opened := by
        rw [selfCloseTag]
        split <;> rfl
      rw [step, endedSince_of_opened hopened]
      exact moved_selfCloseTag h.pending hfilled
  | endTag name span =>
      cases phase <;> cases hnext
      exact moved_endTag h (hs.nodup_openIds (by decide)) (fun o ho => ht.unended ho) name span

/-- **Tokens further on build the same nodes further on.** -/
theorem moved_foldl {tokens : List Token} (text' : List Char) (h : b.GrownFrom first ids)
    (hs : b.Steady phase now) (ht : b.Tagged text now) (hphase : phase ≠ .head)
    (hfollow : Follow text.length phase now tokens)
    (hmarked : ∀ t ∈ tokens, t.Marked text) (hfilled : ∀ t ∈ tokens, t.span.start < t.span.stop) :
    (tokens.foldl (Builder.step text) b).GrownFrom first ids ∧
      (tokens.foldl (Builder.step text) b).moved k first
          (endedSince ids (tokens.foldl (Builder.step text) b)) =
        (tokens.map (·.moved k)).foldl (Builder.step text')
          (b.moved k first (endedSince ids b)) := by
  induction tokens generalizing b phase now with
  | nil => exact ⟨h, rfl⟩
  | cons t tokens ih =>
      cases hfollow with
      | @cons _ phase' _ _ _ next behind ordered read more =>
          have hstop : 0 < t.span.stop :=
            Nat.lt_of_le_of_lt (Nat.zero_le _) (hfilled t List.mem_cons_self)
          have hphase' := next?_ne_head next hphase
          have hmark := hmarked t List.mem_cons_self
          obtain ⟨hgrown, hmoved⟩ := ih (h.step t) (hs.step next behind ordered read)
            (ht.step hs next behind ordered read hmark) hphase' more
            (fun t ht => hmarked t (List.mem_cons_of_mem _ ht))
            fun t ht => hfilled t (List.mem_cons_of_mem _ ht)
          refine ⟨hgrown, hmoved.trans ?_⟩
          rw [moved_step text' h hs ht hphase next hstop]
          rfl

/-- What is open at the end ends there, further on. -/
theorem moved_finish (h : b.GrownFrom first ids) (hunended : ∀ o ∈ b.opened, b.Unended o.id)
    (length : Nat) :
    (b.finish length).moved k first ids.contains =
      (b.moved k first (endedSince ids b)).finish (length + k) := by
  have hended (b' : Builder) (htags : b'.tags? = b.tags?) :
      (b'.endAll b.opened length).moved k first ids.contains =
        (b'.moved k first (endedSince ids b)).endAll b.opened (length + k) := by
    rw [← moved_endAll (endedSince ids b) b.opened fun o ho _ => (hunended o ho).of_tags htags]
    refine moved_congr fun i hi => ?_
    have hmem : i ∈ b.openIds → i ∈ ids := by
      intro hopen
      obtain ⟨o, ho, rfl⟩ := List.mem_map.mp hopen
      exact h.opened o ho hi
    rw [endedSince, openIds] at *
    rw [Bool.eq_iff_iff]
    simp only [Bool.and_eq_true, Bool.or_eq_true, Bool.not_eq_true', List.contains_eq_mem,
      decide_eq_true_eq, decide_eq_false_iff_not] at hmem ⊢
    tauto
  rw [finish, finish]
  cases hp : b.pending with
  | none =>
      rw [show (b.moved k first (endedSince ids b)).pending = none from hp]
      exact hended b rfl
  | some p =>
      rw [show (b.moved k first (endedSince ids b)).pending = some p from hp]
      have hend : ((b.resolve p.id).endAt p.id length).moved k first (endedSince ids b) =
          ((b.moved k first (endedSince ids b)).resolve p.id).endAt p.id (length + k) := by
        rw [moved_endAt_of_le (h.pending p hp), moved_resolve]
      have htags : ((b.resolve p.id).endAt p.id length).tags? = b.tags? :=
        (tags?_endAt _ _ _).trans (tags?_resolve _ _)
      have hall := hended _ htags
      rw [hend] at hall
      exact hall

end Builder

end XmlAdvisor
