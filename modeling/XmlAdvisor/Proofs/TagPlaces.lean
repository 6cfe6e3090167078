import XmlAdvisor.Proofs.TokenSpans
import XmlAdvisor.Proofs.TreeNesting

/-!
# Where tags are written

An element tells where its start tag closes and where its end tag opens.  For every text a `>`
stands at the one and `</` at the other, in this order and inside the element, so what lies between
them is the content of the element and nothing else.

* `Token.Marked` — whether the text has at a token what the token says.
* `marked_of_mem_scanAll` — all tokens of a text are marked.
* `Builder.Ended` — whether end tags open inside their elements.
* `Builder.Tagged` — what a builder knows of the tags of elements, kept by every token.
* **`Tree.content_between_tags`** — what stands around the content of an element.
-/

namespace XmlAdvisor

/-! ## Tokens -/

/-- Whether the text has, where a token begins, the mark of a tag that ends or of an end tag. -/
def Token.Marked (text : List Char) : Token → Prop
  | .tagClose span => text[span.start]? = some '>'
  | .endTag _ span => "</".toList <+: text.drop span.start ∧ span.start < span.stop
  | _ => True

/-- Before the document element there are neither. -/
lemma Token.marked_of_head {t : Token} {phase : Phase} (h : t.next? .head = some phase)
    (text : List Char) : t.Marked text := by
  cases t with
  | tagClose span => cases h
  | endTag name span => cases h
  | _ => trivial

/-- What is read at a cursor stands in the text. -/
lemma Cursor.ReadsFrom.getElem?_of_head? {c : Cursor} {text : List Char} {d : Char}
    (hc : c.ReadsFrom text) (hd : c.rest.head? = some d) : text[c.offset]? = some d := by
  rw [hc, List.head?_drop] at hd
  exact hd

namespace Scan

variable {text : List Char}

/-- Whether the text has at what was read what it says, if there is a token. -/
abbrev Shown (text : List Char) (t : Option Token) : Prop :=
  ∀ x ∈ t, x.Marked text

lemma shown_some {t : Token} (h : t.Marked text) : Shown text (some t) := by
  rintro x ⟨⟩
  exact h

/-- A token that is no end of a tag, over the span that has been read. -/
lemma ends_shown (token : Span → Token) (h : ∀ span, (token span).Marked text) (start : Nat) :
    (do return some (token (← spanFrom start)) : Scan (Option Token)).Yields (Shown text) :=
  .andThen (spanFrom_advances start) fun span => .pure (shown_some (h span))

lemma cdata_shown : cdata.Yields (Shown text) :=
  .andThen offset_advances fun start => .andThen (skip_advances _) fun _ =>
    .andThen (content_advances _) fun _ => .andThen (literal_advances _) fun _ =>
    ends_shown (.cdata _) (fun _ => trivial) start

lemma text_shown : Scan.text.Yields (Shown text) :=
  .andThen offset_advances fun start => .andThen (content_advances _) fun _ =>
    .guarded (ends_shown (.text _) (fun _ => trivial) start)

lemma tagAttribute_shown : tagAttribute.Yields (Shown text) :=
  .andThen offset_advances fun start => .andThen qualifiedName_advances fun key =>
    .andThen (spanFrom_advances start) fun nameSpan => .andThen equals_advances fun _ =>
    .andThen quote_advances fun mark => .andThen offset_advances fun valueStart =>
    .andThen (content_advances _) fun _ =>
    .andThen (spanFrom_advances valueStart) fun valueSpan => .andThen (char_advances mark) fun _ =>
    ends_shown (.attribute key _ nameSpan valueSpan) (fun _ => trivial) start

/-- An end tag begins where the cursor stands. -/
lemma endTag_shown {c c' : Cursor} {t : Option Token} (hc : c.ReadsFrom text)
    (hopen : c.startsWith "</" = true) (h : endTag c = .ok (t, c')) : Shown text t := by
  obtain ⟨start, _, ⟨⟩, h⟩ := bind_ok h
  obtain ⟨_, _, ⟨⟩, h⟩ := bind_ok h
  obtain ⟨_, _, hname, h⟩ := bind_ok h
  obtain ⟨_, _, hspaces, h⟩ := bind_ok h
  obtain ⟨_, _, hchar, h⟩ := bind_ok h
  obtain ⟨_, _, ⟨⟩, h⟩ := bind_ok h
  cases h
  obtain ⟨⟨n, rfl⟩, -⟩ := qualifiedName_advances _ _ _ hname
  obtain ⟨⟨k, rfl⟩, -⟩ := spaces_advances _ _ _ hspaces
  obtain ⟨⟨l, rfl⟩, -⟩ := char_advances '>' _ _ _ hchar
  refine shown_some ⟨?_, ?_⟩
  · rw [Cursor.ReadsFrom] at hc
    show "</".toList <+: text.drop c.offset
    rw [← hc]
    exact List.isPrefixOf_iff_prefix.mp hopen
  · show c.offset < c.offset + "</".length + n + k + l
    have hlength : 0 < "</".length := by decide
    omega

/-- The end of a start tag is seen before it is read. -/
lemma tagPart_shown {c c' : Cursor} {t : Option Token} (hc : c.ReadsFrom text)
    (h : tagPart c = .ok (t, c')) : Shown text t := by
  cases tagPart_ok h with
  | selfClose _ _ htoken => exact htoken ▸ shown_some trivial
  | close hmark _ htoken => exact htoken ▸ shown_some ((hc.advance _).getElem?_of_head? hmark)
  | «attribute» _ _ _ hread => exact (tagAttribute_shown _ t c' hread).2

end Scan

/-- **All tokens of a text are marked in it.** -/
theorem marked_of_mem_scanAll (text : List Char) : ∀ t ∈ (scanAll text).1, t.Marked text := by
  intro t ht
  obtain ⟨c, c', hc, hrest, hread⟩ := read_of_mem_scanAll text t ht
  have hinside : c.offset ≤ text.length := by
    have hle := hc.add_length_le hrest
    omega
  -- what may come before the document element is no end of a tag
  have hhead {scan : Scan (Option Token)} {phase : Phase}
      (hscan : scan.Covers text (Scan.Leads .head phase)) (h : scan c = .ok (some t, c')) :
      t.Marked text := by
    obtain ⟨-, -, -, hleads, -⟩ := hscan c (some t) c' hc hinside h
    exact Token.marked_of_head hleads.2 text
  cases hread with
  | skipped h => cases h
  | comment h => exact hhead (Scan.comment_covers (by decide)) h
  | instruction h => exact hhead (Scan.instruction_covers (by decide)) h
  | doctype h => exact hhead Scan.doctype_covers h
  | subsetEnd h => exact hhead Scan.subsetEnd_covers h
  | tagOpen _ h => exact hhead (Scan.tagOpen_covers (by decide)) h
  | cdata h => exact (Scan.cdata_shown c _ c' h).2 t rfl
  | text _ h => exact (Scan.text_shown c _ c' h).2 t rfl
  | tagPart h => exact Scan.tagPart_shown hc h t rfl
  | endTag hopens h => exact Scan.endTag_shown hc hopens h t rfl

/-! ## What a builder knows of tags -/

/-- Where a start tag begins and closes and where the end tag opens, as far as they have been
read. -/
structure Tags where
  start : Nat
  close? : Option Nat
  stop? : Option Nat

namespace Node

variable {n m : Node} {now now' : Nat} {f : Element → Element}

/-- Where the tags of a node are. -/
def tags? (n : Node) : Option Tags :=
  n.element?.map fun e => ⟨n.span.start, e.startTagClose, e.endTagOpen⟩

lemma tags?_changeElement {g : Tags → Tags}
    (hf : ∀ e start, Tags.mk start (f e).startTagClose (f e).endTagOpen =
      g ⟨start, e.startTagClose, e.endTagOpen⟩)
    (n : Node) : (n.changeElement f).tags? = n.tags?.map g := by
  rw [changeElement]
  split
  · rename_i e hkind
    simp [tags?, element?, hkind, hf]
  · rename_i hkind
    have hnone : n.element? = none := by
      rw [element?]
      split
      · rename_i e he
        exact absurd he (hkind e)
      · rfl
    simp [tags?, hnone]

lemma tags?_changeElement_of_keeps
    (hf : ∀ e, (f e).startTagClose = e.startTagClose ∧ (f e).endTagOpen = e.endTagOpen)
    (n : Node) : (n.changeElement f).tags? = n.tags? := by
  rw [tags?_changeElement (g := fun tags => tags) (fun e start => by rw [(hf e).1, (hf e).2]),
    Option.map_id']

/-- Whether the end tag of a node, if it has been read, opens inside the node. -/
def Ended (now : Nat) (n : Node) : Prop :=
  ∀ stop ∈ n.tags?.bind Tags.stop?, stop < n.span.stop ∧ stop < now

/-- A node without a new end tag, whose span has not become shorter than what had been read. -/
lemma Ended.of_stop (h : n.Ended now) (hle : now ≤ now')
    (htags : m.tags?.bind Tags.stop? = n.tags?.bind Tags.stop?)
    (hstop : m.span.stop = n.span.stop ∨ now ≤ m.span.stop) : m.Ended now' := by
  intro stop hmem
  rw [htags] at hmem
  obtain ⟨hspan, hnow⟩ := h stop hmem
  refine ⟨?_, Nat.lt_of_lt_of_le hnow hle⟩
  rcases hstop with hsame | hlater
  · rwa [hsame]
  · exact Nat.lt_of_lt_of_le hnow hlater

end Node

/-- Whether the content of an element stands between a `>` and a `</`. -/
structure Between (text : List Char) (close stop : Nat) : Prop where
  order : close < stop
  before : text[close]? = some '>'
  behind : "</".toList <+: text.drop stop

namespace Builder

variable {text : List Char} {b b' : Builder} {now now' : Nat} {phase : Phase}

/-- Where the tags of an element are. -/
def tags? (b : Builder) (id : Nat) : Option Tags :=
  b.nodes[id]?.bind Node.tags?

/-- Whether all end tags that have been read open inside their elements. -/
def Ended (now : Nat) (b : Builder) : Prop :=
  ∀ (i : Nat) (n : Node), b.nodes[i]? = some n → n.Ended now

/-! ### Changes of nodes -/

lemma tags?_onNode (b : Builder) (id : Nat) {f : Node → Node} (hf : ∀ n, (f n).tags? = n.tags?) :
    (b.onNode id f).tags? = b.tags? := by
  funext i
  rw [tags?, tags?, getElem?_onNode]
  cases b.nodes[i]? with
  | none => rfl
  | some n =>
      show (if id = i then f n else n).tags? = n.tags?
      split_ifs
      · exact hf n
      · rfl

lemma tags?_onElement (b : Builder) (id : Nat) {f : Element → Element} {g : Tags → Tags}
    (hf : ∀ e start, Tags.mk start (f e).startTagClose (f e).endTagOpen =
      g ⟨start, e.startTagClose, e.endTagOpen⟩) (i : Nat) :
    (b.onElement id f).tags? i = if id = i then (b.tags? i).map g else b.tags? i := by
  rw [onElement_eq, tags?, tags?, getElem?_onNode]
  cases b.nodes[i]? with
  | none => simp
  | some n =>
      show (if id = i then n.changeElement f else n).tags? = if id = i then n.tags?.map g
        else n.tags?
      split_ifs
      · exact Node.tags?_changeElement hf n
      · rfl

lemma tags?_endAt (b : Builder) (id stop : Nat) : (b.endAt id stop).tags? = b.tags? :=
  b.tags?_onNode id fun _ => rfl

lemma tags?_endAll (b : Builder) (unclosed : List OpenElement) (stop : Nat) :
    (b.endAll unclosed stop).tags? = b.tags? := by
  induction unclosed generalizing b with
  | nil => rfl
  | cons o unclosed ih => exact (ih (b.endAt o.id stop)).trans (b.tags?_endAt o.id stop)

lemma tags?_onElement_of_keeps (b : Builder) (id : Nat) {f : Element → Element}
    (hf : ∀ e, (f e).startTagClose = e.startTagClose ∧ (f e).endTagOpen = e.endTagOpen) :
    (b.onElement id f).tags? = b.tags? :=
  b.tags?_onNode id (Node.tags?_changeElement_of_keeps hf)

lemma tags?_resolve (b : Builder) (id : Nat) : (b.resolve id).tags? = b.tags? :=
  b.tags?_onElement_of_keeps id fun _ => ⟨rfl, rfl⟩

/-- What the end of a start tag changes. -/
lemma tags?_endOfStart (b : Builder) (id stop : Nat) {f : Element → Element} {close : Nat}
    (hf : ∀ e, (f e).startTagClose = some close ∧ (f e).endTagOpen = e.endTagOpen) (i : Nat) :
    (((b.resolve id).endAt id stop).onElement id f).tags? i =
      if id = i then (b.tags? i).map fun tags => { tags with close? := some close }
      else b.tags? i := by
  rw [← b.tags?_resolve id, ← (b.resolve id).tags?_endAt id stop]
  exact tags?_onElement _ id (fun e start => by rw [(hf e).1, (hf e).2]) i

lemma tags?_adopt (b : Builder) (i : Nat) (n : Node) : (b.adopt i n).tags? = n.tags? := by
  rw [adopt]
  split_ifs
  · exact Node.tags?_changeElement_of_keeps (fun _ => by exact ⟨rfl, rfl⟩) n
  · rfl

/-- A new node has its own tags, and the others keep theirs. -/
lemma tags?_push (b : Builder) (kind : NodeKind) (span : Span)
    (hopen : ∀ id ∈ b.openIds, id < b.nodes.size) (i : Nat) : (b.push kind span).tags? i =
      if i = b.nodes.size then (Node.mk b.openIds.head? span kind).tags? else b.tags? i := by
  rw [tags?, tags?, nodes_push b kind span hopen]
  split_ifs
  · rfl
  · cases b.nodes[i]? with
    | none => rfl
    | some n => exact b.tags?_adopt i n

/-! ### End tags inside their elements -/

lemma Ended.mono (h : b.Ended now) (hle : now ≤ now') : b.Ended now' :=
  fun i n hn => (h i n hn).of_stop hle rfl (.inl rfl)

/-- A change of one node without a new end tag. -/
lemma Ended.onNode (h : b.Ended now) (id : Nat) {f : Node → Node}
    (htags : ∀ n, (f n).tags?.bind Tags.stop? = n.tags?.bind Tags.stop?)
    (hstop : ∀ n, (f n).span.stop = n.span.stop ∨ now ≤ (f n).span.stop) :
    (b.onNode id f).Ended now := by
  intro i m hm
  rw [getElem?_onNode] at hm
  obtain ⟨n, hn, rfl⟩ := Option.map_eq_some_iff.mp hm
  split_ifs
  · exact (h i n hn).of_stop (Nat.le_refl _) (htags n) (hstop n)
  · exact h i n hn

lemma Ended.endAt (h : b.Ended now) (id : Nat) {stop : Nat} (hle : now ≤ stop) :
    (b.endAt id stop).Ended now :=
  h.onNode id (fun _ => rfl) fun _ => .inr hle

lemma Ended.endAll (h : b.Ended now) (unclosed : List OpenElement) {stop : Nat} (hle : now ≤ stop) :
    (b.endAll unclosed stop).Ended now := by
  induction unclosed generalizing b with
  | nil => exact h
  | cons o unclosed ih => exact ih (h.endAt o.id hle)

lemma Ended.onElement (h : b.Ended now) (id : Nat) {f : Element → Element}
    (hf : ∀ e, (f e).endTagOpen = e.endTagOpen) : (b.onElement id f).Ended now := by
  rw [onElement_eq]
  refine h.onNode id (fun n => ?_) fun n => .inl (by rw [stop_changeElement])
  rw [Node.changeElement]
  split
  · rename_i e hkind
    simp [Node.tags?, Node.element?, hkind, hf]
  · rfl

lemma Ended.resolve (h : b.Ended now) (id : Nat) : (b.resolve id).Ended now :=
  h.onElement id fun _ => by rfl

/-- An end tag opens inside its element, which ends where the end tag does. -/
lemma Ended.endTag (h : b.Ended now) (id : Nat) {start stop : Nat} (hle : now ≤ stop)
    (hlt : start < stop) :
    ((b.endAt id stop).onElement id fun e => { e with endTagOpen := some start }).Ended stop := by
  have hended := (h.endAt id hle).mono hle
  intro i m hm
  rw [onElement_eq, getElem?_onNode] at hm
  obtain ⟨n, hn, rfl⟩ := Option.map_eq_some_iff.mp hm
  split_ifs with hi
  · subst hi
    intro opening hopening
    rw [Node.tags?_changeElement (g := fun tags => { tags with stop? := some start })
      fun _ _ => rfl] at hopening
    obtain ⟨_, hfound, hopening⟩ := Option.bind_eq_some_iff.mp hopening
    obtain ⟨_, -, rfl⟩ := Option.map_eq_some_iff.mp hfound
    cases hopening
    rw [stop_changeElement, stop_endAt b id stop hn]
    exact ⟨hlt, hlt⟩
  · exact hended i n hn

/-- The end of a start tag has no effect on where end tags are. -/
lemma Ended.endOfStart (h : b.Ended now) (id : Nat) {stop : Nat} (hle : now ≤ stop)
    {f : Element → Element} (hf : ∀ e, (f e).endTagOpen = e.endTagOpen) :
    (((b.resolve id).endAt id stop).onElement id f).Ended stop :=
  (((h.resolve id).endAt id hle).onElement id hf).mono hle

lemma Ended.push (h : b.Ended now) (hopen : ∀ id ∈ b.openIds, id < b.nodes.size) {kind : NodeKind}
    {span : Span}
    (hkind : (Node.mk b.openIds.head? span kind).tags?.bind Tags.stop? = none) :
    (b.push kind span).Ended now := by
  intro i m hm
  rcases getElem?_push_cases hopen hm with ⟨-, rfl⟩ | ⟨n, hn, rfl⟩
  · rintro stop hstop
    rw [hkind] at hstop
    cases hstop
  · exact (h i n hn).of_stop (Nat.le_refl _) (by rw [tags?_adopt]) (.inl (by rw [adopt_span]))

/-! ### The invariant -/

/-- What a builder knows of the tags of elements when a text has been read up to an offset. -/
structure Tagged (text : List Char) (now : Nat) (b : Builder) : Prop where
  opened : ∀ o ∈ b.opened, ∃ start close, b.tags? o.id = some ⟨start, some close, none⟩ ∧
    start < close ∧ close < now ∧ text[close]? = some '>'
  pending : ∀ o ∈ b.pending, ∃ start, b.tags? o.id = some ⟨start, none, none⟩ ∧ start < now
  closed : ∀ i start close? stop, b.tags? i = some ⟨start, close?, some stop⟩ →
    ∃ close, close? = some close ∧ start < close ∧ Between text close stop
  ended : b.Ended now

lemma tagged_empty : empty.Tagged text 0 := by
  constructor <;> simp [empty, tags?, Ended]

/-- A change that leaves all tags where they are. -/
lemma Tagged.of_tags (h : b.Tagged text now) (hle : now ≤ now') (htags : b'.tags? = b.tags?)
    (hopened : b'.opened = b.opened) (hpending : b'.pending = b.pending) (hended : b'.Ended now) :
    b'.Tagged text now' := by
  constructor
  case opened =>
    intro o ho
    rw [hopened] at ho
    obtain ⟨start, close, hclose, hlt, hbefore, hmark⟩ := h.opened o ho
    exact ⟨start, close, by rw [htags, hclose], hlt, Nat.lt_of_lt_of_le hbefore hle, hmark⟩
  case pending =>
    intro o ho
    rw [hpending] at ho
    obtain ⟨start, hstart, hlt⟩ := h.pending o ho
    exact ⟨start, by rw [htags, hstart], Nat.lt_of_lt_of_le hlt hle⟩
  case closed =>
    rw [htags]
    exact h.closed
  case ended => exact hended.mono hle

lemma Tagged.pushOther (h : b.Tagged text now) (hs : b.Steady phase now) (hphase : phase ≠ .tag)
    {kind : NodeKind} {span : Span} (hle : now ≤ now')
    (hkind : ∀ parent, (Node.mk parent span kind).element? = none) :
    (b.push kind span).Tagged text now' := by
  have hlt := (hs.nested_open hphase).openIds_lt
  have hnone (parent : Option Nat) : (Node.mk parent span kind).tags? = none := by
    simp [Node.tags?, hkind]
  refine h.of_tags hle (funext fun i => ?_) (opened_push b kind span) (pending_push b kind span)
    (h.ended.push hlt (by rw [hnone]; rfl))
  rw [b.tags?_push kind span hlt]
  split_ifs with hi
  · rw [hi, hnone]
    simp [tags?]
  · rfl

lemma Tagged.openTag (h : b.Tagged text now) (hs : b.Steady phase now) (hphase : phase ≠ .tag)
    {name : QualifiedName} {span : Span} (hle : now ≤ span.start) (hread : span.start < span.stop) :
    (b.openTag name span).Tagged text span.stop := by
  have hnow : now ≤ span.stop := Nat.le_trans hle (Nat.le_of_lt hread)
  have hlt := (hs.nested_open hphase).openIds_lt
  have htags (i : Nat) : (b.openTag name span).tags? i =
      if i = b.nodes.size then some ⟨span.start, none, none⟩ else b.tags? i :=
    b.tags?_push _ span hlt i
  constructor
  case opened =>
    intro o ho
    have ho : o ∈ b.opened := by rwa [Builder.openTag, opened_push] at ho
    obtain ⟨start, close, hclose, hafter, hbefore, hmark⟩ := h.opened o ho
    have hne : o.id ≠ b.nodes.size := Nat.ne_of_lt (hlt o.id (List.mem_map_of_mem ho))
    exact ⟨start, close, by rw [htags, if_neg hne, hclose], hafter,
      Nat.lt_of_lt_of_le hbefore hnow, hmark⟩
  case pending =>
    rintro o ⟨⟩
    exact ⟨span.start, by rw [htags, if_pos rfl], hread⟩
  case closed =>
    intro i start close? stop hi
    rw [htags] at hi
    split_ifs at hi
    · cases hi
    · exact h.closed i start close? stop hi
  case ended => exact (h.ended.mono hnow).push hlt rfl

lemma Tagged.addAttribute (h : b.Tagged text now) (name : QualifiedName) (value : String)
    (nameSpan valueSpan : Span) {span : Span} (hle : now ≤ span.stop) :
    (b.addAttribute name value nameSpan valueSpan span).Tagged text span.stop := by
  rw [Builder.addAttribute]
  split
  · exact h.of_tags hle rfl rfl rfl h.ended
  · refine h.of_tags hle ?_ rfl rfl ?_
    · dsimp only
      rw [tags?_onElement_of_keeps _ _ fun _ => by exact ⟨rfl, rfl⟩,
        tags?_onNode _ _ fun _ => by rfl]
      rfl
    · have hended : ({ b with scope := (bindingOf name value).toList ++ b.scope }).Ended now :=
        h.ended
      refine (hended.onNode _ (fun _ => by rfl) fun n => .inr ?_).onElement _ fun _ => by rfl
      exact Nat.le_trans hle (Nat.le_max_right ..)

lemma pending_ne_opened (hs : b.Steady phase now) {p o : OpenElement} (hp : b.pending = some p)
    (ho : o ∈ b.opened) : p.id ≠ o.id := by
  have hspine : b.spine = p.id :: b.openIds := by rw [spine, hp]; rfl
  have hdescending := hs.nested.descending
  rw [hspine, List.pairwise_cons] at hdescending
  exact Nat.ne_of_gt (hdescending.1 o.id (List.mem_map_of_mem ho))

/-- The element whose start tag ends gets the place where it does; there is no end tag yet. -/
lemma Tagged.resolvePending (h : b.Tagged text now) (hs : b.Steady phase now) {p : OpenElement}
    (hp : b.pending = some p) {close : Nat}
    (htags : ∀ i, b'.tags? i =
      if p.id = i then (b.tags? i).map fun tags => { tags with close? := some close }
      else b.tags? i) :
    (∃ start < now, b'.tags? p.id = some ⟨start, some close, none⟩) ∧
      (∀ o ∈ b.opened, b'.tags? o.id = b.tags? o.id) ∧
      ∀ i start close? stop, b'.tags? i = some ⟨start, close?, some stop⟩ →
        ∃ close, close? = some close ∧ start < close ∧ Between text close stop := by
  obtain ⟨start, hstart, hlt⟩ := h.pending p hp
  have hself : b'.tags? p.id = some ⟨start, some close, none⟩ := by
    rw [htags, if_pos rfl, hstart]
    rfl
  refine ⟨⟨start, hlt, hself⟩, fun o ho => ?_, fun i start close? stop hi => ?_⟩
  · rw [htags, if_neg (pending_ne_opened hs hp ho)]
  · by_cases hpi : p.id = i
    · rw [← hpi, hself] at hi
      cases hi
    · rw [htags, if_neg hpi] at hi
      exact h.closed i start close? stop hi

lemma Tagged.closeTag (h : b.Tagged text now) (hs : b.Steady .tag now) {span : Span}
    (hle : now ≤ span.start) (hstop : span.stop = span.start + 1)
    (hmark : text[span.start]? = some '>') : (b.closeTag span).Tagged text span.stop := by
  obtain ⟨p, hp⟩ := Option.isSome_iff_exists.mp hs.fits
  have htags (i : Nat) : (b.closeTag span).tags? i =
      if p.id = i then (b.tags? i).map fun tags => { tags with close? := some span.start }
      else b.tags? i := by
    rw [Builder.closeTag, hp]
    exact b.tags?_endOfStart p.id span.stop (fun _ => by exact ⟨rfl, rfl⟩) i
  obtain ⟨⟨start, hstart, hself⟩, hopened, hclosed⟩ := h.resolvePending hs hp htags
  constructor
  case opened =>
    intro o ho
    have ho : o ∈ p :: b.opened := by rwa [Builder.closeTag, hp] at ho
    rcases List.mem_cons.mp ho with rfl | ho
    · exact ⟨start, span.start, hself, by omega, by omega, hmark⟩
    · obtain ⟨start, close, hclose, hafter, hbefore, hseen⟩ := h.opened o ho
      exact ⟨start, close, (hopened o ho).trans hclose, hafter, by omega, hseen⟩
  case pending =>
    rw [Builder.closeTag, hp]
    rintro o ⟨⟩
  case closed => exact hclosed
  case ended =>
    rw [Builder.closeTag, hp]
    exact h.ended.endOfStart p.id (by omega) fun _ => by rfl

lemma Tagged.selfCloseTag (h : b.Tagged text now) (hs : b.Steady .tag now) {span : Span}
    (hle : now ≤ span.stop) : (b.selfCloseTag span).Tagged text span.stop := by
  obtain ⟨p, hp⟩ := Option.isSome_iff_exists.mp hs.fits
  have htags (i : Nat) : (b.selfCloseTag span).tags? i =
      if p.id = i then (b.tags? i).map fun tags => { tags with close? := some (span.stop - 1) }
      else b.tags? i := by
    rw [Builder.selfCloseTag, hp]
    exact b.tags?_endOfStart p.id span.stop (fun _ => by exact ⟨rfl, rfl⟩) i
  obtain ⟨-, hopened, hclosed⟩ := h.resolvePending hs hp htags
  constructor
  case opened =>
    intro o ho
    have ho : o ∈ b.opened := by rwa [Builder.selfCloseTag, hp] at ho
    obtain ⟨start, close, hclose, hafter, hbefore, hseen⟩ := h.opened o ho
    exact ⟨start, close, (hopened o ho).trans hclose, hafter, Nat.lt_of_lt_of_le hbefore hle, hseen⟩
  case pending =>
    rw [Builder.selfCloseTag, hp]
    rintro o ⟨⟩
  case closed => exact hclosed
  case ended =>
    rw [Builder.selfCloseTag, hp]
    exact h.ended.endOfStart p.id hle fun _ => by rfl

/-- The element that an end tag closes had its start tag closed before. -/
lemma Tagged.endTag (h : b.Tagged text now) (hs : b.Steady .body now) (name : QualifiedName)
    {span : Span} (hle : now ≤ span.start) (hordered : span.start < span.stop)
    (hmark : "</".toList <+: text.drop span.start) :
    (b.endTag name span).Tagged text span.stop := by
  have hnow : now ≤ span.stop := Nat.le_trans hle (Nat.le_of_lt hordered)
  rw [Builder.endTag]
  have hsplit := List.takeWhile_append_dropWhile (p := fun o : OpenElement => o.tag != name.text)
    (l := b.opened)
  generalize b.opened.takeWhile (fun o : OpenElement => o.tag != name.text) = unclosed at hsplit ⊢
  cases hd : b.opened.dropWhile (fun o : OpenElement => o.tag != name.text) with
  | nil => exact h.of_tags hnow rfl rfl rfl h.ended
  | cons element outside =>
      rw [hd] at hsplit
      have hmem {o : OpenElement} (ho : o ∈ element :: outside) : o ∈ b.opened :=
        hsplit ▸ List.mem_append_right unclosed ho
      obtain ⟨start, close, hclose, hafter, hbefore, hseen⟩ :=
        h.opened element (hmem (List.mem_cons_self ..))
      have hpending : b.pending = none := hs.pending_none (by decide)
      have hne : ∀ o ∈ outside, element.id ≠ o.id := by
        intro o ho
        have hdescending := (hs.nested_open (by decide)).descending
        rw [openIds, ← hsplit, List.map_append, List.map_cons, List.pairwise_append,
          List.pairwise_cons] at hdescending
        exact Nat.ne_of_gt (hdescending.2.1.1 o.id (List.mem_map_of_mem ho))
      have htags (i : Nat) := tags?_onElement ((b.endAll unclosed span.start).endAt element.id
        span.stop) element.id (f := fun e => { e with endTagOpen := some span.start })
        (g := fun tags => { tags with stop? := some span.start }) (fun _ _ => rfl) i
      rw [tags?_endAt, tags?_endAll] at htags
      constructor
      case opened =>
        intro o ho
        obtain ⟨start, close, hclose, hafter, hbefore, hseen⟩ :=
          h.opened o (hmem (List.mem_cons_of_mem element ho))
        refine ⟨start, close, ?_, hafter, Nat.lt_of_lt_of_le hbefore hnow, hseen⟩
        exact (htags o.id).trans ((if_neg (hne o ho)).trans hclose)
      case pending =>
        intro o ho
        have ho : o ∈ (b.endAll unclosed span.start).pending := ho
        rw [pending_endAll, hpending] at ho
        cases ho
      case closed =>
        intro i start close? stop hi
        replace hi := (htags i).symm.trans hi
        split_ifs at hi with hself
        · rw [← hself, hclose] at hi
          cases hi
          exact ⟨close, rfl, hafter, Nat.lt_of_lt_of_le hbefore hle, hseen, hmark⟩
        · exact h.closed i start close? stop hi
      case ended =>
        exact (h.ended.endAll unclosed hle).endTag element.id hnow hordered

lemma Tagged.addDoctype (h : b.Tagged text now) (hs : b.Steady .head now) (hle : now ≤ now')
    (name : String) (external : Option ExternalId) (subset : Bool) (span : Span) :
    (b.addDoctype name external subset span).Tagged text now' := by
  have hpush : (b.push (.doctype
      ⟨name, external.bind (·.publicId), external.map (·.systemId), none⟩)
      span).Tagged text now' :=
    h.pushOther hs (by decide) hle fun _ => rfl
  rw [Builder.addDoctype]
  dsimp only
  split_ifs <;> exact hpush.of_tags (Nat.le_refl _) rfl rfl rfl hpush.ended

lemma Tagged.endSubset (h : b.Tagged text now) {span : Span} (hle : now ≤ span.stop) :
    (b.endSubset text span).Tagged text span.stop := by
  rw [Builder.endSubset]
  split
  · exact h.of_tags hle rfl rfl rfl h.ended
  · rename_i id hid
    have hended : ({ b with subsetStart := none }).Ended now := h.ended
    -- what is recorded of a document type has no tags
    refine h.of_tags hle ?_ rfl rfl ((hended.endAt id hle).onNode id (fun n => ?_) fun n => ?_)
    · dsimp only
      rw [tags?_onNode _ _ fun n => ?_, tags?_endAt]
      · rfl
      · split
        · rename_i hkind
          simp [Node.tags?, Node.element?, hkind]
        · rfl
    · split
      · rename_i hkind
        simp [Node.tags?, Node.element?, hkind]
      · rfl
    · split <;> exact .inl rfl

/-- One token that may come keeps what is known of tags. -/
lemma Tagged.step (h : b.Tagged text now) (hs : b.Steady phase now) {phase' : Phase} {t : Token}
    (hnext : t.next? phase = some phase') (hle : now ≤ t.span.start)
    (hordered : t.span.start ≤ t.span.stop) (hread : t.WellRead) (hmarked : t.Marked text) :
    (b.step text t).Tagged text t.span.stop := by
  have hnow := Nat.le_trans hle hordered
  cases t with
  | doctype name external subset span =>
      cases phase <;> cases hnext
      exact h.addDoctype hs hnow name external subset span
  | subsetEnd span => exact h.endSubset hnow
  | comment content span =>
      cases phase <;> cases hnext <;> exact h.pushOther hs (by decide) hnow fun _ => rfl
  | instruction target data span =>
      cases phase <;> cases hnext <;> exact h.pushOther hs (by decide) hnow fun _ => rfl
  | cdata content span =>
      cases phase <;> cases hnext
      exact h.pushOther hs (by decide) hnow fun _ => rfl
  | text content span =>
      cases phase <;> cases hnext
      exact h.pushOther hs (by decide) hnow fun _ => rfl
  | tagOpen name span => cases phase <;> cases hnext <;> exact h.openTag hs (by decide) hle hread
  | «attribute» name value nameSpan valueSpan span =>
      exact h.addAttribute name value nameSpan valueSpan hnow
  | tagClose span =>
      cases phase <;> cases hnext
      exact h.closeTag hs hle hread hmarked
  | tagSelfClose span =>
      cases phase <;> cases hnext
      exact h.selfCloseTag hs hnow
  | endTag name span =>
      cases phase <;> cases hnext
      exact h.endTag hs name hle hmarked.2 hmarked.1

lemma Tagged.foldl_step {tokens : List Token} (h : b.Tagged text now) (hs : b.Steady phase now)
    (hfollow : Follow text.length phase now tokens) (hmarked : ∀ t ∈ tokens, t.Marked text) :
    ∃ now' ≤ text.length, (tokens.foldl (Builder.step text) b).Tagged text now' := by
  induction hfollow generalizing b with
  | nil inside => exact ⟨_, inside, h⟩
  | cons next behind ordered read more ih =>
      have ht := hmarked _ (List.mem_cons_self ..)
      exact ih (h.step hs next behind ordered read ht) (hs.step next behind ordered read)
        fun t ht => hmarked t (List.mem_cons_of_mem _ ht)

lemma tags?_finish (b : Builder) (length : Nat) : (b.finish length).tags? = b.tags? := by
  rw [Builder.finish]
  split
  · exact b.tags?_endAll b.opened length
  · rw [tags?_endAll, tags?_endAt, tags?_resolve]

lemma Ended.finish (h : b.Ended now) {length : Nat} (hle : now ≤ length) :
    (b.finish length).Ended now := by
  rw [Builder.finish]
  split
  · exact h.endAll b.opened hle
  · rename_i p hp
    exact ((h.resolve p.id).endAt p.id hle).endAll b.opened hle

end Builder

/-! ## The tree -/

namespace Tree

/-- **The content of an element stands between the `>` of its start tag and the `</` of its end
tag**, both of which lie inside the element, whatever faults the text has. -/
theorem content_between_tags (text : List Char) {e : ElementNode} {stop : Nat}
    (he : (Tree.parse text).element? e.id = some e) (hstop : e.element.endTagOpen = some stop) :
    ∃ close, e.element.startTagClose = some close ∧ e.span.start < close ∧ stop < e.span.stop ∧
      Between text close stop := by
  obtain ⟨now, hnow, htagged⟩ := Builder.tagged_empty.foldl_step Builder.steady_empty
    (follow_scanAll text) (marked_of_mem_scanAll text)
  obtain ⟨n, hn, hel, -, hspan⟩ := (element?_eq_some he).2
  have hn : (((scanAll text).1.foldl (Builder.step text) .empty).finish
    text.length).nodes[e.id]? = some n := hn
  have htags : n.tags? = some ⟨e.span.start, e.element.startTagClose, some stop⟩ := by
    simp [Node.tags?, hel, hspan, hstop]
  have hclosed : ((scanAll text).1.foldl (Builder.step text) .empty).tags? e.id =
      some ⟨e.span.start, e.element.startTagClose, some stop⟩ := by
    rw [← Builder.tags?_finish _ text.length, Builder.tags?, hn]
    exact htags
  obtain ⟨close, hclose, hafter, hbetween⟩ := htagged.closed _ _ _ _ hclosed
  have hended := htagged.ended.finish hnow e.id n hn stop (by rw [htags]; rfl)
  exact ⟨close, hclose, hafter, hspan ▸ hended.1, hbetween⟩

end Tree

end XmlAdvisor
