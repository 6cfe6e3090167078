import XmlAdvisor.Proofs.NamespaceScopes
import XmlAdvisor.Proofs.ParsedTrees
import XmlAdvisor.Proofs.StartTags
import XmlAdvisor.Proofs.VisitedElements

/-!
# Content that is replaced

What is built up to the end of a start tag does not depend on what comes behind it.  So when the
content of an element is replaced by something that can be read up to the end tag, then the element
and all around it stay what they were, and inside the element is what was written there.

* `Front` — what is known of an element when its start tag has ended.
* `TagPair` — the tags of an element among the tokens of a text; `TagPair.builder` — what has been
  built between them.
* **`TagPair.exists_tokens`** — the tokens of a text with other content.
* `TagPair.filled_eq` — what is written between the tags extends what has been built.
* **`Tree.exists_refilled`** — an element whose content is replaced by one element.
-/

namespace XmlAdvisor

/-! ## Up to the end of the start tag -/

/-- What is known of an element when its start tag has ended: neither its children nor its end
tag. -/
structure Front where
  parent : Option Nat
  start : Nat
  element : Element

/-- The front of an element. -/
def Front.of : View Front :=
  fun parent start e => ⟨parent, start, { e with children := [], endTagOpen := none }⟩

lemma Front.early : Front.of.Early :=
  ⟨fun _ _ _ _ => rfl, fun _ _ _ _ => rfl⟩

/-- The front of an element of a tree. -/
def ElementNode.front (e : ElementNode) : Front :=
  Front.of e.parent e.span.start e.element

namespace Builder

variable {b : Builder} {phase : Phase} {now : Nat} {text : List Char}

/-! ## The element whose start tag is being read -/

/-- What is inside an element. -/
def childIds : View (List Nat) :=
  fun _ _ e => e.children

/-- Whether the element whose start tag is being read has nothing inside yet. -/
def Unfilled (b : Builder) : Prop :=
  ∀ p ∈ b.pending, b.viewed childIds p.id = some []

lemma unfilled_openTag (hs : b.Steady phase now) (hphase : phase ≠ .tag) (name : QualifiedName)
    (span : Span) : (b.openTag name span).Unfilled := by
  rintro p ⟨⟩
  show ((b.push _ span).nodes[b.nodes.size]?).bind (Node.viewed childIds) = some []
  rw [getElem?_push_new (hs.nested_open hphase).openIds_lt]
  rfl

lemma Unfilled.addAttribute (h : b.Unfilled) (name : QualifiedName) (value : String)
    (nameSpan valueSpan span : Span) :
    (b.addAttribute name value nameSpan valueSpan span).Unfilled := by
  cases hp : b.pending with
  | none =>
      rw [Builder.addAttribute, hp]
      exact h
  | some p =>
      have hsame : (b.addAttribute name value nameSpan valueSpan span).pending = some p := by
        rw [Builder.addAttribute, hp]
        rfl
      intro q hq
      rw [hsame] at hq
      cases hq
      rw [viewed_addAttribute hp (g := fun ids => ids) name value nameSpan valueSpan span
        fun _ _ _ => by exact rfl, Option.map_id', ite_self]
      exact h p hp

lemma Unfilled.step (h : b.Unfilled) (hs : b.Steady phase now) {phase' : Phase} {t : Token}
    (next : t.next? phase = some phase') (behind : now ≤ t.span.start)
    (ordered : t.span.start ≤ t.span.stop) (read : t.WellRead) : (b.step text t).Unfilled := by
  by_cases htag : phase' = .tag
  · -- only what begins a start tag or goes on with it leads into one
    subst htag
    cases t with
    | tagOpen name span =>
        cases phase <;> cases next <;> exact unfilled_openTag hs (by decide) name span
    | «attribute» name value nameSpan valueSpan span =>
        exact h.addAttribute name value nameSpan valueSpan span
    | _ => cases phase <;> cases next
  · intro p hp
    rw [(hs.step next behind ordered read).pending_none htag] at hp
    cases hp

lemma Unfilled.foldl_step {tokens : List Token} (h : b.Unfilled) (hs : b.Steady phase now)
    (hfollow : Follow text.length phase now tokens) :
    (tokens.foldl (Builder.step text) b).Unfilled := by
  induction hfollow generalizing b with
  | nil inside => exact h
  | cons next behind ordered read more ih =>
      exact ih (h.step hs next behind ordered read) (hs.step next behind ordered read)

/-! ## What stays in the tree -/

variable {α β : Type} {ψ : View α} {i : Nat}

/-- An element that is to be seen is to be seen in every view. -/
lemma viewed_isSome {φ : View β} (h : (b.viewed ψ i).isSome) : (b.viewed φ i).isSome := by
  rw [viewed] at h ⊢
  cases hn : b.nodes[i]? with
  | none =>
      rw [hn] at h
      cases h
  | some n =>
      rw [hn] at h
      simpa [Node.viewed] using h

/-- What is settled after some of the tokens of a text is so in its tree. -/
lemma viewed_parse {before more : List Token} (h : (scanAll text).1 = before ++ more)
    (hfixed : (after text before).Fixed ψ i) :
    (Tree.parse text).viewed ψ i = (after text before).viewed ψ i := by
  have hfollow := follow_scanAll text
  rw [h] at hfollow
  obtain ⟨phase, now, hs, hmore⟩ := steady_empty.append hfollow
  obtain ⟨hlast, hviewed⟩ := hfixed.foldl_step hs hmore
  have hall : (scanAll text).1.foldl (Builder.step text) .empty =
      more.foldl (Builder.step text) (after text before) := by rw [h, ← after_append, after]
  show (((scanAll text).1.foldl (Builder.step text) .empty).finish text.length).viewed ψ i = _
  rw [hall, hlast.finish text.length, hviewed]

/-! ### The way outwards -/

section Outwards

variable {before more : List Token} (htokens : (scanAll text).1 = before ++ more)
  (hnone : (after text before).pending = none)
include htokens

/-- What is around an element that has begun has begun too. -/
lemma viewed_parent {front : Front} (hi : (after text before).viewed Front.of i = some front)
    {o : Nat} (ho : front.parent = some o) :
    o < i ∧ ((after text before).viewed Front.of o).isSome := by
  have hfollow := follow_scanAll text
  rw [htokens] at hfollow
  obtain ⟨phase, now, hs, -⟩ := steady_empty.append hfollow
  obtain ⟨n, hn, hviewed⟩ := Option.bind_eq_some_iff.mp hi
  obtain ⟨e, -, rfl⟩ := Option.map_eq_some_iff.mp hviewed
  obtain ⟨hlt, m, hm, hmem, -⟩ := hs.nested.inside i n o hn ho
  refine ⟨hlt, ?_⟩
  rw [viewed, after, hm]
  rw [Node.children_eq] at hmem
  cases hel : m.element? with
  | none =>
      rw [hel] at hmem
      cases hmem
  | some x =>
      show (m.viewed Front.of).isSome
      rw [Node.viewed, hel]
      rfl

include hnone

/-- Between start tags the front of each element that has begun is settled. -/
lemma exists_front (hi : ((after text before).viewed Front.of i).isSome) :
    ∃ e, (Tree.parse text).element? i = some e ∧
      (after text before).viewed Front.of i = some e.front := by
  have hviewed := viewed_parse htokens (ψ := Front.of) (i := i)
    ⟨hi, by rw [hnone]; rintro q ⟨⟩, fun _ => Front.early⟩
  obtain ⟨front, hfront⟩ := Option.isSome_iff_exists.mp hi
  rw [Tree.viewed_eq, hfront] at hviewed
  obtain ⟨e, he, rfl⟩ := Option.map_eq_some_iff.mp hviewed
  exact ⟨e, he, hfront⟩

/-- Where the same has been built, the way outwards is the same, but for what is inside. -/
lemma fronts_outwards {text' : List Char} {before' more' : List Token}
    (htokens' : (scanAll text').1 = before' ++ more')
    (hsame : after text' before' = after text before)
    (hi : ((after text before).viewed Front.of i).isSome) :
    ((Tree.parse text').elementsOutwards i).map ElementNode.front =
      ((Tree.parse text).elementsOutwards i).map ElementNode.front := by
  induction i using Nat.strongRecOn with
  | ind i ih =>
      obtain ⟨e, he, hfront⟩ := exists_front htokens hnone hi
      obtain ⟨e', he', hfront'⟩ := exists_front htokens' (hsame ▸ hnone) (hsame ▸ hi)
      have hboth : e'.front = e.front := by
        rw [hsame, hfront] at hfront'
        exact (Option.some.inj hfront').symm
      have hparent : e'.parent = e.parent := congrArg Front.parent hboth
      rw [(Tree.parse_nests text').elementsOutwards_cons he',
        (Tree.parse_nests text).elementsOutwards_cons he,
        List.map_cons, List.map_cons, hboth, hparent]
      cases hp : e.parent with
      | none => rfl
      | some o =>
          obtain ⟨hlt, hseen⟩ := viewed_parent htokens hfront hp
          simpa using ih o hlt hseen

end Outwards

end Builder

/-! ## More nodes -/

namespace Builder

variable {b : Builder} {α : Type} {ψ : View α}

/-- The element around more nodes gets those children. -/
lemma viewed_extend_parent {i : Nat} (h : b.parent? = some i) (hi : i < b.nodes.size)
    (new : List Node)
    {ids : List Nat} {g : α → α}
    (hg : ∀ parent start e, ψ parent start (e.withChildren ids) = g (ψ parent start e)) :
    (b.extend new ids).viewed ψ i = (b.viewed ψ i).map g := by
  rw [extend_of_some h, viewed, viewed]
  dsimp only
  rw [Array.getElem?_append_left (by rwa [Array.size_modify]), Array.getElem?_modify, if_pos rfl]
  cases b.nodes[i]? with
  | none => rfl
  | some n => exact Node.viewed_changeElement hg n

/-- The first of more nodes is seen as what it is. -/
lemma viewed_extend_first (x : Node) (more : List Node) (ids : List Nat) :
    (b.extend (x :: more) ids).viewed ψ b.nodes.size = x.viewed ψ := by
  rw [extend, viewed]
  split <;> simp

/-- The end tag of the innermost open element closes it. -/
lemma opened_endTag {o : OpenElement} {outside : List OpenElement} (h : b.opened = o :: outside)
    {name : QualifiedName} (hname : o.tag = name.text) (span : Span) :
    (b.endTag name span).opened = outside := by
  have hsame : (o.tag != name.text) = false := by rw [hname, bne_self_eq_false]
  rw [endTag, h, List.dropWhile_cons_of_neg (by simp [hsame])]

end Builder

/-! ## The tags of an element -/

/-- The tags of an element among the tokens of a text. -/
structure TagPair (text : List Char) where
  before : List Token
  close : Span
  inside : List Token
  name : QualifiedName
  ending : Span
  behind : List Token
  opening : OpenElement
  tokens_eq : (scanAll text).1 = before ++
    .tagClose close :: (inside ++ .endTag name ending :: behind)
  begun : (Builder.after text before).pending = some opening
  named : opening.tag = name.text

namespace TagPair

open Builder

variable {text : List Char} (p : TagPair text)

/-- What has been built when the start tag has ended. -/
def builder : Builder :=
  .after text (p.before ++ [.tagClose p.close])

lemma builder_eq : p.builder = (Builder.after text p.before).closeTag p.close :=
  after_concat text p.before (.tagClose p.close)

lemma follow : Follow text.length .head 0
    (p.before ++ .tagClose p.close :: (p.inside ++ .endTag p.name p.ending :: p.behind)) :=
  p.tokens_eq ▸ follow_scanAll text

lemma steady_before : ∃ now, (Builder.after text p.before).Steady .tag now ∧ now ≤ p.close.start ∧
    p.close.stop = p.close.start + 1 ∧
    Follow text.length .body p.close.stop (p.inside ++ .endTag p.name p.ending :: p.behind) := by
  obtain ⟨phase, now, hs, hfollow⟩ := steady_empty.append p.follow
  cases hfollow with
  | cons next behind ordered read more =>
      cases phase <;> cases next
      exact ⟨now, hs, behind, read, more⟩

lemma stop_close : p.close.stop = p.close.start + 1 := by
  obtain ⟨-, -, -, hstop, -⟩ := p.steady_before
  exact hstop

lemma steady_builder : p.builder.Steady .body p.close.stop := by
  obtain ⟨now, hs, hle, hstop, -⟩ := p.steady_before
  rw [builder_eq]
  exact hs.closeTag hle hstop

lemma pending_builder : p.builder.pending = none :=
  p.steady_builder.fits

/-- The innermost open element is the one whose start tag has ended. -/
lemma opened_builder : p.builder.opened = p.opening :: (Builder.after text p.before).opened := by
  rw [builder_eq, Builder.closeTag, p.begun]
  rfl

lemma scoped_builder : p.builder.Scoped := by
  refine scoped_empty.foldl_step steady_empty (?_ : Follow text.length .head 0 _) fun t ht => ?_
  · have hfollow := p.follow
    rw [List.append_cons] at hfollow
    exact hfollow.of_append
  · refine plain_of_mem_scanAll text t ?_
    rw [p.tokens_eq, List.append_cons]
    exact List.mem_append_left _ ht

lemma viewed_closeTag {α : Type} {ψ : View α} {g : α → α}
    (hψ : ∀ parent start e ns, ψ parent start { e with namespaceUri := ns } = ψ parent start e)
    (hg : ∀ parent start e, ψ parent start { e with startTagClose := some p.close.start } =
      g (ψ parent start e)) :
    p.builder.viewed ψ p.opening.id =
      ((Builder.after text p.before).viewed ψ p.opening.id).map g := by
  rw [builder_eq, Builder.closeTag, p.begun]
  dsimp only
  refine (viewed_onElement p.opening.id hg p.opening.id).trans ?_
  rw [if_pos rfl, viewed_endAt, Builder.resolve, viewed_onElement_of_keeps _ fun parent start e =>
    hψ parent start e _]

lemma viewed_before {α : Type} {ψ : View α} :
    ((Builder.after text p.before).viewed ψ p.opening.id).isSome := by
  obtain ⟨now, hs, -⟩ := p.steady_before
  have hmem : p.opening.id ∈ (Builder.after text p.before).spine := by simp [spine, p.begun]
  obtain ⟨⟨n, hn, hel⟩, -⟩ := hs.nested.opened _ hmem
  rw [viewed, hn]
  simpa [Node.viewed] using hel

lemma viewed_childIds : p.builder.viewed childIds p.opening.id = some [] := by
  have hnone : Builder.empty.Unfilled := by
    rintro q ⟨⟩
  have hunfilled := (hnone.foldl_step steady_empty p.follow.of_append) p.opening p.begun
  rw [p.viewed_closeTag (g := fun ids => ids) (fun _ _ _ _ => rfl) fun _ _ _ => by exact rfl,
    Option.map_id']
  exact hunfilled

/-- Where the start tag of an element closes. -/
def closing : View (Option Nat) :=
  fun _ _ e => e.startTagClose

lemma viewed_closing : p.builder.viewed closing p.opening.id = some (some p.close.start) := by
  rw [p.viewed_closeTag (g := fun _ => some p.close.start) (fun _ _ _ _ => rfl) fun _ _ _ => rfl]
  obtain ⟨n, hn⟩ := Option.isSome_iff_exists.mp p.viewed_before
  rw [hn]
  rfl

/-- The tokens up to the end of the start tag, and those behind it. -/
lemma tokens_builder : (scanAll text).1 =
    (p.before ++ [.tagClose p.close]) ++ (p.inside ++ .endTag p.name p.ending :: p.behind) := by
  rw [p.tokens_eq, List.append_cons]

/-- What was known of an element when the start tag ended is so in the tree. -/
lemma viewed_parse {α : Type} {ψ : View α} (hψ : ψ.Early) {i : Nat}
    (h : (p.builder.viewed ψ i).isSome) : (Tree.parse text).viewed ψ i = p.builder.viewed ψ i := by
  refine Builder.viewed_parse p.tokens_builder ⟨h, ?_, fun _ => hψ⟩
  · show ∀ q ∈ p.builder.pending, q.id ≠ i
    rw [p.pending_builder]
    rintro q ⟨⟩

/-- The tags of an element that has both. -/
theorem exists_of_element {e : ElementNode} (he : (Tree.parse text).element? e.id = some e)
    {close stop : Nat} (hclose : e.element.startTagClose = some close)
    (hstop : e.element.endTagOpen = some stop) :
    ∃ p : TagPair text, p.opening.id = e.id ∧ p.close.stop = close + 1 ∧ p.ending.start = stop := by
  have hended : (Builder.after text (scanAll text).1).viewed endTagOpen e.id =
      some (some stop) := by
    have hfinish := congrFun (viewed_finish (ψ := endTagOpen) (fun _ _ _ _ => rfl)
      (Builder.after text (scanAll text).1) text.length) e.id
    rw [← hfinish, ← hstop]
    exact Tree.viewed_of_element? he
  obtain ⟨before, span, inside, name, span', behind, o, htokens, hbegun, hid, hnamed, hstart, -⟩ :=
    exists_tags hended
  let p : TagPair text := ⟨before, span, inside, name, span', behind, o, htokens, hbegun, hnamed⟩
  have hclosing := p.viewed_parse ⟨fun _ _ _ _ => rfl, fun _ _ _ _ => rfl⟩ (i := p.opening.id)
    (by rw [p.viewed_closing]; rfl)
  have hseen : (Tree.parse text).viewed closing p.opening.id = some (some close) := by
    rw [← hclose]
    exact (congrArg _ hid).trans (Tree.viewed_of_element? he)
  rw [hseen, p.viewed_closing] at hclosing
  have hsame : close = p.close.start := Option.some.inj (Option.some.inj hclosing)
  exact ⟨p, hid, by rw [p.stop_close, hsame], hstart⟩

/-! ## What is inside -/

/-- What has been built when the end tag comes. -/
def filled : Builder :=
  p.inside.foldl (Builder.step text) p.builder

lemma after_inside : Builder.after text (p.before ++ .tagClose p.close :: p.inside) = p.filled := by
  rw [List.append_cons, after_append]
  rfl

lemma steady_filled : ∃ now, p.filled.Steady .body now := by
  obtain ⟨-, -, -, -, hfollow⟩ := p.steady_before
  obtain ⟨phase, now, hs, hmore⟩ := p.steady_builder.append hfollow
  cases hmore with
  | cons next behind ordered read more =>
      cases phase <;> cases next
      exact ⟨now, hs⟩

lemma parent?_builder : p.builder.parent? = some p.opening.id := by
  rw [parent?, p.opened_builder]
  rfl

lemma id_lt_size : p.opening.id < p.builder.nodes.size :=
  lt_size_of_viewed (ψ := childIds) (by rw [p.viewed_childIds]; rfl)

section Written

variable {c : WrittenContents} (hc : c.isWellFormed = true)
  (hinside : p.inside = c.tokens p.close.stop)
include hc hinside

/-- Contents that are written inside extend what has been built by their nodes. -/
lemma filled_eq : p.filled = p.builder.extend
    (c.nodes p.builder.scope (some p.opening.id) p.builder.nodes.size p.close.stop)
    (c.ids p.builder.nodes.size) := by
  have hfounded : p.builder.Founded := by
    rw [Founded, p.parent?_builder]
    rintro i ⟨⟩
    exact p.id_lt_size
  rw [filled, hinside, foldl_tokens text (WrittenContents.allTags_of_isWellFormed hc) hfounded
    p.pending_builder, p.parent?_builder]

/-- The children of the element are those of the contents that are written inside. -/
lemma viewed_childIds_parse :
    (Tree.parse text).viewed childIds p.opening.id = some (c.ids p.builder.nodes.size) := by
  have hfilled := p.filled_eq hc hinside
  have hopened : p.filled.opened = p.opening :: (Builder.after text p.before).opened := by
    rw [hfilled, opened_extend, p.opened_builder]
  have hpending : p.filled.pending = none := by
    rw [hfilled, pending_extend, p.pending_builder]
  have hviewed : (p.filled.endTag p.name p.ending).viewed childIds p.opening.id =
      some (c.ids p.builder.nodes.size) := by
    rw [viewed_endTag (fun _ _ _ _ => by rfl), hfilled,
      viewed_extend_parent p.parent?_builder p.id_lt_size _
        (g := fun ids => ids ++ c.ids p.builder.nodes.size) fun _ _ _ => by rfl, p.viewed_childIds]
    rfl
  have hparts : (scanAll text).1 =
      (p.before ++ .tagClose p.close :: p.inside ++ [.endTag p.name p.ending]) ++ p.behind := by
    rw [p.tokens_eq]
    simp
  have hafter : Builder.after text (p.before ++ .tagClose p.close :: p.inside ++
      [.endTag p.name p.ending]) = p.filled.endTag p.name p.ending := by
    rw [after_concat, p.after_inside]
    rfl
  rw [Builder.viewed_parse hparts, hafter, hviewed]
  -- nothing is added to an element that is closed
  rw [hafter]
  refine ⟨by rw [hviewed]; rfl, ?_, fun hopen => absurd hopen ?_⟩
  · rcases endTag_closes p.filled p.name p.ending with heq | ⟨-, -, -, heq⟩
    · rw [heq, hpending]
      rintro q ⟨⟩
    · rw [heq, hpending]
      rintro q ⟨⟩
  · obtain ⟨now, hs⟩ := p.steady_filled
    have hdescending := (hs.nested_open (by decide)).descending
    rw [openIds, hopened, List.map_cons, List.pairwise_cons] at hdescending
    rw [openIds, opened_endTag hopened p.named]
    exact fun hmem => Nat.lt_irrefl _ (hdescending.1 _ hmem)

end Written

/-- The name and the namespace of an element that is written inside. -/
lemma headings_first {tag : WrittenTag} {inner more : WrittenContents} {blanks : List Char}
    (hc : (WrittenContents.element tag inner blanks more).isWellFormed = true)
    (hinside : p.inside = (WrittenContents.element tag inner blanks more).tokens p.close.stop) :
    (Tree.parse text).viewed Heading.of p.builder.nodes.size =
      some ⟨tag.name, namespaceIn (tag.scopeIn p.builder.scope) tag.name.qualifier⟩ := by
  have hfilled := p.filled_eq hc hinside
  have hviewed : p.filled.viewed Heading.of p.builder.nodes.size =
      some ⟨tag.name, namespaceIn (tag.scopeIn p.builder.scope) tag.name.qualifier⟩ := by
    rw [hfilled, WrittenContents.nodes, viewed_extend_first]
    rfl
  have hparts : (scanAll text).1 =
      (p.before ++ .tagClose p.close :: p.inside) ++ .endTag p.name p.ending :: p.behind := by
    rw [p.tokens_eq]
    simp
  rw [Builder.viewed_parse hparts, p.after_inside, hviewed]
  rw [p.after_inside]
  refine ⟨by rw [hviewed]; rfl, ?_, fun _ => ⟨fun _ _ _ _ => rfl, fun _ _ _ _ => rfl⟩⟩
  rw [hfilled, pending_extend, p.pending_builder]
  rintro q ⟨⟩

/-! ## Other content -/

/-- The text with other characters between the tags. -/
def replaced (cs : List Char) : List Char :=
  text.take p.close.stop ++ (cs ++ text.drop p.ending.start)

lemma take_replaced (cs : List Char) {n : Nat} (hn : n ≤ p.close.stop) :
    (p.replaced cs).take n = text.take n := by
  obtain ⟨-, -, -, -, hfollow⟩ := p.steady_before
  have hstop := hfollow.le_length
  rw [replaced, List.take_append_of_le_length (by rw [List.length_take]; omega), List.take_take,
    Nat.min_eq_left hn]

/-- What stands before the content is built as before. -/
lemma after_replaced (cs : List Char) :
    Builder.after (p.replaced cs) p.before = Builder.after text p.before := by
  have hstart : p.close.start ≤ p.close.stop := by
    rw [p.stop_close]
    exact Nat.le_succ _
  exact (after_of_take p.tokens_eq (p.take_replaced cs hstart).symm).symm

/-- **The tokens of a text with other content**: those up to the start tag, those of the content,
and the end tag. -/
theorem exists_tokens {c : WrittenContents} (hc : c.isWellFormed = true) : ∃ stop more,
    (scanAll (p.replaced c.chars)).1 = p.before ++ .tagClose p.close ::
      (c.tokens p.close.stop ++ .endTag p.name ⟨p.close.stop + c.chars.length, stop⟩ :: more) := by
  have hending : .endTag p.name p.ending ∈ (scanAll text).1 := by
    rw [p.tokens_eq]
    simp
  obtain ⟨depth, hopen⟩ := ScanState.exists_runsTo_tagClose p.tokens_eq
  obtain ⟨hhead, stop, s, hstep⟩ :=
    ScanState.exists_step_endTag hending (depth + 1) (p.close.stop + c.chars.length)
  have hrest : text.drop p.ending.start ≠ [] := by
    intro hnil
    rw [hnil] at hhead
    cases hhead
  have hinside := WrittenContents.runsTo p.close.stop (depth + 1) (text.drop p.ending.start) hc
    (Nat.succ_pos depth) hhead
  have hend := ScanState.RunsTo.one (t := some (.endTag p.name _)) hrest hstep
    (ScanState.stepsLeft_step_lt hrest hstep)
  have hrun := ((hopen (c.chars ++ text.drop p.ending.start)).trans hinside).trans hend
  obtain ⟨steps, -, hscan⟩ := ScanState.scan_of_runsTo hrun ((p.replaced c.chars).length + 3)
    (ScanState.stepsLeft_start_le _)
  refine ⟨stop, (s.scan steps).1, ?_⟩
  have hall := congrArg Prod.fst hscan
  rw [show (scanAll (p.replaced c.chars)).1 = _ from hall]
  simp

/-- The tags of the element in the text with other content. -/
theorem exists_filled {c : WrittenContents} (hc : c.isWellFormed = true) :
    ∃ q : TagPair (p.replaced c.chars), q.opening = p.opening ∧ q.close = p.close ∧
      q.builder = p.builder ∧ q.inside = c.tokens p.close.stop := by
  obtain ⟨stop, more, htokens⟩ := p.exists_tokens hc
  have hsame := p.after_replaced c.chars
  have hbegun : (Builder.after (p.replaced c.chars) p.before).pending = some p.opening :=
    hsame ▸ p.begun
  refine ⟨⟨p.before, p.close, c.tokens p.close.stop, p.name, _, more, p.opening, htokens, hbegun,
    p.named⟩, rfl, rfl, ?_, rfl⟩
  rw [builder_eq, builder_eq, hsame]

/-! ## The trees -/

/-- The bindings in force behind the start tag are those of the element in the tree. -/
lemma namespaceIn_scope {e : ElementNode} (hid : p.opening.id = e.id) (qualifier : Option String) :
    namespaceIn p.builder.scope qualifier = (Tree.parse text).lookupNamespace e qualifier := by
  have hinForce := p.scoped_builder.inForce qualifier
  rw [unended, p.pending_builder, p.opened_builder] at hinForce
  have hle : ∀ i tag, p.builder.startTags i = some tag →
      (Tree.parse text).viewed StartTag.of i = some tag := fun i tag hi =>
    (p.viewed_parse ⟨fun _ _ _ _ => rfl, fun _ _ _ _ => rfl⟩
      (Option.isSome_iff_exists.mpr ⟨tag, hi⟩)).trans hi
  have hdeclared := (Tree.parse_nests text).declared_outwards (hinForce.mono hle)
  rw [namespaceIn_eq, Tree.lookupNamespace_eq, ← hid, hdeclared]

end TagPair

/-- Whether an element of a tree is one of another tree with nothing inside but a child. -/
structure Tree.Refilled (t t' : Tree) (e e' child : ElementNode) : Prop where
  there : t'.element? e'.id = some e'
  front : e'.front = e.front
  outwards : (t'.elementsOutwards e'.id).map ElementNode.front =
    (t.elementsOutwards e.id).map ElementNode.front
  children : t'.childElements e' = [child]

/-- **An element whose content is replaced by one element.**  It has this element as its only child,
and is what it was otherwise, as is all around it. -/
theorem Tree.exists_refilled {text : List Char} {e : ElementNode}
    (he : (Tree.parse text).element? e.id = some e) {close stop : Nat}
    (hclose : e.element.startTagClose = some close) (hstop : e.element.endTagOpen = some stop)
    {tag : WrittenTag} {inner : WrittenContents}
    (hc : (WrittenContents.element tag inner [] .nil).isWellFormed = true)
    (hsilent : ∀ scope, tag.scopeIn scope = scope) :
    ∃ e' child, (Tree.parse text).Refilled (Tree.parse (text.take (close + 1) ++
        ((WrittenContents.element tag inner [] .nil).chars ++ text.drop stop))) e e' child ∧
      child.element.name = tag.name ∧
      child.element.namespaceUri = (Tree.parse text).lookupNamespace e tag.name.qualifier := by
  obtain ⟨p, hid, hbegin, hend⟩ := TagPair.exists_of_element he hclose hstop
  obtain ⟨q, hopening, hclosing, hbuilder, hinside⟩ := p.exists_filled hc
  have htext : p.replaced (WrittenContents.element tag inner [] .nil).chars =
      text.take (close + 1) ++
      ((WrittenContents.element tag inner [] .nil).chars ++ text.drop stop) := by
    rw [TagPair.replaced, hbegin, hend]
  rw [← htext]
  -- the element has the number that it had, and the child the next one
  have hseen : (p.builder.viewed Front.of e.id).isSome := by
    rw [← hid]
    exact Builder.viewed_isSome (by rw [p.viewed_childIds]; rfl)
  obtain ⟨_, he₀, hfront⟩ := Builder.exists_front p.tokens_builder p.pending_builder hseen
  obtain rfl := Option.some.inj (he.symm.trans he₀)
  obtain ⟨e', he', hfront'⟩ :=
    Builder.exists_front q.tokens_builder q.pending_builder (hbuilder ▸ hseen)
  have hsame : q.builder.viewed Front.of e.id = some e.front := hbuilder ▸ hfront
  rw [show Builder.after _ _ = q.builder from rfl, hsame] at hfront'
  have hid' := (element?_eq_some he').1
  rw [← hclosing] at hinside
  have hchildren := q.viewed_childIds_parse hc hinside
  rw [hopening, hid, viewed_of_element? he'] at hchildren
  have hfirst := q.headings_first hc hinside
  rw [viewed_eq] at hfirst
  obtain ⟨child, hchild, hheading⟩ := Option.map_eq_some_iff.mp hfirst
  obtain ⟨hname, huri⟩ := Heading.mk.inj hheading
  refine ⟨e', child, ⟨element?_id he', (Option.some.inj hfront').symm, ?_, ?_⟩, hname, ?_⟩
  · rw [hid']
    exact Builder.fronts_outwards p.tokens_builder p.pending_builder q.tokens_builder hbuilder hseen
  · have hids : e'.element.children = [q.builder.nodes.size] := Option.some.inj hchildren
    rw [childElements, hids]
    simp [hchild]
  · rw [huri, hsilent, hbuilder, p.namespaceIn_scope hid]

end XmlAdvisor
