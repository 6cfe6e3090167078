import XmlAdvisor.Proofs.ElementViews
import XmlAdvisor.Proofs.TokenSpans

/-!
# The tokens of the tags of an element

An element whose end tag is known was begun by the end of a start tag and ended by an end tag of its
name, and the tokens of both can be found again among those of the text.  What is read behind them
has no effect on the element any more: only the innermost open element gets children, and only open
ones get ends.

* `Builder.Fixed` — whether what is to be seen of an element is settled; **`Fixed.foldl_step`** —
  then it stays.
* `Builder.after` — what has been built when some tokens have been read.
* **`Builder.exists_tags`** — the tokens of the tags of an element.
-/

namespace XmlAdvisor

/-- Whether a view has nothing of what becomes known of an element behind its start tag. -/
structure View.Early {α : Type} (ψ : View α) : Prop where
  children : ∀ p start e cs, ψ p start { e with children := cs } = ψ p start e
  ending : ∀ p start e stop, ψ p start { e with endTagOpen := some stop } = ψ p start e

namespace Builder

variable {α : Type} {ψ : View α} {b : Builder} {i : Nat} {phase : Phase} {now : Nat}
  {text : List Char}

/-! ## What stays -/

/-- Whether what is to be seen of an element is settled: its start tag has been read, and either it
has ended or its children and its end are not to be seen. -/
structure Fixed (ψ : View α) (i : Nat) (b : Builder) : Prop where
  there : (b.viewed ψ i).isSome
  begun : ∀ p ∈ b.pending, p.id ≠ i
  ended : i ∈ b.openIds → ψ.Early

lemma lt_size_of_viewed (h : (b.viewed ψ i).isSome) : i < b.nodes.size := by
  rw [viewed] at h
  cases hn : b.nodes[i]? with
  | none =>
      rw [hn] at h
      cases h
  | some n => exact (Array.getElem?_eq_some_iff.mp hn).1

/-- Something happened that is not to be seen of the element, which neither was opened again. -/
lemma Fixed.of_viewed {b' : Builder} (h : b.Fixed ψ i) (hviewed : b'.viewed ψ i = b.viewed ψ i)
    (hpending : ∀ p ∈ b'.pending, p.id ≠ i) (hopened : i ∈ b'.openIds → i ∈ b.openIds) :
    b'.Fixed ψ i ∧ b'.viewed ψ i = b.viewed ψ i :=
  ⟨⟨by rw [hviewed]; exact h.there, hpending, fun hi => h.ended (hopened hi)⟩, hviewed⟩

lemma viewed_onNode_of_ne {id : Nat} (h : id ≠ i) (f : Node → Node) :
    (b.onNode id f).viewed ψ i = b.viewed ψ i := by
  rw [viewed, viewed, getElem?_onNode]
  simp [h]

lemma viewed_onElement_of_ne {id : Nat} (h : id ≠ i) (f : Element → Element) :
    (b.onElement id f).viewed ψ i = b.viewed ψ i := by
  rw [onElement_eq]
  exact viewed_onNode_of_ne h _

lemma viewed_resolve_of_ne {id : Nat} (h : id ≠ i) : (b.resolve id).viewed ψ i = b.viewed ψ i :=
  viewed_onElement_of_ne h _

/-- A new node is no part of what is settled. -/
lemma Fixed.viewed_push (h : b.Fixed ψ i) (hopen : ∀ id ∈ b.openIds, id < b.nodes.size)
    (kind : NodeKind) (span : Span) : (b.push kind span).viewed ψ i = b.viewed ψ i := by
  rw [viewed, viewed, nodes_push b kind span hopen,
    if_neg (Nat.ne_of_lt (lt_size_of_viewed h.there))]
  cases b.nodes[i]? with
  | none => rfl
  | some n =>
      show (b.adopt i n).viewed ψ = n.viewed ψ
      rw [adopt]
      split_ifs with hhead
      · have hearly := h.ended (List.mem_of_head? hhead)
        rw [Node.viewed_changeElement (g := fun a => a) fun p start e =>
          hearly.children p start e _]
        exact Option.map_id'
      · rfl

lemma openIds_push (kind : NodeKind) (span : Span) : (b.push kind span).openIds = b.openIds := by
  rw [openIds, opened_push, openIds]

lemma Fixed.push (h : b.Fixed ψ i) (hs : b.Steady phase now) (hphase : phase ≠ .tag)
    (kind : NodeKind)
    (span : Span) : (b.push kind span).Fixed ψ i ∧
      (b.push kind span).viewed ψ i = b.viewed ψ i := by
  refine h.of_viewed (h.viewed_push (hs.nested_open hphase).openIds_lt kind span) ?_ ?_
  · rw [pending_push]
    exact h.begun
  · rw [openIds_push]
    exact id

lemma Fixed.openTag (h : b.Fixed ψ i) (hs : b.Steady phase now) (hphase : phase ≠ .tag)
    (name : QualifiedName) (span : Span) :
    (b.openTag name span).Fixed ψ i ∧ (b.openTag name span).viewed ψ i = b.viewed ψ i := by
  have hlt := lt_size_of_viewed h.there
  have hpush := h.viewed_push (hs.nested_open hphase).openIds_lt
    (.element ⟨name, none, [], [], none, none, false⟩) span
  refine h.of_viewed hpush ?_ ?_
  · rintro p ⟨⟩
    exact Nat.ne_of_gt hlt
  · intro hi
    rwa [← openIds_push (b := b) (.element ⟨name, none, [], [], none, none, false⟩) span]

lemma Fixed.addAttribute (h : b.Fixed ψ i) (name : QualifiedName) (value : String)
    (nameSpan valueSpan span : Span) :
    (b.addAttribute name value nameSpan valueSpan span).Fixed ψ i ∧
      (b.addAttribute name value nameSpan valueSpan span).viewed ψ i = b.viewed ψ i := by
  cases hp : b.pending with
  | none =>
      rw [Builder.addAttribute, hp]
      exact ⟨h, rfl⟩
  | some p =>
      have hne := h.begun p hp
      rw [Builder.addAttribute, hp]
      refine h.of_viewed ?_ (by rintro q ⟨⟩; exact hne) id
      exact (viewed_onElement_of_ne hne _).trans (viewed_onNode_of_ne hne _)

lemma Fixed.closeTag (h : b.Fixed ψ i) (span : Span) :
    (b.closeTag span).Fixed ψ i ∧ (b.closeTag span).viewed ψ i = b.viewed ψ i := by
  cases hp : b.pending with
  | none =>
      rw [Builder.closeTag, hp]
      exact ⟨h, rfl⟩
  | some p =>
      have hne := h.begun p hp
      rw [Builder.closeTag, hp]
      refine h.of_viewed ?_ (by rintro o ⟨⟩) fun hi => ?_
      · exact (viewed_onElement_of_ne hne _).trans
          ((viewed_onNode_of_ne hne _).trans (viewed_resolve_of_ne hne))
      · rcases List.mem_cons.mp hi with rfl | hi
        · exact absurd rfl hne
        · exact hi

lemma Fixed.selfCloseTag (h : b.Fixed ψ i) (span : Span) :
    (b.selfCloseTag span).Fixed ψ i ∧ (b.selfCloseTag span).viewed ψ i = b.viewed ψ i := by
  cases hp : b.pending with
  | none =>
      rw [Builder.selfCloseTag, hp]
      exact ⟨h, rfl⟩
  | some p =>
      have hne := h.begun p hp
      rw [Builder.selfCloseTag, hp]
      refine h.of_viewed ?_ (by rintro o ⟨⟩) id
      exact (viewed_onElement_of_ne hne _).trans
        ((viewed_onNode_of_ne hne _).trans (viewed_resolve_of_ne hne))

lemma Fixed.endTag (h : b.Fixed ψ i) (name : QualifiedName) (span : Span) :
    (b.endTag name span).Fixed ψ i ∧ (b.endTag name span).viewed ψ i = b.viewed ψ i := by
  have hsuffix := b.opened.dropWhile_suffix (fun o : OpenElement => o.tag != name.text)
  rw [Builder.endTag]
  cases hd : b.opened.dropWhile (fun o : OpenElement => o.tag != name.text) with
  | nil => exact ⟨h, rfl⟩
  | cons closed outside =>
      rw [hd] at hsuffix
      refine h.of_viewed ?_ ?_ fun hi => ?_
      · have hends := (viewed_endAt (ψ := ψ)
            (b := b.endAll (b.opened.takeWhile (·.tag != name.text))
          span.start) closed.id span.stop).trans (viewed_endAll _ _)
        refine Eq.trans ?_ (congrFun hends i)
        by_cases hclosed : closed.id = i
        · have hopen : i ∈ b.openIds :=
            hclosed ▸ List.mem_map_of_mem (hsuffix.mem (List.mem_cons_self ..))
          exact congrFun (viewed_onElement_of_keeps closed.id fun p start e =>
            (h.ended hopen).ending p start e _) i
        · exact viewed_onElement_of_ne hclosed _
      · intro p hp
        exact h.begun p ((b.pending_endAll _ span.start) ▸ hp)
      · obtain ⟨o, ho, rfl⟩ := List.mem_map.mp hi
        exact List.mem_map_of_mem (hsuffix.mem (List.mem_cons_of_mem closed ho))

lemma Fixed.addDoctype (h : b.Fixed ψ i) (hs : b.Steady phase now) (hphase : phase ≠ .tag)
    (name : String) (external : Option ExternalId) (subset : Bool) (span : Span) :
    (b.addDoctype name external subset span).Fixed ψ i ∧
      (b.addDoctype name external subset span).viewed ψ i = b.viewed ψ i := by
  have hpush := h.push hs hphase
    (.doctype ⟨name, external.bind (·.publicId), external.map (·.systemId), none⟩) span
  have hopened {b' : Builder} (hviewed : b'.viewed ψ i = b.viewed ψ i)
      (hpending : b'.pending = b.pending)
      (hids : b'.openIds = b.openIds) : b'.Fixed ψ i ∧ b'.viewed ψ i = b.viewed ψ i :=
    h.of_viewed hviewed (by rw [hpending]; exact h.begun) (by rw [hids]; exact id)
  rw [Builder.addDoctype]
  dsimp only
  split_ifs
  · exact hopened hpush.2 (pending_push _ _ _) (openIds_push _ _)
  · exact hopened hpush.2 (pending_push _ _ _) (openIds_push _ _)

lemma Fixed.endSubset (h : b.Fixed ψ i) (text : List Char) (span : Span) :
    (b.endSubset text span).Fixed ψ i ∧ (b.endSubset text span).viewed ψ i = b.viewed ψ i := by
  refine h.of_viewed (congrFun (viewed_endSubset b text span) i) ?_ ?_ <;>
    · rw [Builder.endSubset]
      split <;> first | exact h.begun | exact id

/-- One token has no effect on what is settled. -/
lemma Fixed.step (h : b.Fixed ψ i) (hs : b.Steady phase now) {phase' : Phase} {t : Token}
    (hnext : t.next? phase = some phase') :
    (b.step text t).Fixed ψ i ∧ (b.step text t).viewed ψ i = b.viewed ψ i := by
  cases t with
  | doctype name external subset span =>
      cases phase <;> cases hnext
      exact h.addDoctype hs (by decide) name external subset span
  | subsetEnd span => exact h.endSubset text span
  | comment content span => cases phase <;> cases hnext <;> exact h.push hs (by decide) _ _
  | instruction target data span => cases phase <;> cases hnext <;> exact h.push hs (by decide) _ _
  | cdata content span =>
      cases phase <;> cases hnext
      exact h.push hs (by decide) _ _
  | text content span =>
      cases phase <;> cases hnext
      exact h.push hs (by decide) _ _
  | tagOpen name span => cases phase <;> cases hnext <;> exact h.openTag hs (by decide) name span
  | «attribute» name value nameSpan valueSpan span =>
      exact h.addAttribute name value nameSpan valueSpan span
  | tagClose span => exact h.closeTag span
  | tagSelfClose span => exact h.selfCloseTag span
  | endTag name span => exact h.endTag name span

/-- **What is settled stays**, whatever is read. -/
theorem Fixed.foldl_step {tokens : List Token} (h : b.Fixed ψ i) (hs : b.Steady phase now)
    (hfollow : Follow text.length phase now tokens) :
    (tokens.foldl (Builder.step text) b).Fixed ψ i ∧
      (tokens.foldl (Builder.step text) b).viewed ψ i = b.viewed ψ i := by
  induction hfollow generalizing b with
  | nil inside => exact ⟨h, rfl⟩
  | cons next behind ordered read more ih =>
      obtain ⟨hstep, hviewed⟩ := h.step hs next
      obtain ⟨hfixed, hmore⟩ := ih hstep (hs.step next behind ordered read)
      exact ⟨hfixed, hmore.trans hviewed⟩

lemma Fixed.finish (h : b.Fixed ψ i) (length : Nat) :
    (b.finish length).viewed ψ i = b.viewed ψ i := by
  rw [Builder.finish]
  cases hp : b.pending with
  | none => exact congrFun (viewed_endAll _ _) i
  | some p =>
      have hne := h.begun p hp
      exact (congrFun (viewed_endAll _ _) i).trans
        ((viewed_onNode_of_ne hne _).trans (viewed_resolve_of_ne hne))

/-! ## The tokens of tags -/

/-- What has been built when tokens have been read. -/
def after (text : List Char) (tokens : List Token) : Builder :=
  tokens.foldl (Builder.step text) .empty

lemma after_append (text : List Char) (tokens more : List Token) :
    after text (tokens ++ more) = more.foldl (Builder.step text) (after text tokens) :=
  List.foldl_append

lemma after_concat (text : List Char) (tokens : List Token) (t : Token) :
    after text (tokens ++ [t]) = (after text tokens).step text t :=
  after_append text tokens [t]

/-- Whether the end of the start tag of an element is among tokens. -/
def Begun (text : List Char) (tokens : List Token) (o : OpenElement) : Prop :=
  ∃ before span behind, tokens = before ++ .tagClose span :: behind ∧
    (after text before).pending = some o

/-- Whether the end of the start tag of an element is among tokens, and behind it an end tag of the
same name at an offset. -/
def EndedAt (text : List Char) (tokens : List Token) (id stop : Nat) : Prop :=
  ∃ before span inside name span' behind o,
    tokens = before ++ .tagClose span :: (inside ++ .endTag name span' :: behind) ∧
    (after text before).pending = some o ∧ o.id = id ∧ o.tag = name.text ∧ span'.start = stop ∧
    o ∈ (after text (before ++ .tagClose span :: inside)).opened

lemma Begun.append {tokens : List Token} {o : OpenElement} (h : Begun text tokens o)
    (more : List Token) : Begun text (tokens ++ more) o := by
  obtain ⟨before, span, behind, rfl, hpending⟩ := h
  exact ⟨before, span, behind ++ more, by simp, hpending⟩

lemma EndedAt.append {tokens : List Token} {id stop : Nat} (h : EndedAt text tokens id stop)
    (more : List Token) : EndedAt text (tokens ++ more) id stop := by
  obtain ⟨before, span, inside, name, span', behind, o, rfl, hpending⟩ := h
  exact ⟨before, span, inside, name, span', behind ++ more, o, by simp, hpending⟩

/-- Where the end tag of an element opens, if it has been read. -/
def endTagOpen : View (Option Nat) :=
  fun _ _ e => e.endTagOpen

/-- Whether the tokens of the tags of all elements can be found that have begun or ended. -/
structure TagsFound (text : List Char) (tokens : List Token) : Prop where
  opened : ∀ o ∈ (after text tokens).opened, Begun text tokens o
  ended : ∀ i stop, (after text tokens).viewed endTagOpen i = some (some stop) →
    EndedAt text tokens i stop

variable {tokens : List Token}

/-- A token with which no element begins or ends. -/
lemma TagsFound.concat (h : TagsFound text tokens) {t : Token}
    (hopened : ((after text tokens).step text t).opened = (after text tokens).opened)
    (hended : ∀ i stop, ((after text tokens).step text t).viewed endTagOpen i = some (some stop) →
      (after text tokens).viewed endTagOpen i = some (some stop)) :
      TagsFound text (tokens ++ [t]) := by
  constructor
  · intro o ho
    rw [after_concat, hopened] at ho
    exact (h.opened o ho).append [t]
  · intro i stop hi
    rw [after_concat] at hi
    exact (h.ended i stop (hended i stop hi)).append [t]

/-- A new node has no end yet. -/
lemma viewed_endTagOpen_push (hs : b.Steady phase now) (hphase : phase ≠ .tag) {kind : NodeKind}
    {span : Span} (hkind : ∀ parent, (Node.mk parent span kind).viewed endTagOpen ≠ some (some i))
    {j : Nat} (h : (b.push kind span).viewed endTagOpen j = some (some i)) :
    b.viewed endTagOpen j = some (some i) := by
  rw [Builder.viewed_push (fun _ _ _ _ => by rfl) kind span (hs.nested_open hphase).openIds_lt] at h
  split_ifs at h
  · exact absurd h (hkind _)
  · exact h

lemma TagsFound.push (h : TagsFound text tokens) (hs : (after text tokens).Steady phase now)
    (hphase : phase ≠ .tag) {kind : NodeKind} {span : Span} {t : Token}
    (ht : (after text tokens).step text t = (after text tokens).push kind span)
    (hkind : ∀ parent, (Node.mk parent span kind).element? = none) :
    TagsFound text (tokens ++ [t]) := by
  refine h.concat (by rw [ht, opened_push]) fun i stop hi => ?_
  rw [ht] at hi
  refine viewed_endTagOpen_push hs hphase (fun parent => ?_) hi
  rw [Node.viewed, hkind]
  rintro ⟨⟩

lemma viewed_endTagOpen_endOfStart (id stop : Nat) {f : Element → Element}
    (hf : ∀ e, (f e).endTagOpen = e.endTagOpen) :
    (((b.resolve id).endAt id stop).onElement id f).viewed endTagOpen = b.viewed endTagOpen :=
  (viewed_onElement_of_keeps id fun _ _ e => hf e).trans
    ((viewed_endAt id stop).trans (viewed_onElement_of_keeps id fun _ _ _ => rfl))

/-- An attribute neither opens an element nor ends one. -/
lemma addAttribute_keeps (b : Builder) (name : QualifiedName) (value : String)
    (nameSpan valueSpan span : Span) :
    (b.addAttribute name value nameSpan valueSpan span).opened = b.opened ∧
      (b.addAttribute name value nameSpan valueSpan span).viewed endTagOpen =
      b.viewed endTagOpen := by
  cases hp : b.pending with
  | none =>
      rw [Builder.addAttribute, hp]
      exact ⟨rfl, rfl⟩
  | some p =>
      refine ⟨by rw [Builder.addAttribute, hp]; rfl, funext fun i => ?_⟩
      rw [viewed_addAttribute hp (g := fun stop => stop) name value nameSpan valueSpan span
        fun _ _ _ => by exact rfl, Option.map_id', ite_self]

lemma endSubset_keeps (b : Builder) (text : List Char) (span : Span) :
    (b.endSubset text span).opened = b.opened ∧
      (b.endSubset text span).viewed endTagOpen = b.viewed endTagOpen := by
  refine ⟨?_, viewed_endSubset b text span⟩
  rw [Builder.endSubset]
  split <;> rfl

lemma addDoctype_keeps (hs : b.Steady phase now) (hphase : phase ≠ .tag) (name : String)
    (external : Option ExternalId) (subset : Bool) (span : Span) :
    (b.addDoctype name external subset span).opened = b.opened ∧ ∀ i stop,
      (b.addDoctype name external subset span).viewed endTagOpen i = some (some stop) →
        b.viewed endTagOpen i = some (some stop) := by
  have hpush : ∀ i stop, (b.push
      (.doctype ⟨name, external.bind (·.publicId), external.map (·.systemId),
      none⟩) span).viewed endTagOpen i = some (some stop) →
      b.viewed endTagOpen i = some (some stop) :=
    fun i stop hi => viewed_endTagOpen_push hs hphase (fun _ => by rintro ⟨⟩) hi
  rw [Builder.addDoctype]
  dsimp only
  split_ifs <;> exact ⟨opened_push _ _ _, hpush⟩

/-- The end of a start tag begins its element. -/
lemma TagsFound.closeTag (h : TagsFound text tokens) (span : Span) :
    TagsFound text (tokens ++ [.tagClose span]) := by
  cases hp : (after text tokens).pending with
  | none =>
      have hsame : (after text tokens).closeTag span = after text tokens := by
        rw [Builder.closeTag, hp]
      exact h.concat (by rw [Builder.step, hsame])
        (by rw [Builder.step, hsame]; exact fun _ _ => id)
  | some p =>
      constructor
      · intro o ho
        rw [after_concat, Builder.step, Builder.closeTag, hp] at ho
        rcases List.mem_cons.mp ho with rfl | ho
        · exact ⟨tokens, span, [], rfl, hp⟩
        · exact (h.opened o ho).append _
      · intro i stop hi
        rw [after_concat, Builder.step, Builder.closeTag, hp] at hi
        have hsame := viewed_endTagOpen_endOfStart (b := after text tokens) p.id span.stop
          (f := fun e => { e with startTagClose := some span.start }) fun _ => rfl
        exact (h.ended i stop ((congrFun hsame i) ▸ hi)).append _

lemma TagsFound.selfCloseTag (h : TagsFound text tokens) (span : Span) :
    TagsFound text (tokens ++ [.tagSelfClose span]) := by
  cases hp : (after text tokens).pending with
  | none =>
      have hsame : (after text tokens).selfCloseTag span = after text tokens := by
        rw [Builder.selfCloseTag, hp]
      exact h.concat (by rw [Builder.step, hsame])
        (by rw [Builder.step, hsame]; exact fun _ _ => id)
  | some p =>
      refine h.concat ?_ fun i stop hi => ?_
      · rw [Builder.step, Builder.selfCloseTag, hp]
        rfl
      · rw [Builder.step, Builder.selfCloseTag, hp] at hi
        have hsame := viewed_endTagOpen_endOfStart (b := after text tokens) p.id span.stop
          (f := fun e => { e with startTagClose := some (span.stop - 1), selfClosed := true })
          fun _ => rfl
        exact (congrFun hsame i) ▸ hi

/-- An end tag ends an element that was begun, with its name. -/
lemma TagsFound.endTag (h : TagsFound text tokens) (name : QualifiedName) (span : Span) :
    TagsFound text (tokens ++ [.endTag name span]) := by
  have hsuffix := (after text tokens).opened.dropWhile_suffix
    (fun o : OpenElement => o.tag != name.text)
  cases hd : (after text tokens).opened.dropWhile (fun o : OpenElement => o.tag != name.text) with
  | nil =>
      have hsame : (after text tokens).endTag name span = after text tokens := by
        rw [Builder.endTag, hd]
      exact h.concat (by rw [Builder.step, hsame])
        (by rw [Builder.step, hsame]; exact fun _ _ => id)
  | cons closed outside =>
      rw [hd] at hsuffix
      have htag : closed.tag = name.text := by
        have hnot := List.head_dropWhile_not (fun o : OpenElement => o.tag != name.text)
          (l := (after text tokens).opened) (by rw [hd]; exact List.cons_ne_nil _ _)
        simp only [hd, List.head_cons, bne_eq_false_iff_eq] at hnot
        exact hnot
      have hmem : closed ∈ (after text tokens).opened := hsuffix.mem (List.mem_cons_self ..)
      constructor
      · intro o ho
        rw [after_concat, Builder.step, Builder.endTag, hd] at ho
        exact (h.opened o (hsuffix.mem (List.mem_cons_of_mem closed ho))).append _
      · intro i stop hi
        rw [after_concat, Builder.step, Builder.endTag, hd] at hi
        have hended (j : Nat) := viewed_onElement (ψ := endTagOpen)
          (b := ((after text tokens).endAll
          ((after text tokens).opened.takeWhile (·.tag != name.text)) span.start).endAt closed.id
            span.stop) closed.id (f := fun e => { e with endTagOpen := some span.start })
              (g := fun _ => some span.start) (fun _ _ _ => rfl) j
        rw [viewed_endAt, viewed_endAll] at hended
        replace hi := (hended i).symm.trans hi
        split_ifs at hi with hself
        · obtain ⟨before, start, inside, rfl, hpending⟩ := h.opened closed hmem
          obtain ⟨_, -, hstop⟩ := Option.map_eq_some_iff.mp hi
          exact ⟨before, start, inside, name, span, [], closed, by simp, hpending, hself, htag,
            Option.some.inj hstop, hmem⟩
        · exact (h.ended i stop hi).append _

lemma TagsFound.step (h : TagsFound text tokens) (hs : (after text tokens).Steady phase now)
    {phase' : Phase} {t : Token} (hnext : t.next? phase = some phase') :
    TagsFound text (tokens ++ [t]) := by
  cases t with
  | doctype name external subset span =>
      cases phase <;> cases hnext
      obtain ⟨hopened, hended⟩ := addDoctype_keeps hs (by decide) name external subset span
      exact h.concat hopened hended
  | subsetEnd span =>
      obtain ⟨hopened, hended⟩ := (after text tokens).endSubset_keeps text span
      exact h.concat hopened fun i stop hi => by rwa [Builder.step, hended] at hi
  | comment content span =>
      cases phase <;> cases hnext <;> exact h.push hs (by decide) rfl fun _ => rfl
  | instruction target data span =>
      cases phase <;> cases hnext <;> exact h.push hs (by decide) rfl fun _ => rfl
  | cdata content span =>
      cases phase <;> cases hnext
      exact h.push hs (by decide) rfl fun _ => rfl
  | text content span =>
      cases phase <;> cases hnext
      exact h.push hs (by decide) rfl fun _ => rfl
  | tagOpen name span =>
      have hopen (hphase : phase ≠ .tag) : TagsFound text (tokens ++ [.tagOpen name span]) := by
        refine h.concat (opened_push _ _ _) fun i stop hi => ?_
        exact viewed_endTagOpen_push hs hphase (fun _ => by rintro ⟨⟩) hi
      cases phase <;> cases hnext <;> exact hopen (by decide)
  | «attribute» name value nameSpan valueSpan span =>
      obtain ⟨hopened, hended⟩ :=
        (after text tokens).addAttribute_keeps name value nameSpan valueSpan span
      exact h.concat hopened fun i stop hi => by rwa [Builder.step, hended] at hi
  | tagClose span => exact h.closeTag span
  | tagSelfClose span => exact h.selfCloseTag span
  | endTag name span => exact h.endTag name span

lemma TagsFound.append (h : TagsFound text tokens) (hs : (after text tokens).Steady phase now)
    {more : List Token} (hfollow : Follow text.length phase now more) :
    TagsFound text (tokens ++ more) := by
  induction hfollow generalizing tokens with
  | nil inside =>
      rw [List.append_nil]
      exact h
  | @cons _ _ _ t rest next behind ordered read more ih =>
      rw [List.append_cons]
      refine ih (h.step hs next) ?_
      rw [after_concat]
      exact hs.step next behind ordered read

/-- **The tokens of the tags of an element** whose end tag is known. -/
theorem exists_tags {id stop : Nat}
    (h : (after text (scanAll text).1).viewed endTagOpen id = some (some stop)) :
    EndedAt text (scanAll text).1 id stop := by
  have hnone : TagsFound text [] := by
    constructor
    · rintro o ⟨⟩
    · rintro i stop hi
      cases hi
  have hall := hnone.append steady_empty (follow_scanAll text)
  rw [List.nil_append] at hall
  exact hall.ended id stop h

end Builder

end XmlAdvisor
