import XmlAdvisor.Proofs.CompletionSites

/-!
# Values inside their start tags

The values of an element stand behind its name and in front of the place where its start tag closes,
and the element does not end before them, whatever breaks off.  So an offset that touches a value is
in the start tag of its element, and a value belongs to one attribute of one element.

* `Element.Encloses` — where the values of an element are.
* `Builder.Encloses` — the invariant: all elements that have been read enclose their values.
* **`Tree.hasInTag_of_hasInValue`** — in a value is in the start tag.
* `Tree.eq_of_hasInValue` — a value belongs to one attribute.
-/

namespace XmlAdvisor

/-! ## Elements -/

/-- Whether the name of an element that begins and ends at offsets has been read, and its values
stand behind the name, inside the element and in front of the place where its start tag closes. -/
structure Element.Encloses (start stop now : Nat) (e : Element) : Prop where
  named : start + 1 + e.tagName.length ≤ now
  behind : ∀ a ∈ e.attributes, start + 1 + e.tagName.length < a.valueSpan.start
  inside : ∀ a ∈ e.attributes, a.valueSpan.stop < stop
  before : ∀ a ∈ e.attributes, a.valueSpan.stop < now
  closed : ∀ a ∈ e.attributes, ∀ close ∈ e.startTagClose, a.valueSpan.stop < close

namespace Element.Encloses

variable {start stop now now' : Nat} {e : Element}

/-- An element that ends elsewhere, but not before what has been read. -/
lemma of_stop (h : e.Encloses start stop now) (hle : now ≤ now') {stop' : Nat}
    (hstop : stop ≤ stop' ∨ now ≤ stop') : e.Encloses start stop' now' where
  named := Nat.le_trans h.named hle
  behind := h.behind
  inside a ha := by
    have hinside := h.inside a ha
    have hbefore := h.before a ha
    omega
  before a ha := Nat.lt_of_lt_of_le (h.before a ha) hle
  closed := h.closed

/-- A start tag closes behind all that has been read of it. -/
lemma close (h : e.Encloses start stop now) {close : Nat} (hclose : now ≤ close)
    (selfClosed : Bool) :
    ({ e with startTagClose := some close, selfClosed } : Element).Encloses start stop now where
  named := h.named
  behind := h.behind
  inside := h.inside
  before := h.before
  closed := by
    rintro a ha _ ⟨⟩
    exact Nat.lt_of_lt_of_le (h.before a ha) hclose

/-- An attribute is put behind all that has been read of a start tag that is not closed. -/
lemma put (h : e.Encloses start stop now) (hopen : e.startTagClose = none) {name : QualifiedName}
    {value : String} {nameSpan valueSpan span : Span} (hle : now ≤ span.start)
    (hquoted : (Token.attribute name value nameSpan valueSpan span).Quoted)
      (hstop : span.stop ≤ stop) :
    ({ e with attributes := putAttribute ⟨name.text, value, nameSpan, valueSpan⟩ e.attributes } :
      Element).Encloses start stop span.stop := by
  obtain ⟨hfirst, hordered, hlast⟩ := hquoted
  have hnamed := h.named
  constructor
  case named => exact Nat.le_trans hnamed (by omega)
  case behind =>
    intro a ha
    rcases mem_putAttribute ha with rfl | ha
    · show start + 1 + e.tagName.length < valueSpan.start
      omega
    · exact h.behind a ha
  case inside =>
    intro a ha
    rcases mem_putAttribute ha with rfl | ha
    · exact Nat.lt_of_lt_of_le hlast hstop
    · exact h.inside a ha
  case before =>
    intro a ha
    rcases mem_putAttribute ha with rfl | ha
    · exact hlast
    · have hbefore := h.before a ha
      omega
  case closed =>
    intro a _ close hclose
    rw [Option.mem_def] at hclose
    exact absurd (hopen.symm.trans hclose) (by simp)

end Element.Encloses

/-- Whether a node encloses its values, if it is an element. -/
def Node.Encloses (now : Nat) (n : Node) : Prop :=
  ∀ e, n.element? = some e → e.Encloses n.span.start n.span.stop now

lemma Node.Encloses.changeElement {n : Node} {now now' : Nat} {f : Element → Element}
    (h : n.Encloses now)
    (hf : ∀ e, n.element? = some e → e.Encloses n.span.start n.span.stop now →
      (f e).Encloses n.span.start n.span.stop now') : (n.changeElement f).Encloses now' := by
  intro x hx
  rw [element?_changeElement] at hx
  obtain ⟨e, he, rfl⟩ := Option.map_eq_some_iff.mp hx
  rw [Builder.stop_changeElement]
  exact hf e he (h e he)

lemma Node.Encloses.of_stop {n : Node} {now now' stop : Nat} (h : n.Encloses now) (hle : now ≤ now')
    (hstop : n.span.stop ≤ stop ∨ now ≤ stop) :
    ({ n with span.stop := stop } : Node).Encloses now' :=
  fun e he => (h e he).of_stop hle hstop

/-! ## The invariant -/

namespace Builder

variable {text : List Char} {b : Builder} {phase phase' : Phase} {now now' : Nat} {t : Token}

/-- Whether all elements that have been read enclose their values. -/
def Encloses (now : Nat) (b : Builder) : Prop :=
  ∀ (i : Nat) (n : Node), b.nodes[i]? = some n → n.Encloses now

namespace Encloses

lemma mono (h : b.Encloses now) (hle : now ≤ now') : b.Encloses now' :=
  fun i n hn e he => (h i n hn e he).of_stop hle (.inl (Nat.le_refl _))

lemma onNode (h : b.Encloses now) (hle : now ≤ now') (id : Nat) {f : Node → Node}
    (hf : ∀ n, b.nodes[id]? = some n → n.Encloses now → (f n).Encloses now') :
    (b.onNode id f).Encloses now' := by
  intro i m hm
  rw [getElem?_onNode] at hm
  obtain ⟨n, hn, rfl⟩ := Option.map_eq_some_iff.mp hm
  split_ifs with hi
  · subst hi
    exact hf n hn (h _ n hn)
  · exact h.mono hle i n hn

lemma onElement (h : b.Encloses now) (id : Nat) {f : Element → Element}
    (hf : ∀ e start stop, e.Encloses start stop now → (f e).Encloses start stop now) :
    (b.onElement id f).Encloses now := by
  rw [onElement_eq]
  exact h.onNode (Nat.le_refl _) id fun n _ hn => hn.changeElement fun e _ he => hf e _ _ he

lemma endAt (h : b.Encloses now) (id : Nat) {stop : Nat} (hle : now ≤ stop) :
    (b.endAt id stop).Encloses now :=
  h.onNode (Nat.le_refl _) id fun _ _ hn => hn.of_stop (Nat.le_refl _) (.inr hle)

lemma endAll (h : b.Encloses now) (unclosed : List OpenElement) {stop : Nat} (hle : now ≤ stop) :
    (b.endAll unclosed stop).Encloses now := by
  induction unclosed generalizing b with
  | nil => exact h
  | cons o unclosed ih => exact ih (h.endAt o.id hle)

lemma resolve (h : b.Encloses now) (id : Nat) : (b.resolve id).Encloses now :=
  h.onElement id fun _ _ _ he => ⟨he.named, he.behind, he.inside, he.before, he.closed⟩

/-- A new node encloses what it has from the beginning. -/
lemma push (h : b.Encloses now) (hle : now ≤ now') (hopen : ∀ id ∈ b.openIds, id < b.nodes.size)
    {kind : NodeKind} {span : Span} (hkind : ∀ parent, (Node.mk parent span kind).Encloses now') :
    (b.push kind span).Encloses now' := by
  intro i m hm
  rcases getElem?_push_cases hopen hm with ⟨-, rfl⟩ | ⟨n, hn, rfl⟩
  · exact hkind _
  · rw [adopt]
    split_ifs
    · exact (h.mono hle i n hn).changeElement fun e _ he =>
        ⟨he.named, he.behind, he.inside, he.before, he.closed⟩
    · exact h.mono hle i n hn

lemma pushOther (h : b.Encloses now) (hs : b.Steady phase now) (hphase : phase ≠ .tag)
    {kind : NodeKind} {span : Span} (hle : now ≤ span.stop)
    (hkind : ∀ parent, (Node.mk parent span kind).element? = none) :
    (b.push kind span).Encloses span.stop := by
  refine h.push hle (hs.nested_open hphase).openIds_lt fun parent e he => ?_
  rw [hkind] at he
  cases he

lemma openTag (h : b.Encloses now) (hs : b.Steady phase now) (hphase : phase ≠ .tag)
    {name : QualifiedName} {span : Span} (hle : now ≤ span.stop)
    (hname : span.start + 1 + name.text.length ≤ span.stop) :
    (b.openTag name span).Encloses span.stop := by
  refine h.push hle (hs.nested_open hphase).openIds_lt fun parent e he => ?_
  cases he
  refine ⟨hname, ?_, ?_, ?_, ?_⟩ <;> rintro a ⟨⟩

lemma addAttribute (h : b.Encloses now) (ht : b.Tagged text now) {name : QualifiedName}
    {value : String} {nameSpan valueSpan span : Span} (hle : now ≤ span.start)
    (hquoted : (Token.attribute name value nameSpan valueSpan span).Quoted) :
    (b.addAttribute name value nameSpan valueSpan span).Encloses span.stop := by
  have hnow : now ≤ span.stop := by
    obtain ⟨hstart, hordered, hstop⟩ := hquoted
    omega
  cases hp : b.pending with
  | none =>
      rw [Builder.addAttribute, hp]
      exact h.mono hnow
  | some p =>
      obtain ⟨begun, htags, -⟩ := ht.pending p hp
      rw [Builder.addAttribute, hp]
      dsimp only
      have hgrown : Encloses now (({ b with scope := _ } : Builder).onNode p.id fun n =>
          { n with span.stop := max n.span.stop span.stop }) :=
        onNode (b := { b with scope := _ }) h (Nat.le_refl _) p.id fun n _ hn =>
          hn.of_stop (Nat.le_refl _) (.inl (Nat.le_max_left _ _))
      rw [onElement_eq]
      refine hgrown.onNode hnow p.id fun m hm hclosed =>
        hclosed.changeElement fun e he hencloses => ?_
      rw [getElem?_onNode] at hm
      obtain ⟨n, hn, hsame⟩ := Option.map_eq_some_iff.mp hm
      rw [if_pos rfl] at hsame
      subst hsame
      refine hencloses.put ?_ hle hquoted (Nat.le_max_right _ _)
      have hn : b.nodes[p.id]? = some n := hn
      have he : n.element? = some e := he
      rw [tags?, hn, Option.bind_some, Node.tags?, he] at htags
      exact congrArg Tags.close? (Option.some.inj htags)

/-- The end of a start tag. -/
lemma endOfStart (h : b.Encloses now) (id : Nat) {stop close : Nat} (hle : now ≤ stop)
    (hclose : now ≤ close) (selfClosed : Element → Bool) :
    (((b.resolve id).endAt id stop).onElement id fun e =>
      { e with startTagClose := some close, selfClosed := selfClosed e }).Encloses stop :=
  (((h.resolve id).endAt id hle).onElement id fun _ _ _ he => he.close hclose _).mono hle

lemma closeTag (h : b.Encloses now) {span : Span} (hle : now ≤ span.start)
    (hordered : span.start ≤ span.stop) : (b.closeTag span).Encloses span.stop := by
  rw [Builder.closeTag]
  split
  · exact h.mono (Nat.le_trans hle hordered)
  · exact h.endOfStart _ (Nat.le_trans hle hordered) hle (·.selfClosed)

lemma selfCloseTag (h : b.Encloses now) {span : Span} (hle : now ≤ span.start)
    (hfilled : span.start < span.stop) : (b.selfCloseTag span).Encloses span.stop := by
  rw [Builder.selfCloseTag]
  split
  · exact h.mono (by omega)
  · exact h.endOfStart _ (by omega) (by omega) fun _ => true

lemma endTag (h : b.Encloses now) (name : QualifiedName) {span : Span} (hle : now ≤ span.start)
    (hordered : span.start ≤ span.stop) : (b.endTag name span).Encloses span.stop := by
  have hnow := Nat.le_trans hle hordered
  rw [Builder.endTag]
  split
  · exact h.mono hnow
  · rename_i closed _ _
    have hended := (((h.endAll (b.opened.takeWhile (·.tag != name.text)) hle).endAt closed.id
      hnow).onElement closed.id (f := fun e => { e with endTagOpen := some span.start })
        fun _ _ _ he => ⟨he.named, he.behind, he.inside, he.before, he.closed⟩).mono hnow
    exact fun i n hn => hended i n hn

/-- One token keeps the values of all elements enclosed. -/
lemma step (h : b.Encloses now) (hs : b.Steady phase now) (ht : b.Tagged text now)
    (hnext : t.next? phase = some phase') (hle : now ≤ t.span.start)
    (hfilled : t.span.start < t.span.stop) (hname : t.NameInside) (hquoted : t.Quoted) :
    (b.step text t).Encloses t.span.stop := by
  have hnow : now ≤ t.span.stop := by omega
  cases t with
  | doctype name external subset span =>
      cases phase <;> cases hnext
      have hpush : (b.push (.doctype ⟨name, external.bind (·.publicId), external.map (·.systemId),
          none⟩) span).Encloses span.stop := h.pushOther hs (by decide) hnow fun _ => rfl
      rw [Builder.step, Builder.addDoctype]
      dsimp only
      split_ifs <;> exact hpush
  | subsetEnd span =>
      -- there is no element yet
      cases phase <;> cases hnext
      intro i n hn e he
      rw [((hs.endSubset text hnow).fits.2 i n hn)] at he
      cases he
  | comment content span =>
      cases phase <;> cases hnext <;> exact h.pushOther hs (by decide) hnow fun _ => rfl
  | instruction target data span =>
      cases phase <;> cases hnext <;> exact h.pushOther hs (by decide) hnow fun _ => rfl
  | cdata content span =>
      cases phase <;> cases hnext
      exact h.pushOther hs (by decide) hnow fun _ => rfl
  | text content span =>
      cases phase <;> cases hnext
      exact h.pushOther hs (by decide) hnow fun _ => rfl
  | tagOpen name span => cases phase <;> cases hnext <;> exact h.openTag hs (by decide) hnow hname
  | «attribute» name value nameSpan valueSpan span => exact h.addAttribute ht hle hquoted
  | tagClose span => exact h.closeTag hle hfilled.le
  | tagSelfClose span => exact h.selfCloseTag hle hfilled
  | endTag name span => exact h.endTag name hle hfilled.le

/-- What has been read keeps the values of all elements enclosed. -/
lemma foldl_step {tokens : List Token} (h : b.Encloses now) (hs : b.Steady phase now)
    (ht : b.Tagged text now) (hfollow : Follow text.length phase now tokens)
    (htokens : ∀ t ∈ tokens, t.Marked text ∧ t.span.start < t.span.stop ∧ t.NameInside ∧ t.Quoted) :
    ∃ now' ≤ text.length, (tokens.foldl (Builder.step text) b).Encloses now' := by
  induction hfollow generalizing b with
  | nil inside => exact ⟨_, inside, h⟩
  | cons next behind ordered read more ih =>
      obtain ⟨hmarked, hfilled, hname, hquoted⟩ := htokens _ (List.mem_cons_self ..)
      exact ih (h.step hs ht next behind hfilled hname hquoted) (hs.step next behind ordered read)
        (ht.step hs next behind ordered read hmarked) fun t ht =>
          htokens t (List.mem_cons_of_mem _ ht)

lemma finish (h : b.Encloses now) {length : Nat} (hle : now ≤ length) :
    (b.finish length).Encloses now := by
  rw [Builder.finish]
  split
  · exact h.endAll b.opened hle
  · rename_i p hp
    exact ((h.resolve p.id).endAt p.id hle).endAll b.opened hle

end Encloses

end Builder

/-! ## The tree -/

namespace Tree

variable {text : List Char} {e e' : ElementNode} {a a' : Attribute} {offset : Nat}

/-- The elements of every tree enclose their values. -/
lemma exists_encloses (he : e ∈ (Tree.parse text).elements) :
    ∃ now, e.element.Encloses e.span.start e.span.stop now := by
  have hnone : Builder.empty.Encloses 0 := by
    intro i n hn
    simp [Builder.empty] at hn
  have htokens : ∀ t ∈ (scanAll text).1,
      t.Marked text ∧ t.span.start < t.span.stop ∧ t.NameInside ∧ t.Quoted := fun t ht =>
    ⟨marked_of_mem_scanAll text t ht, filled_of_mem_scanAll text t ht,
      nameInside_of_mem_scanAll text t ht, quoted_of_mem_scanAll text t ht⟩
  obtain ⟨now, hle, hencloses⟩ := hnone.foldl_step Builder.steady_empty Builder.tagged_empty
    (follow_scanAll text) htokens
  obtain ⟨n, hn, hel, -, hspan⟩ := (element?_eq_some (mem_elements.mp he)).2
  exact ⟨now, hspan ▸ hencloses.finish hle e.id n hn e.element hel⟩

/-- **In a value is in the start tag** of its element. -/
theorem hasInTag_of_hasInValue (he : e ∈ (Tree.parse text).elements) (ha : a ∈ e.element.attributes)
    (h : a.HasInValue offset) : e.HasInTag offset := by
  obtain ⟨now, hencloses⟩ := exists_encloses he
  have hbehind := hencloses.behind a ha
  have hinside := hencloses.inside a ha
  obtain ⟨hafter, hbefore⟩ := h
  constructor
  case behind => exact Nat.lt_of_lt_of_le hbehind hafter
  case before =>
    intro close hclose
    have hclosed := hencloses.closed a ha close hclose
    omega
  case inside => omega

/-- A value belongs to one attribute of one element. -/
lemma eq_of_hasInValue (he : e ∈ (Tree.parse text).elements) (he' : e' ∈ (Tree.parse text).elements)
    (ha : a ∈ e.element.attributes) (ha' : a' ∈ e'.element.attributes) (h : a.HasInValue offset)
    (h' : a'.HasInValue offset) : e' = e ∧ a' = a := by
  have hsite := siteAt?_eq_of_hasInTag he (hasInTag_of_hasInValue he ha h)
    (.value (hasInTag_of_hasInValue he ha h) ha h)
  have hsite' := siteAt?_eq_of_hasInTag he' (hasInTag_of_hasInValue he' ha' h')
    (.value (hasInTag_of_hasInValue he' ha' h') ha' h')
  rw [hsite, Option.some.injEq, CompletionSite.attributeValue.injEq] at hsite'
  obtain ⟨rfl, -⟩ := hsite'
  exact ⟨rfl, eq_of_touched he ha' ha h' h⟩

end Tree

end XmlAdvisor
