import XmlAdvisor.Proofs.ElementViews
import XmlAdvisor.Proofs.QualifiedNames
import XmlAdvisor.Proofs.TagPlaces
import XmlAdvisor.Proofs.VisitOrder

/-!
# Bindings in force and declarations around an element

The namespace of an element is settled when its start tag ends, from the bindings that are then in
force. The same question can be put to the finished tree, which answers it from the attributes of
the element and of those around it.  Both answers are the nearest declaration outwards, so they
agree, whatever faults the text has.

* `Nearest` — the nearest declaration of a qualifier from a place outwards.
* `Mirrors` — whether bindings say of every qualifier what the nearest declaration of it says.
* `Builder.Scoped` — the invariant: the bindings in force mirror the innermost open element, and
  those that an open element remembers mirror what is around it.  Every token keeps it.
* **`Tree.namespaceUri_of_parse`** — the namespace of an element is what its qualifier is looked up
  to.
-/

namespace XmlAdvisor

/-! ## The nearest declaration -/

/-- What is looked at on the way outwards from an element. -/
structure StartTag where
  parent : Option Nat
  attributes : List Attribute

/-- What is to be settled for an element. -/
structure Heading where
  name : QualifiedName
  namespaceUri : Option String

/-- The start tag of an element. -/
def StartTag.of : View StartTag :=
  fun parent _ e => ⟨parent, e.attributes⟩

/-- The name and the namespace of an element. -/
def Heading.of : View Heading :=
  fun _ _ e => ⟨e.name, e.namespaceUri⟩

/-- What a start tag declares a qualifier to stand for. -/
def StartTag.declared? (tag : StartTag) (q : Option String) : Option String :=
  (tag.attributes.find? (·.name = Tree.declaringName q)).map Attribute.value

/-- The nearest declaration of a qualifier from a place outwards, if there is one. -/
inductive Nearest (tags : Nat → Option StartTag) (q : Option String) :
    Option Nat → Option String → Prop
  | outermost : Nearest tags q none none
  | here {i : Nat} {tag : StartTag} {uri : String} (found : tags i = some tag)
      (declares : tag.declared? q = some uri) : Nearest tags q (some i) (some uri)
  | around {i : Nat} {tag : StartTag} {uri? : Option String} (found : tags i = some tag)
      (silent : tag.declared? q = none) (outer : Nearest tags q tag.parent uri?) :
      Nearest tags q (some i) uri?

/-- The namespace that a declaration gives to the names with a qualifier.  An empty one takes a
declaration back. -/
def namespaceFrom (q : Option String) (declared : Option String) : Option String :=
  if q = some "xml" then some xmlNamespace
  else
    match declared with
    | some uri => if uri.isEmpty then none else some uri
    | none => none

/-- What bindings say of a qualifier. -/
def uriIn (scope : List Binding) (q : Option String) : Option String :=
  (scope.find? (·.qualifier = q)).map Binding.uri

/-- Whether bindings say of every qualifier what the nearest declaration of it says. -/
def Mirrors (tags : Nat → Option StartTag) (scope : List Binding) (place : Option Nat) : Prop :=
  ∀ q, Nearest tags q place (uriIn scope q)

/-- Whether the namespace of an element is that of the nearest declaration. -/
def Heading.ResolvedAt (tags : Nat → Option StartTag) (i : Nat) (heading : Heading) : Prop :=
  ∃ declared, Nearest tags heading.name.qualifier (some i) declared ∧
    heading.namespaceUri = namespaceFrom heading.name.qualifier declared

lemma namespaceIn_eq (scope : List Binding) (q : Option String) :
    namespaceIn scope q = namespaceFrom q (uriIn scope q) := by
  unfold namespaceIn namespaceFrom uriIn
  cases scope.find? (·.qualifier = q) with
  | none => rfl
  | some b => rfl

namespace Nearest

variable {tags tags' : Nat → Option StartTag} {q : Option String} {place : Option Nat}
  {uri? : Option String}

/-- More elements have no effect on what is around those that there were. -/
lemma mono (h : Nearest tags q place uri?) (hle : ∀ i tag, tags i = some tag → tags' i = some tag) :
    Nearest tags' q place uri? := by
  induction h with
  | outermost => exact .outermost
  | here found declares => exact .here (hle _ _ found) declares
  | around found silent _ ih => exact .around (hle _ _ found) silent ih

/-- An element without children is on no way outwards but its own. -/
lemma elsewhere (h : Nearest tags q place uri?) {p : Nat} (hplace : place ≠ some p)
    (hkeeps : ∀ i, i ≠ p → tags' i = tags i)
    (hchildless : ∀ i tag, tags i = some tag → tag.parent ≠ some p) :
    Nearest tags' q place uri? := by
  have hfound {i : Nat} {tag : StartTag} (hi : some i ≠ some p) (found : tags i = some tag) :
      tags' i = some tag := by
    rw [hkeeps i fun heq => hi (congrArg some heq)]
    exact found
  induction h with
  | outermost => exact .outermost
  | here found declares => exact .here (hfound hplace found) declares
  | around found silent _ ih =>
      exact .around (hfound hplace found) silent (ih (hchildless _ _ found))

end Nearest

lemma Mirrors.mono {tags tags' : Nat → Option StartTag} {scope : List Binding} {place : Option Nat}
    (h : Mirrors tags scope place) (hle : ∀ i tag, tags i = some tag → tags' i = some tag) :
    Mirrors tags' scope place :=
  fun q => (h q).mono hle

/-! ### A new attribute -/

/-- A start tag with an attribute more. -/
def StartTag.put (a : Attribute) (tag : StartTag) : StartTag :=
  { tag with attributes := putAttribute a tag.attributes }

/-- An attribute that is put is found, and the others as before. -/
lemma find?_putAttribute (a : Attribute) (attributes : List Attribute) (name : String) :
    (putAttribute a attributes).find? (·.name = name) =
      if a.name = name then some a else attributes.find? (·.name = name) := by
  induction attributes with
  | nil =>
      rw [putAttribute, List.find?_singleton]
      simp
  | cons b rest ih =>
      rw [putAttribute]
      split_ifs with hsame hname hname
      · simp [hname]
      · have hb : b.name ≠ name := by rwa [hsame]
        simp [hname, hb]
      · have hb : b.name ≠ name := by rwa [← hname]
        rw [List.find?_cons_of_neg (by simpa using hb), ih, if_pos hname]
      · rw [List.find?_cons, List.find?_cons, ih, if_neg hname]

/-- What a start tag with an attribute more declares is what bindings with its binding more say. -/
lemma Mirrors.put {tags tags' : Nat → Option StartTag} {scope : List Binding} {p : Nat}
    {name : QualifiedName} (hname : name.Plain) {a : Attribute} (ha : a.name = name.text)
    (h : Mirrors tags scope (some p)) (hput : tags' p = (tags p).map (StartTag.put a))
    (hkeeps : ∀ i, i ≠ p → tags' i = tags i)
    (hchildless : ∀ i tag, tags i = some tag → tag.parent ≠ some p) :
    Mirrors tags' ((bindingOf name a.value).toList ++ scope) (some p) := by
  intro q
  have hdeclared (tag : StartTag) : (tag.put a).declared? q =
      if name.text = Tree.declaringName q then some a.value else tag.declared? q := by
    rw [StartTag.declared?, StartTag.put, find?_putAttribute, ha]
    split_ifs <;> rfl
  have huri : uriIn ((bindingOf name a.value).toList ++ scope) q =
      if name.text = Tree.declaringName q then some a.value else uriIn scope q := by
    have huris : ∀ b ∈ bindingOf name a.value, b.uri = a.value := by
      intro b hb
      rw [bindingOf] at hb
      split at hb <;> split_ifs at hb <;> cases hb <;> rfl
    simp only [text_eq_declaringName_iff hname a.value q]
    rw [uriIn]
    cases hb : bindingOf name a.value with
    | none => simp [uriIn]
    | some b =>
        by_cases hq : b.qualifier = q
        · simp [hq, huris b hb]
        · simp [hq, uriIn]
  have hfound {tag : StartTag} (found : tags p = some tag) : tags' p = some (tag.put a) := by
    rw [hput, found]
    rfl
  have hnearest := h q
  rw [huri]
  generalize uriIn scope q = uri? at hnearest ⊢
  -- whatever the start tag declared, it is the new attribute that counts if it declares the same
  cases hnearest with
  | here found declares =>
      split_ifs with hsame
      · exact .here (hfound found) (by rw [hdeclared, if_pos hsame])
      · exact .here (hfound found) (by rw [hdeclared, if_neg hsame, declares])
  | around found silent outer =>
      split_ifs with hsame
      · exact .here (hfound found) (by rw [hdeclared, if_pos hsame])
      · exact .around (hfound found) (by rw [hdeclared, if_neg hsame, silent])
          (outer.elsewhere (hchildless _ _ found) hkeeps hchildless)

/-! ## What a builder knows of scopes -/

namespace Builder

variable {text : List Char} {b b' : Builder} {now : Nat} {phase : Phase}

/-- The start tags that have been read, as far as they have been read. -/
abbrev startTags (b : Builder) : Nat → Option StartTag :=
  b.viewed StartTag.of

/-- The names and the namespaces of elements. -/
abbrev headings (b : Builder) : Nat → Option Heading :=
  b.viewed Heading.of

/-- The innermost of some elements. -/
def innermost (elements : List OpenElement) : Option Nat :=
  elements.head?.map (·.id)

/-- The elements whose ends have not been reached, innermost first. -/
def unended (b : Builder) : List OpenElement :=
  b.pending.toList ++ b.opened

/-- Whether the bindings that are known mirror the start tags that have been read. -/
structure Scoped (b : Builder) : Prop where
  inForce : Mirrors b.startTags b.scope (innermost b.unended)
  around : ∀ o outside, o :: outside <:+ b.unended → Mirrors b.startTags o.outer (innermost outside)
  settled : ∀ i heading, b.headings i = some heading → (∀ p ∈ b.pending, p.id ≠ i) →
    heading.ResolvedAt b.startTags i
  childless : ∀ p ∈ b.pending, ∀ i tag, b.startTags i = some tag → tag.parent ≠ some p.id

lemma scoped_empty : empty.Scoped := by
  constructor
  case inForce => exact fun q => .outermost
  case around =>
    intro o outside hsuffix
    cases List.suffix_nil.mp hsuffix
  case settled =>
    rintro i heading ⟨⟩
  case childless =>
    rintro p ⟨⟩

/-- Tokens that are neither tags nor attributes have no effect. -/
lemma Scoped.of_views (h : b.Scoped) (htags : b'.startTags = b.startTags)
    (hheadings : b'.headings = b.headings) (hopened : b'.opened = b.opened)
    (hscope : b'.scope = b.scope) (hpending : b'.pending = b.pending) : b'.Scoped := by
  have hunended : b'.unended = b.unended := by rw [unended, unended, hpending, hopened]
  constructor
  case inForce =>
    rw [htags, hscope, hunended]
    exact h.inForce
  case around =>
    rw [htags, hunended]
    exact h.around
  case settled =>
    rw [htags, hheadings, hpending]
    exact h.settled
  case childless =>
    rw [htags, hpending]
    exact h.childless

lemma scope_push (b : Builder) (kind : NodeKind) (span : Span) :
    (b.push kind span).scope = b.scope := by
  rw [push]
  cases b.opened <;> rfl

lemma Scoped.pushOther (h : b.Scoped) (hs : b.Steady phase now) (hphase : phase ≠ .tag)
    {kind : NodeKind} {span : Span} (hkind : ∀ parent, (Node.mk parent span kind).element? = none) :
    (b.push kind span).Scoped := by
  have hlt := (hs.nested_open hphase).openIds_lt
  exact h.of_views (viewed_pushOther (fun _ _ _ _ => rfl) hlt hkind)
    (viewed_pushOther (fun _ _ _ _ => rfl) hlt hkind) (opened_push b kind span)
    (scope_push b kind span) (pending_push b kind span)

lemma Scoped.addDoctype (h : b.Scoped) (hs : b.Steady .head now) (name : String)
    (external : Option ExternalId) (subset : Bool) (span : Span) :
    (b.addDoctype name external subset span).Scoped := by
  have hpush : (b.push (.doctype
      ⟨name, external.bind (·.publicId), external.map (·.systemId), none⟩)
      span).Scoped := h.pushOther hs (by decide) fun _ => rfl
  rw [Builder.addDoctype]
  dsimp only
  split_ifs <;> exact hpush.of_views rfl rfl rfl rfl rfl

lemma Scoped.endSubset (h : b.Scoped) (text : List Char) (span : Span) :
    (b.endSubset text span).Scoped := by
  have hrest : (b.endSubset text span).opened = b.opened ∧ (b.endSubset text span).scope = b.scope ∧
      (b.endSubset text span).pending = b.pending := by
    rw [Builder.endSubset]
    split <;> exact ⟨rfl, rfl, rfl⟩
  exact h.of_views (b.viewed_endSubset text span) (b.viewed_endSubset text span) hrest.1 hrest.2.1
    hrest.2.2

/-- A new element declares nothing yet, so what is in force does not change. -/
lemma Scoped.openTag (h : b.Scoped) (hs : b.Steady phase now) (hphase : phase ≠ .tag)
    (name : QualifiedName) (span : Span) : (b.openTag name span).Scoped := by
  have hnested := hs.nested_open hphase
  have hlt := hnested.openIds_lt
  have hunended : b.unended = b.opened := by rw [unended, hs.pending_none hphase]; rfl
  have hunended' : (b.openTag name span).unended =
      ⟨b.nodes.size, name.text, b.scope⟩ :: b.opened := by
    rw [unended, Builder.openTag, opened_push]
    rfl
  have hhead : b.openIds.head? = innermost b.opened := List.head?_map
  have htags (i : Nat) : (b.openTag name span).startTags i =
      if i = b.nodes.size then some ⟨innermost b.opened, []⟩ else b.startTags i := by
    rw [← hhead]
    exact viewed_push (ψ := StartTag.of) (fun _ _ _ _ => rfl) _ span hlt i
  have hheadings (i : Nat) : (b.openTag name span).headings i =
      if i = b.nodes.size then some ⟨name, none⟩ else b.headings i :=
    viewed_push (ψ := Heading.of) (fun _ _ _ _ => rfl) _ span hlt i
  have hbound {i : Nat} {tag : StartTag} (hi : b.startTags i = some tag) : i ≠ b.nodes.size := by
    rintro rfl
    rw [startTags, viewed_size] at hi
    cases hi
  have hle : ∀ i tag, b.startTags i = some tag → (b.openTag name span).startTags i = some tag := by
    intro i tag hi
    rw [htags, if_neg (hbound hi)]
    exact hi
  have hinForce : Mirrors b.startTags b.scope (innermost b.opened) := hunended ▸ h.inForce
  have hself : (b.openTag name span).startTags b.nodes.size = some ⟨innermost b.opened, []⟩ := by
    rw [htags, if_pos rfl]
  constructor
  case inForce =>
    rw [hunended', Builder.openTag, scope_push]
    exact fun q => .around hself rfl ((hinForce q).mono hle)
  case around =>
    intro o outside hsuffix
    rw [hunended', List.suffix_cons_iff] at hsuffix
    rcases hsuffix with heq | hsuffix
    · cases heq
      exact hinForce.mono hle
    · exact (h.around o outside (hunended ▸ hsuffix)).mono hle
  case settled =>
    intro i heading hi hpending
    have hne : i ≠ b.nodes.size := (hpending _ rfl).symm
    rw [hheadings, if_neg hne] at hi
    obtain ⟨declared, hnearest, heq⟩ :=
      h.settled i heading hi (by rw [hs.pending_none hphase]; rintro p ⟨⟩)
    exact ⟨declared, hnearest.mono hle, heq⟩
  case childless =>
    rintro p ⟨⟩ i tag hi hparent
    rw [htags] at hi
    split_ifs at hi
    · cases hi
      rw [← hhead] at hparent
      exact absurd (hlt _ (List.mem_of_head? hparent)) (Nat.lt_irrefl _)
    · obtain ⟨n, hn, hviewed⟩ := Option.bind_eq_some_iff.mp hi
      obtain ⟨e, -, rfl⟩ := Option.map_eq_some_iff.mp hviewed
      have hafter := (hnested.inside i n _ hn hparent).1
      have hinside := (Array.getElem?_eq_some_iff.mp hn).1
      exact absurd hinside (Nat.lt_asymm hafter)

lemma unended_of_pending {p : OpenElement} (hp : b.pending = some p) :
    b.unended = p :: b.opened := by
  rw [unended, hp]
  rfl

/-- An attribute that is put and the binding that it makes. -/
lemma Scoped.put (h : b.Scoped) (hs : b.Steady phase now) {p : OpenElement}
    (hp : b.pending = some p) {name : QualifiedName} (hname : name.Plain) {a : Attribute}
    (ha : a.name = name.text)
    (htags : ∀ i, b'.startTags i =
      if p.id = i then (b.startTags i).map (StartTag.put a) else b.startTags i)
    (hheadings : b'.headings = b.headings) (hunended : b'.unended = b.unended)
    (hpending : b'.pending = b.pending)
    (hscope : b'.scope = (bindingOf name a.value).toList ++ b.scope) : b'.Scoped := by
  have hput : b'.startTags p.id = (b.startTags p.id).map (StartTag.put a) := by
    rw [htags, if_pos rfl]
  have hkeeps : ∀ i, i ≠ p.id → b'.startTags i = b.startTags i :=
    fun i hi => by rw [htags, if_neg (Ne.symm hi)]
  have hchildless := h.childless p hp
  have helements := unended_of_pending hp
  constructor
  case inForce =>
    have hinForce := h.inForce
    rw [helements] at hinForce
    rw [hunended, helements, hscope]
    exact hinForce.put hname ha hput hkeeps hchildless
  case around =>
    intro o outside hsuffix q
    rw [hunended] at hsuffix
    refine (h.around o outside hsuffix q).elsewhere ?_ hkeeps hchildless
    intro hplace
    obtain ⟨o', ho', hid⟩ := Option.map_eq_some_iff.mp hplace
    rw [helements] at hsuffix
    have hopened : outside <:+ b.opened := by
      rcases List.suffix_cons_iff.mp hsuffix with heq | hsuffix
      · cases heq
        exact List.suffix_refl _
      · exact (List.suffix_cons o outside).trans hsuffix
    exact pending_ne_opened hs hp (hopened.mem (List.mem_of_head? ho')) hid.symm
  case settled =>
    intro i heading hi hnot
    rw [hpending] at hnot
    have hne : some i ≠ some p.id := fun heq => hnot p hp (Option.some.inj heq).symm
    obtain ⟨declared, hnearest, heq⟩ := h.settled i heading (hheadings ▸ hi) hnot
    exact ⟨declared, hnearest.elsewhere hne hkeeps hchildless, heq⟩
  case childless =>
    intro p' hp' i tag hi
    rw [hpending] at hp'
    rw [htags] at hi
    split_ifs at hi
    · obtain ⟨tag', htag', rfl⟩ := Option.map_eq_some_iff.mp hi
      exact h.childless p' hp' i tag' htag'
    · exact h.childless p' hp' i tag hi

/-- An attribute that declares a namespace binds it. -/
lemma Scoped.addAttribute (h : b.Scoped) (hs : b.Steady phase now) {name : QualifiedName}
    (hname : name.Plain) (value : String) (nameSpan valueSpan span : Span) :
    (b.addAttribute name value nameSpan valueSpan span).Scoped := by
  cases hp : b.pending with
  | none =>
      rw [Builder.addAttribute, hp]
      exact h
  | some p =>
      have hrest : (b.addAttribute name value nameSpan valueSpan span).unended = b.unended ∧
          (b.addAttribute name value nameSpan valueSpan span).pending = b.pending ∧
          (b.addAttribute name value nameSpan valueSpan span).scope =
            (bindingOf name value).toList ++ b.scope := by
        rw [Builder.addAttribute, hp]
        exact ⟨by rw [unended, unended, hp]; rfl, rfl, rfl⟩
      refine h.put hs hp hname (a := ⟨name.text, value, nameSpan, valueSpan⟩) rfl
        (viewed_addAttribute hp name value nameSpan valueSpan span fun _ _ _ => rfl)
        (funext fun i => ?_) hrest.1 hrest.2.1 hrest.2.2
      rw [headings, viewed_addAttribute hp (g := fun heading => heading) name value
        nameSpan valueSpan
        span fun _ _ _ => by exact rfl, Option.map_id', ite_self]

/-- The end of a start tag settles the namespace of its element. -/
lemma Scoped.resolve (h : b.Scoped) {p : OpenElement} (hp : b.pending = some p) {i : Nat}
    {heading : Heading} (hi : (b.resolve p.id).headings i = some heading) :
    heading.ResolvedAt b.startTags i := by
  rw [headings, Builder.resolve, viewed_onElement p.id
    (g := fun h : Heading => ⟨h.name, namespaceIn b.scope h.name.qualifier⟩) fun _ _ _ => rfl] at hi
  split_ifs at hi with hpi
  · obtain ⟨before, -, rfl⟩ := Option.map_eq_some_iff.mp hi
    have hinForce := h.inForce before.name.qualifier
    rw [unended_of_pending hp] at hinForce
    exact ⟨_, hpi ▸ hinForce, namespaceIn_eq b.scope _⟩
  · refine h.settled i heading hi fun p' hp' => ?_
    rw [hp, Option.mem_some_iff] at hp'
    rwa [← hp']

lemma startTags_resolve (b : Builder) (id : Nat) : (b.resolve id).startTags = b.startTags :=
  viewed_onElement_of_keeps id fun _ _ _ => rfl

/-- Where a start tag ends, the element keeps its attributes and is settled.  What is open from then
on is in force. -/
lemma Scoped.endOfStart (h : b.Scoped) {p : OpenElement} (hp : b.pending = some p) {stop : Nat}
    {f : Element → Element} (hf : ∀ parent start e, StartTag.of parent start (f e) =
      StartTag.of parent start e ∧ Heading.of parent start (f e) = Heading.of parent start e)
    (hnodes : b'.nodes = (((b.resolve p.id).endAt p.id stop).onElement p.id f).nodes)
    (hpending : b'.pending = none) (hinForce : Mirrors b.startTags b'.scope (innermost b'.opened))
    (hsuffix : b'.opened <:+ b.unended) : b'.Scoped := by
  have hunended : b'.unended = b'.opened := by rw [unended, hpending]; rfl
  have hviewed {α : Type} {ψ : View α}
      (hψ : ∀ parent start e, ψ parent start (f e) = ψ parent start e) :
      b'.viewed ψ = (b.resolve p.id).viewed ψ :=
    (viewed_of_nodes hnodes).trans
      ((viewed_onElement_of_keeps p.id hψ).trans (viewed_endAt p.id stop))
  have htags : b'.startTags = b.startTags :=
    (hviewed fun parent start e => (hf parent start e).1).trans (b.startTags_resolve p.id)
  have hheadings : b'.headings = (b.resolve p.id).headings :=
    hviewed fun parent start e => (hf parent start e).2
  constructor
  case inForce =>
    rw [htags, hunended]
    exact hinForce
  case around =>
    intro o outside ho
    rw [htags]
    exact h.around o outside ((hunended ▸ ho).trans hsuffix)
  case settled =>
    intro i heading hi _
    rw [htags]
    exact h.resolve hp (hheadings ▸ hi)
  case childless =>
    rw [hpending]
    rintro p ⟨⟩

lemma Scoped.closeTag (h : b.Scoped) (span : Span) : (b.closeTag span).Scoped := by
  cases hp : b.pending with
  | none =>
      rw [Builder.closeTag, hp]
      exact h
  | some p =>
      have hunended := unended_of_pending hp
      have hinForce := h.inForce
      rw [hunended] at hinForce
      rw [Builder.closeTag, hp]
      exact h.endOfStart hp (f := fun e => { e with startTagClose := some span.start })
        (fun _ _ _ => ⟨rfl, rfl⟩) rfl rfl hinForce (hunended ▸ List.suffix_refl _)

lemma Scoped.selfCloseTag (h : b.Scoped) (span : Span) : (b.selfCloseTag span).Scoped := by
  cases hp : b.pending with
  | none =>
      rw [Builder.selfCloseTag, hp]
      exact h
  | some p =>
      have hunended := unended_of_pending hp
      have haround := h.around p b.opened (hunended ▸ List.suffix_refl _)
      rw [Builder.selfCloseTag, hp]
      exact h.endOfStart hp
        (f := fun e => { e with startTagClose := some (span.stop - 1), selfClosed := true })
        (fun _ _ _ => ⟨rfl, rfl⟩) rfl rfl haround (hunended ▸ List.suffix_cons p b.opened)

/-- An end tag leaves an element that is open, or else it has no effect. -/
lemma endTag_closes (b : Builder) (name : QualifiedName) (span : Span) :
    b.endTag name span = b ∨ ∃ closed, closed :: (b.endTag name span).opened <:+ b.opened ∧
      (b.endTag name span).scope = closed.outer ∧ (b.endTag name span).pending = b.pending := by
  have hsuffix := b.opened.dropWhile_suffix (fun o : OpenElement => o.tag != name.text)
  rw [Builder.endTag]
  cases hd : b.opened.dropWhile (fun o : OpenElement => o.tag != name.text) with
  | nil => exact .inl rfl
  | cons closed outside =>
      exact .inr ⟨closed, hd ▸ hsuffix, rfl, b.pending_endAll _ span.start⟩

/-- An end tag puts back the bindings around the element that it closes, however many others end
there. -/
lemma Scoped.endTag (h : b.Scoped) (hpending : b.pending = none) (name : QualifiedName)
    (span : Span) : (b.endTag name span).Scoped := by
  have htags : (b.endTag name span).startTags = b.startTags :=
    viewed_endTag (fun _ _ _ _ => rfl) b name span
  have hheadings : (b.endTag name span).headings = b.headings :=
    viewed_endTag (fun _ _ _ _ => rfl) b name span
  rcases endTag_closes b name span with heq | ⟨closed, hsuffix, hscope, hpending'⟩
  · rw [heq]
    exact h
  rw [hpending] at hpending'
  have hunended : b.unended = b.opened := by rw [unended, hpending]; rfl
  have hunended' : (b.endTag name span).unended = (b.endTag name span).opened := by
    rw [unended, hpending']
    rfl
  constructor
  case inForce =>
    rw [htags, hunended', hscope]
    exact h.around closed _ (hunended ▸ hsuffix)
  case around =>
    intro o outside ho
    rw [hunended'] at ho
    rw [htags]
    refine h.around o outside ?_
    rw [hunended]
    exact ho.trans ((List.suffix_cons closed _).trans hsuffix)
  case settled =>
    intro i heading hi _
    rw [htags]
    exact h.settled i heading (hheadings ▸ hi) (by rw [hpending]; rintro p ⟨⟩)
  case childless =>
    rw [hpending']
    rintro p ⟨⟩

/-- **One token keeps the bindings in force a mirror of the start tags that have been read.** -/
lemma Scoped.step (h : b.Scoped) (hs : b.Steady phase now) {phase' : Phase} {t : Token}
    (hnext : t.next? phase = some phase') (hnamed : t.NamedPlainly) : (b.step text t).Scoped := by
  cases t with
  | doctype name external subset span =>
      cases phase <;> cases hnext
      exact h.addDoctype hs name external subset span
  | subsetEnd span => exact h.endSubset text span
  | comment content span =>
      cases phase <;> cases hnext <;> exact h.pushOther hs (by decide) fun _ => rfl
  | instruction target data span =>
      cases phase <;> cases hnext <;> exact h.pushOther hs (by decide) fun _ => rfl
  | cdata content span =>
      cases phase <;> cases hnext
      exact h.pushOther hs (by decide) fun _ => rfl
  | text content span =>
      cases phase <;> cases hnext
      exact h.pushOther hs (by decide) fun _ => rfl
  | tagOpen name span => cases phase <;> cases hnext <;> exact h.openTag hs (by decide) name span
  | «attribute» name value nameSpan valueSpan span =>
      exact h.addAttribute hs hnamed value nameSpan valueSpan span
  | tagClose span => exact h.closeTag span
  | tagSelfClose span => exact h.selfCloseTag span
  | endTag name span =>
      cases phase <;> cases hnext
      exact h.endTag hs.fits name span

lemma Scoped.foldl_step {tokens : List Token} (h : b.Scoped) (hs : b.Steady phase now)
    (hfollow : Follow text.length phase now tokens) (hnamed : ∀ t ∈ tokens, t.NamedPlainly) :
    (tokens.foldl (Builder.step text) b).Scoped := by
  induction hfollow generalizing b with
  | nil inside => exact h
  | cons next behind ordered read more ih =>
      exact ih (h.step hs next (hnamed _ (List.mem_cons_self ..)))
        (hs.step next behind ordered read) fun t ht => hnamed t (List.mem_cons_of_mem _ ht)

/-- A start tag that is cut off by the end of the text or a fault is settled as it stands. -/
lemma Scoped.finish (h : b.Scoped) (length : Nat) {i : Nat} {heading : Heading}
    (hi : (b.finish length).headings i = some heading) :
    heading.ResolvedAt (b.finish length).startTags i := by
  cases hp : b.pending with
  | none =>
      have hfinish : b.finish length = b.endAll b.opened length := by rw [Builder.finish, hp]
      rw [hfinish] at hi ⊢
      rw [startTags, viewed_endAll]
      rw [headings, viewed_endAll] at hi
      exact h.settled i heading hi (by rw [hp]; rintro p ⟨⟩)
  | some p =>
      have hfinish : b.finish length = ((b.resolve p.id).endAt p.id length).endAll b.opened
          length := by
        rw [Builder.finish, hp]
        rfl
      rw [hfinish] at hi ⊢
      rw [headings, viewed_endAll, viewed_endAt] at hi
      rw [startTags, viewed_endAll, viewed_endAt]
      show heading.ResolvedAt (b.resolve p.id).startTags i
      rw [startTags_resolve]
      exact h.resolve hp hi

end Builder

/-! ## The tree -/

namespace Tree

/-- The way outwards from an element goes on from its parent. -/
lemma Nests.elementsOutwards_cons {t : Tree} (ht : t.Nests) {i : Nat} {e : ElementNode}
    (he : t.element? i = some e) : t.elementsOutwards i =
      e :: (e.parent.toList.flatMap fun p => t.elementsOutwards p) := by
  obtain ⟨-, n, hn, -, hparent, -⟩ := element?_eq_some he
  have hnode : t.nodes[i]?.bind Node.parent = e.parent := by rw [hn]; exact hparent
  rw [elementsOutwards, outwards, List.filterMap_cons_some he, hnode]
  cases hp : e.parent with
  | none => rfl
  | some p =>
      dsimp only
      rw [ht.outwards_eq (ht.inside i n p hn (hparent.trans hp)).1]
      simp [elementsOutwards]

/-- The way outwards of a tree leads to the nearest declaration. -/
lemma Nests.declared_outwards {t : Tree} (ht : t.Nests) {q : Option String} {i : Nat}
    {declared : Option String} (h : Nearest (t.viewed StartTag.of) q (some i) declared) :
    ((t.elementsOutwards i).findSome? fun a => a.element.attribute? (declaringName q)).map
      Attribute.value = declared := by
  have hfound {i : Nat} {tag : StartTag} (found : t.viewed StartTag.of i = some tag) :
      ∃ e, t.element? i = some e ∧ tag = ⟨e.parent, e.element.attributes⟩ := by
    rw [viewed_eq] at found
    obtain ⟨e, he, rfl⟩ := Option.map_eq_some_iff.mp found
    exact ⟨e, he, rfl⟩
  induction i using Nat.strongRecOn generalizing declared with
  | ind i ih =>
      cases h with
      | here found declares =>
          obtain ⟨e, he, rfl⟩ := hfound found
          obtain ⟨a, ha, rfl⟩ := Option.map_eq_some_iff.mp declares
          rw [ht.elementsOutwards_cons he, List.findSome?_cons_of_isSome]
          · exact declares
          · exact Option.isSome_iff_exists.mpr ⟨a, ha⟩
      | around found silent outer =>
          obtain ⟨e, he, rfl⟩ := hfound found
          have hsilent : e.element.attribute? (declaringName q) = none := by
            exact Option.map_eq_none_iff.mp silent
          rw [ht.elementsOutwards_cons he, List.findSome?_cons_of_isNone (by rw [hsilent]; rfl)]
          cases hp : e.parent with
          | none =>
              rw [hp] at outer
              cases outer
              rfl
          | some p =>
              rw [hp] at outer
              obtain ⟨-, n, hn, -, hparent, -⟩ := element?_eq_some he
              have hlt := (ht.inside i n p hn (hparent.trans hp)).1
              simpa using ih p hlt outer

lemma lookupNamespace_eq (t : Tree) (e : ElementNode) (q : Option String) :
    t.lookupNamespace e q = namespaceFrom q (((t.elementsOutwards e.id).findSome? fun a =>
      a.element.attribute? (declaringName q)).map Attribute.value) := by
  unfold lookupNamespace namespaceFrom
  dsimp only
  cases (t.elementsOutwards e.id).findSome? fun a => a.element.attribute? (declaringName q) with
  | none => rfl
  | some a => rfl

/-- The namespace of an element is settled by what the elements outwards declare. -/
lemma namespaceUri_eq_namespaceFrom {text : List Char} {e : ElementNode}
    (he : e ∈ (Tree.parse text).elements) :
    e.element.namespaceUri = namespaceFrom e.element.name.qualifier
      ((((Tree.parse text).elementsOutwards e.id).findSome? fun a =>
        a.element.attribute? (declaringName e.element.name.qualifier)).map Attribute.value) := by
  have hscoped := Builder.scoped_empty.foldl_step Builder.steady_empty (follow_scanAll text)
    (plain_of_mem_scanAll text)
  obtain ⟨declared, hnearest, heq⟩ :=
    hscoped.finish text.length (viewed_of_element? (mem_elements.mp he))
  have hdeclared := (parse_nests text).declared_outwards hnearest
  exact heq.trans (congrArg (namespaceFrom e.element.name.qualifier) hdeclared.symm)

/-- **The namespace of an element is the one that its qualifier is looked up to**, in the tree of
every text. -/
theorem namespaceUri_of_parse (text : List Char) (e : ElementNode)
    (he : e ∈ (Tree.parse text).elements) :
    e.element.namespaceUri = (Tree.parse text).lookupNamespace e e.element.name.qualifier := by
  rw [lookupNamespace_eq]
  exact namespaceUri_eq_namespaceFrom he

/-- An element that is never closed, whose start tag is cut off: its qualifier is declared around
it, and neither the stray end tag nor the sibling that takes the declaration back has an effect. -/
theorem namespaceUri_of_cut_off_tag :
    ∃ e ∈ (Tree.parse
        "<a xmlns:p='u' xmlns:p='v'><b><p:c xmlns:p=''/></x><p:d y='1' z=".toList).elements,
      e.element.name = ⟨some "p", "d"⟩ ∧ e.element.namespaceUri = some "v" ∧
        e.element.namespaceUri =
          (Tree.parse
          "<a xmlns:p='u' xmlns:p='v'><b><p:c xmlns:p=''/></x><p:d y='1' z=".toList).lookupNamespace
              e e.element.name.qualifier := by
  obtain ⟨e, he, hname, huri⟩ : ∃ e ∈
      (Tree.parse
        "<a xmlns:p='u' xmlns:p='v'><b><p:c xmlns:p=''/></x><p:d y='1' z=".toList).elements,
      e.element.name = ⟨some "p", "d"⟩ ∧ e.element.namespaceUri = some "v" := by decide +kernel
  exact ⟨e, he, hname, huri, namespaceUri_of_parse _ e he⟩

end Tree

end XmlAdvisor
