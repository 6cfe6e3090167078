import XmlAdvisor.Proofs.ElementViews
import XmlAdvisor.Proofs.QualifiedNames
import XmlAdvisor.Proofs.TagPlaces

/-!
# Places where elements are edited

An attribute that is missing is put behind the name in a start tag, an element that is missing
behind the `>` of the start tag.  Such places are found in the order of the text and each behind all
others, so an edit at one of them is for one element and of one kind.

* `EditPlace` — the two places in a start tag.
* `Builder.Spaced` — the invariant: no two of the places that have been found are the same.
* **`Tree.place?_injective`** — a place belongs to one element.
-/

namespace XmlAdvisor

/-! ## Names inside their tags -/

/-- Whether the name of a start tag ends inside what was read of the tag, and a tag is not empty. -/
def Token.NameInside : Token → Prop
  | .tagOpen name span => span.start + 1 + name.text.length ≤ span.stop
  | _ => True

/-- Only from outside of a start tag is one opened, and this leads into it. -/
lemma Token.nameInside_of_next? {t : Token} {phase phase' : Phase} (hphase : phase' ≠ .tag)
    (h : t.next? phase = some phase') : t.NameInside := by
  cases t with
  | tagOpen name span =>
      cases phase <;> cases h
      all_goals exact absurd rfl hphase
  | _ => trivial

lemma Scan.tagOpen_nameInside {c c' : Cursor} {t : Option Token} (h : tagOpen c = .ok (t, c')) :
    ∀ x ∈ t, x.NameInside := by
  obtain ⟨_, _, ⟨⟩, h⟩ := bind_ok h
  obtain ⟨_, _, ⟨⟩, h⟩ := bind_ok h
  obtain ⟨name, c₁, hname, h⟩ := bind_ok h
  obtain ⟨_, _, ⟨⟩, h⟩ := bind_ok h
  cases h
  rintro _ ⟨⟩
  exact add_length_le_of_qualifiedName hname

/-- The names of all start tags end inside what was read of them. -/
lemma nameInside_of_mem_scanAll (text : List Char) : ∀ t ∈ (scanAll text).1, t.NameInside := by
  intro t ht
  obtain ⟨c, c', hc, hinside, hread⟩ := read_cases_of_mem_scanAll text t ht
  rcases hread with ⟨phase, phase', -, hphase', hnext⟩ | ⟨hopen, -⟩ | hpart
  · exact Token.nameInside_of_next? hphase' hnext
  · exact Scan.tagOpen_nameInside hopen t rfl
  · obtain ⟨-, -, -, htag, -⟩ := Scan.tagPart_covers c (some t) c' hc hinside hpart
    cases t with
    | tagOpen name span => exact htag.elim
    | _ => trivial

/-! ## Places -/

/-- The places in a start tag at which something is put. -/
inductive EditPlace
  /-- Behind the name. -/
  | attribute
  /-- Behind the `>`. -/
  | content
  deriving DecidableEq

/-- Where the places in a start tag are. -/
def EditPlace.view : View (EditPlace → Option Nat) :=
  fun _ start e place =>
    match place with
    | .attribute => some (start + 1 + e.tagName.length)
    | .content => e.startTagClose.map (· + 1)

namespace Builder

variable {text : List Char} {b b' : Builder} {now now' : Nat} {phase : Phase}

/-- Where a place in the start tag of an element is. -/
def place? (b : Builder) (i : Nat) (place : EditPlace) : Option Nat :=
  (b.viewed EditPlace.view i).bind (· place)

/-- Whether the places in start tags are where the text has been read, no two at the same offset,
and that for attributes comes first. -/
structure Spaced (b : Builder) (now : Nat) : Prop where
  within : ∀ i place offset, b.place? i place = some offset → offset ≤ now
  apart : ∀ i j place place' offset, b.place? i place = some offset →
    b.place? j place' = some offset → i = j ∧ place = place'
  ordered : ∀ i first second, b.place? i .attribute = some first →
    b.place? i .content = some second → first < second

lemma spaced_empty : empty.Spaced 0 := by
  constructor
  case within => rintro i place offset ⟨⟩
  case apart => rintro i j place place' offset ⟨⟩
  case ordered => rintro i first second ⟨⟩

/-- A place that is found behind all that has been read is a place of its own.  If it is for
attributes, its element has no other. -/
lemma Spaced.add (h : b.Spaced now) (hle : now ≤ now') (i₀ : Nat) (place₀ : EditPlace)
    (hfirst : place₀ = .attribute → b'.place? i₀ .content = none)
    (hnew : ∀ i place offset, b'.place? i place = some offset → b.place? i place = some offset ∨
      i = i₀ ∧ place = place₀ ∧ now < offset ∧ offset ≤ now') : b'.Spaced now' := by
  constructor
  case within =>
    intro i place offset hi
    rcases hnew i place offset hi with hi | ⟨-, -, -, hwithin⟩
    · exact Nat.le_trans (h.within i place offset hi) hle
    · exact hwithin
  case apart =>
    intro i j place place' offset hi hj
    rcases hnew i place offset hi with hi | ⟨rfl, rfl, hi, -⟩
    · rcases hnew j place' offset hj with hj | ⟨-, -, hj, -⟩
      · exact h.apart i j place place' offset hi hj
      · exact absurd (h.within i place offset hi) (Nat.not_le_of_lt hj)
    · rcases hnew j place' offset hj with hj | ⟨rfl, rfl, -, -⟩
      · exact absurd (h.within j place' offset hj) (Nat.not_le_of_lt hi)
      · exact ⟨rfl, rfl⟩
  case ordered =>
    intro i first second hi hj
    rcases hnew i .attribute first hi with hi | ⟨rfl, rfl, -, -⟩
    · rcases hnew i .content second hj with hj | ⟨-, -, hj, -⟩
      · exact h.ordered i first second hi hj
      · exact Nat.lt_of_le_of_lt (h.within i .attribute first hi) hj
    · rw [hfirst rfl] at hj
      cases hj

lemma Spaced.of_viewed (h : b.Spaced now) (hle : now ≤ now')
    (hview : b'.viewed EditPlace.view = b.viewed EditPlace.view) : b'.Spaced now' := by
  refine h.add hle 0 .content (by rintro ⟨⟩) fun i place offset hi => .inl ?_
  rwa [place?, hview] at hi

lemma Spaced.addAttribute (h : b.Spaced now) (name : QualifiedName) (value : String)
    (nameSpan valueSpan : Span) {span : Span} (hle : now ≤ span.stop) :
    (b.addAttribute name value nameSpan valueSpan span).Spaced span.stop := by
  cases hp : b.pending with
  | none =>
      rw [Builder.addAttribute, hp]
      exact h.of_viewed hle rfl
  | some p =>
      refine h.of_viewed hle (funext fun i => ?_)
      rw [viewed_addAttribute hp (g := fun places => places) name value nameSpan valueSpan span
        fun _ _ _ => by rfl, Option.map_id', ite_self]

lemma Spaced.pushOther (h : b.Spaced now) (hs : b.Steady phase now) (hphase : phase ≠ .tag)
    {kind : NodeKind} {span : Span} (hle : now ≤ span.stop)
    (hkind : ∀ parent, (Node.mk parent span kind).element? = none) :
    (b.push kind span).Spaced span.stop :=
  h.of_viewed hle (viewed_pushOther (fun _ _ _ _ => rfl) (hs.nested_open hphase).openIds_lt hkind)

lemma Spaced.addDoctype (h : b.Spaced now) (hs : b.Steady .head now) (name : String)
    (external : Option ExternalId) (subset : Bool) {span : Span} (hle : now ≤ span.stop) :
    (b.addDoctype name external subset span).Spaced span.stop := by
  have hpush : (b.push (.doctype
      ⟨name, external.bind (·.publicId), external.map (·.systemId), none⟩)
      span).Spaced span.stop := h.pushOther hs (by decide) hle fun _ => rfl
  rw [Builder.addDoctype]
  dsimp only
  split_ifs <;> exact hpush.of_viewed (Nat.le_refl _) rfl

/-- The name in a new start tag ends behind all that has been read. -/
lemma Spaced.openTag (h : b.Spaced now) (hs : b.Steady phase now) (hphase : phase ≠ .tag)
    {name : QualifiedName} {span : Span} (hle : now ≤ span.start)
    (hname : span.start + 1 + name.text.length ≤ span.stop) :
    (b.openTag name span).Spaced span.stop := by
  have hlt := (hs.nested_open hphase).openIds_lt
  have hview (i : Nat) : (b.openTag name span).viewed EditPlace.view i = if i = b.nodes.size then _
      else b.viewed EditPlace.view i := viewed_push (fun _ _ _ _ => rfl) _ span hlt i
  refine h.add (by omega) b.nodes.size .attribute (fun _ => ?_) fun i place offset hi => ?_
  · rw [place?, hview, if_pos rfl]
    rfl
  rw [place?, hview] at hi
  split_ifs at hi with hsize
  · cases place with
    | «attribute» =>
        cases hi
        refine .inr ⟨hsize, rfl, ?_, hname⟩
        show now < span.start + 1 + name.text.length
        omega
    | content => cases hi
  · exact .inl hi

/-- The `>` of a start tag stands behind all that has been read. -/
lemma Spaced.endOfStart (h : b.Spaced now) (hle : now ≤ now') {id stop close : Nat}
    {f : Element → Element} (hf : ∀ e, (f e).name = e.name ∧ (f e).startTagClose = some close)
    (hnodes : b'.nodes = (((b.resolve id).endAt id stop).onElement id f).nodes)
    (hafter : now ≤ close) (hwithin : close + 1 ≤ now') : b'.Spaced now' := by
  refine h.add hle id .content (by rintro ⟨⟩) fun i place offset hi => ?_
  have hview : b'.viewed EditPlace.view i = if id = i then
      (b.viewed EditPlace.view i).map fun places place =>
        match place with
        | .attribute => places .attribute
        | .content => some (close + 1)
      else b.viewed EditPlace.view i := by
    rw [viewed_of_nodes hnodes, viewed_onElement id
      (g := fun places place => match place with
        | .attribute => places .attribute
        | .content => some (close + 1)), viewed_endAt, Builder.resolve,
      viewed_onElement_of_keeps _ fun _ _ _ => by rfl]
    intro parent start e
    funext place
    cases place with
    | «attribute» => simp only [EditPlace.view, Element.tagName, (hf e).1]
    | content => simp only [EditPlace.view, (hf e).2, Option.map_some]
  rw [place?, hview] at hi
  split_ifs at hi with hid
  · obtain ⟨places, hplaces, hplace⟩ := Option.bind_eq_some_iff.mp hi
    obtain ⟨before, hbefore, rfl⟩ := Option.map_eq_some_iff.mp hplaces
    cases place with
    | «attribute» => exact .inl (by rw [place?, hbefore]; exact hplace)
    | content =>
        cases hplace
        exact .inr ⟨hid.symm, rfl, by omega, hwithin⟩
  · exact .inl hi

lemma Spaced.closeTag (h : b.Spaced now) {span : Span} (hle : now ≤ span.start)
    (hstop : span.stop = span.start + 1) : (b.closeTag span).Spaced span.stop := by
  rw [Builder.closeTag]
  split
  · exact h.of_viewed (by omega) rfl
  · exact h.endOfStart (f := fun e => { e with startTagClose := some span.start }) (by omega)
      (fun _ => ⟨rfl, rfl⟩) rfl hle (Nat.le_of_eq hstop.symm)

lemma Spaced.selfCloseTag (h : b.Spaced now) {span : Span} (hle : now ≤ span.start)
    (hfilled : span.start < span.stop) : (b.selfCloseTag span).Spaced span.stop := by
  rw [Builder.selfCloseTag]
  split
  · exact h.of_viewed (by omega) rfl
  · exact h.endOfStart
      (f := fun e => { e with startTagClose := some (span.stop - 1), selfClosed := true })
      (by omega) (fun _ => ⟨rfl, rfl⟩) rfl (by omega) (by omega)

/-- One token adds at most one place, behind all others. -/
lemma Spaced.step (h : b.Spaced now) (hs : b.Steady phase now) {phase' : Phase} {t : Token}
    (hnext : t.next? phase = some phase') (hle : now ≤ t.span.start)
    (hfilled : t.span.start < t.span.stop) (hread : t.WellRead) (hname : t.NameInside) :
    (b.step text t).Spaced t.span.stop := by
  have hnow : now ≤ t.span.stop := by omega
  cases t with
  | doctype name external subset span =>
      cases phase <;> cases hnext
      exact h.addDoctype hs name external subset hnow
  | subsetEnd span => exact h.of_viewed hnow (b.viewed_endSubset text span)
  | comment content span =>
      cases phase <;> cases hnext <;> exact h.pushOther hs (by decide) hnow fun _ => rfl
  | instruction target data span =>
      cases phase <;> cases hnext <;> exact h.pushOther hs (by decide) hnow fun _ => rfl
  | cdata content span =>
      cases phase <;> cases hnext
      exact h.pushOther hs (by decide) hnow fun _ => rfl
  | text content span =>
      cases phase <;> cases hnext
      exact h.pushOther hs (by decide) hnow fun _ => rfl
  | tagOpen name span => cases phase <;> cases hnext <;> exact h.openTag hs (by decide) hle hname
  | «attribute» name value nameSpan valueSpan span =>
      exact h.addAttribute name value nameSpan valueSpan hnow
  | tagClose span => exact h.closeTag hle hread
  | tagSelfClose span => exact h.selfCloseTag hle hfilled
  | endTag name span => exact h.of_viewed hnow (viewed_endTag (fun _ _ _ _ => rfl) b name span)

lemma Spaced.foldl_step {tokens : List Token} (h : b.Spaced now) (hs : b.Steady phase now)
    (hfollow : Follow text.length phase now tokens)
    (htokens : ∀ t ∈ tokens, t.span.start < t.span.stop ∧ t.NameInside) :
    ∃ now', (tokens.foldl (Builder.step text) b).Spaced now' := by
  induction hfollow generalizing b with
  | nil inside => exact ⟨_, h⟩
  | cons next behind ordered read more ih =>
      obtain ⟨hfilled, hname⟩ := htokens _ (List.mem_cons_self ..)
      exact ih (h.step hs next behind hfilled read hname) (hs.step next behind ordered read)
        fun t ht => htokens t (List.mem_cons_of_mem _ ht)

lemma viewed_finish_place (b : Builder) (length : Nat) :
    (b.finish length).viewed EditPlace.view = b.viewed EditPlace.view := by
  rw [Builder.finish]
  split
  · exact viewed_endAll _ length
  · rw [viewed_endAll, viewed_endAt, Builder.resolve,
      viewed_onElement_of_keeps _ fun _ _ _ => by rfl]

end Builder

/-! ## The tree -/

/-- Where a place in the start tag of an element is. -/
def ElementNode.place? (e : ElementNode) : EditPlace → Option Nat
  | .attribute => some e.nameSpan.stop
  | .content => e.element.startTagClose.map (· + 1)

namespace Tree

/-- The places of all elements of a tree, as they were found. -/
lemma exists_spaced (text : List Char) : ∃ now, ∃ b : Builder, b.Spaced now ∧
    ∀ e ∈ (Tree.parse text).elements, b.place? e.id = e.place? := by
  have htokens : ∀ t ∈ (scanAll text).1, t.span.start < t.span.stop ∧ t.NameInside :=
    fun t ht => ⟨filled_of_mem_scanAll text t ht, nameInside_of_mem_scanAll text t ht⟩
  obtain ⟨now, hspaced⟩ := Builder.spaced_empty.foldl_step Builder.steady_empty
    (follow_scanAll text) htokens
  refine ⟨now, _, hspaced, fun e he => funext fun place => ?_⟩
  have hview := viewed_of_element? (ψ := EditPlace.view) (mem_elements.mp he)
  rw [Builder.place?, ← Builder.viewed_finish_place _ text.length]
  show ((Tree.parse text).viewed EditPlace.view e.id).bind (· place) = e.place? place
  rw [hview]
  cases place <;> rfl

/-- **A place belongs to one element**: elements with a place at the same offset are the same, and
so are the places. -/
theorem place?_injective (text : List Char) {e e' : ElementNode}
    (he : e ∈ (Tree.parse text).elements) (he' : e' ∈ (Tree.parse text).elements)
    {place place' : EditPlace} {offset : Nat} (hplace : e.place? place = some offset)
    (hplace' : e'.place? place' = some offset) : e = e' ∧ place = place' := by
  obtain ⟨now, b, hspaced, hbuilt⟩ := exists_spaced text
  rw [← hbuilt e he] at hplace
  rw [← hbuilt e' he'] at hplace'
  obtain ⟨hid, hsame⟩ := hspaced.apart _ _ _ _ _ hplace hplace'
  have he := mem_elements.mp he
  have he' := mem_elements.mp he'
  rw [← hid, he, Option.some.injEq] at he'
  exact ⟨he', hsame⟩

/-- A start tag is closed behind its name. -/
lemma nameSpan_stop_le_close {text : List Char} {e : ElementNode}
    (he : e ∈ (Tree.parse text).elements) {close : Nat}
    (hclose : e.element.startTagClose = some close) :
    e.nameSpan.stop ≤ close := by
  obtain ⟨now, b, hspaced, hbuilt⟩ := exists_spaced text
  have hcontent : e.place? .content = some (close + 1) := by
    rw [ElementNode.place?, hclose]
    rfl
  rw [← hbuilt e he] at hcontent
  exact Nat.lt_succ_iff.mp (hspaced.ordered e.id _ _ (by rw [hbuilt e he]; rfl) hcontent)

end Tree

end XmlAdvisor
