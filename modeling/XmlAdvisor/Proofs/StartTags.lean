import XmlAdvisor.Proofs.TagScans
import XmlAdvisor.Proofs.BuiltAlike

/-!
# What start tags say

What an element is called and what its attributes say is known from the tokens of its start tag
alone, whatever comes behind them and even if the text ends there.

* `Signature` — where an element begins, its name and its attributes.
* `Builder.exists_opening` — every element of a tree was opened by a token.
* **`Builder.viewed_signature`** — the signature of an element is that of the tokens of its start
  tag.
-/

namespace XmlAdvisor

/-! ## Names and values -/

/-- What an attribute says: its name and its value. -/
def Attribute.said (a : Attribute) : String × String :=
  (a.name, a.value)

/-- What attributes say when one more is put among them. -/
def putSaid (said : String × String) : List (String × String) → List (String × String)
  | [] => [said]
  | p :: rest => if p.1 = said.1 then said :: rest else p :: putSaid said rest

/-- What attributes say that are put one behind another. -/
def putAllSaid (before saids : List (String × String)) : List (String × String) :=
  saids.foldl (fun l said => putSaid said l) before

lemma map_said_putAttribute (a : Attribute) (attributes : List Attribute) :
    (putAttribute a attributes).map Attribute.said = putSaid a.said
    (attributes.map Attribute.said) := by
  induction attributes with
  | nil => rfl
  | cons b rest ih =>
      rw [putAttribute, List.map_cons, putSaid]
      by_cases hsame : b.name = a.name
      · rw [if_pos hsame, if_pos (by exact hsame)]
        rfl
      · rw [if_neg hsame, if_neg (by exact hsame), List.map_cons, ih]

lemma mem_names_putSaid (said : String × String) (l : List (String × String)) (name : String) :
    name ∈ (putSaid said l).map Prod.fst ↔ name = said.1 ∨ name ∈ l.map Prod.fst := by
  induction l with
  | nil => simp [putSaid]
  | cons p rest ih =>
      rw [putSaid]
      split_ifs with hsame
      · rw [List.map_cons, List.map_cons, List.mem_cons, List.mem_cons, hsame, ← or_assoc, or_self]
      · rw [List.map_cons, List.map_cons, List.mem_cons, List.mem_cons, ih, or_left_comm]

/-- What attributes of other names say has no effect on what comes first. -/
lemma putAllSaid_cons {first : String × String} {saids : List (String × String)}
    (h : ∀ said ∈ saids, said.1 ≠ first.1) (before : List (String × String)) :
    putAllSaid (first :: before) saids = first :: putAllSaid before saids := by
  induction saids generalizing before with
  | nil => rfl
  | cons said saids ih =>
      have hne : first.1 ≠ said.1 := (h said (List.mem_cons_self ..)).symm
      rw [putAllSaid, List.foldl_cons, putSaid, if_neg hne]
      exact ih (fun said hsaid => h said (List.mem_cons_of_mem _ hsaid)) (putSaid said before)

/-- The names of attributes that are put are among all. -/
lemma mem_names_putAllSaid {saids before : List (String × String)} {name : String}
    (h : name ∈ before.map Prod.fst ∨ name ∈ saids.map Prod.fst) :
    name ∈ (putAllSaid before saids).map Prod.fst := by
  induction saids generalizing before with
  | nil => exact h.resolve_right List.not_mem_nil
  | cons said saids ih =>
      suffices hput : name ∈ (putSaid said before).map Prod.fst ∨ name ∈ saids.map Prod.fst from
        ih hput
      rw [mem_names_putSaid]
      rw [List.map_cons, List.mem_cons] at h
      tauto

/-- The attribute that a token is. -/
def Token.attribute? : Token → Option Attribute
  | .attribute name value nameSpan valueSpan _ => some ⟨name.text, value, nameSpan, valueSpan⟩
  | _ => none

/-- The attributes that come first among tokens. -/
def attributesFirst : List Token → List Attribute
  | [] => []
  | t :: more =>
    match t.attribute? with
    | some a => a :: attributesFirst more
    | none => []

/-- Attributes that are put one behind another. -/
def putAll (before attributes : List Attribute) : List Attribute :=
  attributes.foldl (fun l a => putAttribute a l) before

lemma map_said_putAll (before attributes : List Attribute) :
    (putAll before attributes).map Attribute.said =
      putAllSaid (before.map Attribute.said) (attributes.map Attribute.said) := by
  induction attributes generalizing before with
  | nil => rfl
  | cons a attributes ih =>
      rw [putAll, List.foldl_cons, List.map_cons, putAllSaid, List.foldl_cons,
        ← map_said_putAttribute]
      exact ih (putAttribute a before)

lemma map_said_attributesFirst (tokens : List Token) :
    (attributesFirst tokens).map Attribute.said = saidFirst tokens := by
  induction tokens with
  | nil => rfl
  | cons t more ih =>
      cases t with
      | «attribute» name value nameSpan valueSpan span =>
          exact congrArg ((name.text, value) :: ·) ih
      | _ => rfl

/-- Where an element begins, inside which element, its name and its attributes. -/
structure Signature where
  parent : Option Nat
  start : Nat
  name : QualifiedName
  attributes : List Attribute

/-- The signature of an element. -/
def Signature.of : View Signature :=
  fun parent start e => ⟨parent, start, e.name, e.attributes⟩

lemma Signature.early : Signature.of.Early :=
  ⟨fun _ _ _ _ => rfl, fun _ _ _ _ => rfl⟩

namespace Builder

variable {α : Type} {ψ : View α} {b : Builder} {i : Nat} {phase : Phase} {now : Nat}
  {text : List Char}

/-! ## How elements begin -/

section Settled

variable (hψ : ∀ p start e ns, ψ p start { e with namespaceUri := ns } = ψ p start e)
include hψ

lemma viewed_resolve (b : Builder) (id : Nat) : (b.resolve id).viewed ψ = b.viewed ψ :=
  viewed_onElement_of_keeps id fun p start e => hψ p start e _

lemma viewed_finish (b : Builder) (length : Nat) : (b.finish length).viewed ψ = b.viewed ψ := by
  rw [Builder.finish]
  split
  · exact viewed_endAll _ _
  · rw [viewed_endAll, viewed_endAt, viewed_resolve hψ]

variable (hend : ∀ p start e close selfClosed,
  ψ p start { e with startTagClose := close, selfClosed := selfClosed } = ψ p start e)
include hend

lemma viewed_closeTag (b : Builder) (span : Span) : (b.closeTag span).viewed ψ = b.viewed ψ := by
  rw [Builder.closeTag]
  split
  · rfl
  · rename_i q _
    have hkeeps := viewed_onElement_of_keeps (b := (b.resolve q.id).endAt q.id span.stop) q.id
      fun p start e => hend p start e (some span.start) e.selfClosed
    exact hkeeps.trans ((viewed_endAt _ _).trans (viewed_resolve hψ b q.id))

lemma viewed_selfCloseTag (b : Builder) (span : Span) :
    (b.selfCloseTag span).viewed ψ = b.viewed ψ := by
  rw [Builder.selfCloseTag]
  split
  · rfl
  · rename_i q _
    have hkeeps := viewed_onElement_of_keeps (b := (b.resolve q.id).endAt q.id span.stop) q.id
      fun p start e => hend p start e (some (span.stop - 1)) true
    exact hkeeps.trans ((viewed_endAt _ _).trans (viewed_resolve hψ b q.id))

variable (hearly : ψ.Early)
include hearly

variable (text) in
/-- Of what is known when a start tag has been read, only the opening of a tag and attributes change
anything. -/
lemma viewed_step_cases (hs : b.Steady phase now) {phase' : Phase} {t : Token}
    (hnext : t.next? phase = some phase') : (b.step text t).viewed ψ = b.viewed ψ ∨
      (∃ name span, t = .tagOpen name span ∧ ∀ i, (b.step text t).viewed ψ i =
        if i = b.nodes.size then
          some (ψ b.openIds.head? span.start ⟨name, none, [], [], none, none, false⟩)
        else b.viewed ψ i) ∨
      ∃ name value nameSpan valueSpan span, t = .attribute name value nameSpan valueSpan span := by
  have hother (hphase : phase ≠ .tag) {kind : NodeKind} {span : Span}
      (hkind : ∀ parent, (Node.mk parent span kind).element? = none) :
      (b.push kind span).viewed ψ = b.viewed ψ :=
    viewed_pushOther hearly.children (hs.nested_open hphase).openIds_lt hkind
  cases t with
  | doctype name external subset span =>
      refine .inl ?_
      cases phase <;> cases hnext
      rw [Builder.step, Builder.addDoctype]
      dsimp only
      split_ifs <;> exact hother (by decide) fun _ => rfl
  | subsetEnd span => exact .inl (viewed_endSubset b text span)
  | comment content span =>
      cases phase <;> cases hnext <;> exact .inl (hother (by decide) fun _ => rfl)
  | instruction target data span =>
      cases phase <;> cases hnext <;> exact .inl (hother (by decide) fun _ => rfl)
  | cdata content span =>
      cases phase <;> cases hnext
      exact .inl (hother (by decide) fun _ => rfl)
  | text content span =>
      cases phase <;> cases hnext
      exact .inl (hother (by decide) fun _ => rfl)
  | tagOpen name span =>
      refine .inr (.inl ⟨name, span, rfl, fun i => ?_⟩)
      have hphase : phase ≠ .tag := by
        rintro rfl
        cases hnext
      exact viewed_push hearly.children (.element ⟨name, none, [], [], none, none, false⟩) span
        (hs.nested_open hphase).openIds_lt i
  | «attribute» name value nameSpan valueSpan span =>
      exact .inr (.inr ⟨name, value, nameSpan, valueSpan, span, rfl⟩)
  | tagClose span => exact .inl (viewed_closeTag hψ hend b span)
  | tagSelfClose span => exact .inl (viewed_selfCloseTag hψ hend b span)
  | endTag name span => exact .inl (viewed_endTag hearly.ending b name span)

end Settled

/-- Which nodes are elements. -/
def there : View Unit :=
  fun _ _ _ => ()

lemma viewed_there_addAttribute (b : Builder) (name : QualifiedName) (value : String)
    (nameSpan valueSpan span : Span) :
    (b.addAttribute name value nameSpan valueSpan span).viewed there = b.viewed there := by
  cases hp : b.pending with
  | none => rw [Builder.addAttribute, hp]
  | some p =>
      funext i
      rw [viewed_addAttribute hp (g := fun u => u) name value nameSpan valueSpan span
        fun _ _ _ => rfl, Option.map_id', ite_self]

/-- Only the opening of a tag makes an element. -/
lemma viewed_there_step (hs : b.Steady phase now) {phase' : Phase} {t : Token}
    (hnext : t.next? phase = some phase') : (b.step text t).viewed there = b.viewed there ∨
      ∃ name span, t = .tagOpen name span ∧
        ∀ i ≠ b.nodes.size, (b.step text t).viewed there i = b.viewed there i := by
  have hcases := viewed_step_cases text (ψ := there) (fun _ _ _ _ => rfl) (fun _ _ _ _ _ => rfl)
    ⟨fun _ _ _ _ => rfl, fun _ _ _ _ => rfl⟩ hs hnext
  rcases hcases with hsame | ⟨name, span, rfl, hopen⟩ | ⟨name, value, nameSpan,
    valueSpan, span, rfl⟩
  · exact .inl hsame
  · exact .inr ⟨name, span, rfl, fun i hi => by rw [hopen, if_neg hi]⟩
  · exact .inl (viewed_there_addAttribute b name value nameSpan valueSpan span)

lemma exists_opening_of_foldl {tokens : List Token} (hs : b.Steady phase now)
    (hfollow : Follow text.length phase now tokens) (hi : b.viewed there i = none)
    (h : ((tokens.foldl (Builder.step text) b).viewed there i).isSome) :
    ∃ before name span behind, tokens = before ++ .tagOpen name span :: behind ∧
      (before.foldl (Builder.step text) b).nodes.size = i := by
  induction hfollow generalizing b with
  | nil inside =>
      rw [List.foldl_nil, hi] at h
      cases h
  | @cons _ _ _ t rest next behind ordered read more ih =>
      have hrest (hnone : (b.step text t).viewed there i = none) :
          ∃ before name span behind, t :: rest = before ++ .tagOpen name span :: behind ∧
            (before.foldl (Builder.step text) b).nodes.size = i := by
        obtain ⟨before, name, span, behind, rfl, hsize⟩ :=
          ih (hs.step next behind ordered read) hnone h
        exact ⟨t :: before, name, span, behind, rfl, hsize⟩
      have hviewed : (b.step text t).viewed there = b.viewed there ∨ _ := viewed_there_step hs next
      rcases hviewed with hsame | ⟨name, span, rfl, hothers⟩
      · exact hrest (by rw [hsame, hi])
      · by_cases hnew : i = b.nodes.size
        · exact ⟨[], name, span, rest, rfl, hnew.symm⟩
        · exact hrest ((hothers i hnew).trans hi)

/-- **Every element of a tree was opened by a token.** -/
theorem exists_opening {e : ElementNode} (h : (Tree.parse text).element? i = some e) :
    ∃ before name span behind, (scanAll text).1 = before ++ .tagOpen name span :: behind ∧
      (after text before).nodes.size = i := by
  have hthere : ((Tree.parse text).viewed there i).isSome := by
    rw [Tree.viewed_of_element? h]
    rfl
  refine exists_opening_of_foldl steady_empty (follow_scanAll text) rfl ?_
  have hfinish := congrFun (viewed_finish (ψ := there) (fun _ _ _ _ => rfl)
    ((scanAll text).1.foldl (Builder.step text) .empty) text.length) i
  rwa [← hfinish]

/-! ## What is read of a start tag -/

/-- A new attribute is put among the others. -/
lemma viewed_signature_addAttribute {p : OpenElement} (hp : b.pending = some p) {v : Signature}
    {key : QualifiedName} {value : String} (nameSpan valueSpan span : Span)
    (hb : b.viewed Signature.of p.id = some v) :
    (b.addAttribute key value nameSpan valueSpan span).viewed Signature.of p.id =
      some { v with
        attributes := putAttribute ⟨key.text, value, nameSpan, valueSpan⟩ v.attributes } := by
  rw [viewed_addAttribute hp (g := fun v => { v with
    attributes := putAttribute ⟨key.text, value, nameSpan, valueSpan⟩ v.attributes }) key
    value nameSpan
    valueSpan span (fun _ _ _ => rfl) p.id, if_pos rfl, hb]
  rfl

lemma pending_addAttribute {p : OpenElement} (hp : b.pending = some p) (key : QualifiedName)
    (value : String) (nameSpan valueSpan span : Span) :
    (b.addAttribute key value nameSpan valueSpan span).pending = some p := by
  rw [Builder.addAttribute, hp]
  rfl

/-- What is read behind the end of a start tag does not change its signature. -/
lemma viewed_signature_closed {tokens : List Token} (hs : b.Steady phase now)
    (hfollow : Follow text.length phase now tokens) (hpending : b.pending = none) {v : Signature}
    (hb : b.viewed Signature.of i = some v) :
    ((tokens.foldl (Builder.step text) b).finish text.length).viewed Signature.of i = some v := by
  have hfixed : b.Fixed Signature.of i := by
    refine ⟨by rw [hb]; rfl, ?_, fun _ => Signature.early⟩
    rw [hpending]
    rintro q ⟨⟩
  obtain ⟨hlast, hviewed⟩ := hfixed.foldl_step hs hfollow
  rw [hlast.finish text.length, hviewed, hb]

lemma Signature.of_keeps_namespace (p : Option Nat) (start : Nat) (e : Element)
    (ns : Option String) :
    Signature.of p start { e with namespaceUri := ns } = Signature.of p start e :=
  rfl

lemma Signature.of_keeps_end (p : Option Nat) (start : Nat) (e : Element) (close : Option Nat)
    (selfClosed : Bool) :
    Signature.of p start { e with startTagClose := close, selfClosed := selfClosed } =
      Signature.of p start e :=
  rfl

/-- What is read behind the opening of a tag. -/
lemma viewed_signature_foldl {tokens : List Token} (hs : b.Steady phase now)
    (hfollow : Follow text.length phase now tokens) (hphase : phase = .tag) {p : OpenElement}
    (hp : b.pending = some p) {v : Signature} (hb : b.viewed Signature.of p.id = some v) :
    ((tokens.foldl (Builder.step text) b).finish text.length).viewed Signature.of p.id =
      some { v with attributes := putAll v.attributes (attributesFirst tokens) } := by
  induction hfollow generalizing b v with
  | nil inside =>
      exact (congrFun (viewed_finish Signature.of_keeps_namespace b text.length) p.id).trans hb
  | @cons _ _ _ t rest next behind ordered read more ih =>
      subst hphase
      have hstep : (b.step text t).Steady _ _ := hs.step next behind ordered read
      cases t with
      | «attribute» key value nameSpan valueSpan span =>
          cases next
          exact ih hstep rfl (pending_addAttribute hp key value nameSpan valueSpan span)
            (viewed_signature_addAttribute hp nameSpan valueSpan span hb)
      | tagClose span =>
          have hview := congrFun (viewed_closeTag Signature.of_keeps_namespace
            Signature.of_keeps_end b span) p.id
          refine viewed_signature_closed hstep more ?_ (hview.trans hb)
          rw [Builder.step, Builder.closeTag, hp]
      | tagSelfClose span =>
          have hview := congrFun (viewed_selfCloseTag Signature.of_keeps_namespace
            Signature.of_keeps_end b span) p.id
          refine viewed_signature_closed hstep more ?_ (hview.trans hb)
          rw [Builder.step, Builder.selfCloseTag, hp]
      | _ => cases next

/-- **What an element is called and which attributes it has** is what the tokens of its start tag
say. -/
theorem viewed_signature {before behind : List Token} {name : QualifiedName} {span : Span}
    (h : (scanAll text).1 = before ++ .tagOpen name span :: behind) :
    (Tree.parse text).viewed Signature.of (after text before).nodes.size =
      some ⟨(after text before).openIds.head?, span.start, name,
        putAll [] (attributesFirst behind)⟩ := by
  have hfollow := follow_scanAll text
  rw [h] at hfollow
  obtain ⟨phase, now, hs, hmore⟩ := steady_empty.append hfollow
  cases hmore with
  | @cons _ phase' _ _ _ next hbehind ordered read more =>
      have hstep : ((after text before).step text _).Steady _ _ := hs.step next hbehind ordered read
      have hphase : phase ≠ .tag := by
        rintro rfl
        cases next
      have hphase' : phase' = .tag := by cases phase <;> cases next <;> rfl
      have hnew : ((after text before).openTag name span).viewed Signature.of
          (after text before).nodes.size =
            some ⟨(after text before).openIds.head?, span.start, name, []⟩ := by
        have hpush := Builder.viewed_push (ψ := Signature.of) (b := after text before)
          (fun _ _ _ _ => rfl) (.element ⟨name, none, [], [], none, none, false⟩) span
          (hs.nested_open hphase).openIds_lt (after text before).nodes.size
        rw [if_pos rfl] at hpush
        exact hpush
      have hall : (scanAll text).1.foldl (Builder.step text) .empty =
          behind.foldl (Builder.step text) ((after text before).openTag name span) := by
        rw [h, List.foldl_append]
        rfl
      show (((scanAll text).1.foldl (Builder.step text) .empty).finish text.length).viewed _ _ = _
      rw [hall]
      exact viewed_signature_foldl hstep more hphase' rfl hnew

end Builder

end XmlAdvisor
