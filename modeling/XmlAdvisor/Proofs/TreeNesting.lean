import XmlAdvisor.Proofs.NodeNesting
import XmlAdvisor.Proofs.TokenOrder

/-!
# How spans nest

The spans of every tree nest, even where elements are never closed or end tags are missing.  Tokens
come in the order of the text, so whatever is added stands behind all that is there, and an element
that is closed at the present offset covers all of its children.

* `Builder.Steady` — what holds of a builder when a text has been read up to an offset.
* **`Tree.parse_nests`** — the spans of every tree nest, with nothing left open.
-/

namespace XmlAdvisor

namespace Builder

variable {b : Builder} {now now' : Nat} {ids : List Nat}

/-! ## Tokens -/

/-- The numbers of all elements whose ends have not been reached. -/
def spine (b : Builder) : List Nat :=
  (b.pending.toList ++ b.opened).map (·.id)

/-- What a builder knows in each phase. -/
def Fits (b : Builder) : Phase → Prop
  | .head => b.spine = [] ∧ ∀ (i : Nat) (n : Node), b.nodes[i]? = some n → n.element? = none
  | .tag => b.pending.isSome
  | .body => b.pending = none

/-- What holds of a builder when a text has been read up to an offset. -/
structure Steady (b : Builder) (phase : Phase) (now : Nat) : Prop where
  nested : b.NestedWith now b.spine
  fits : b.Fits phase

variable {phase phase' : Phase}

lemma steady_empty : empty.Steady .head 0 := by
  refine ⟨?_, rfl, fun i n hn => ?_⟩
  · constructor <;> simp [empty, spine]
  · simp [empty] at hn

lemma spine_of_pending_none (h : b.pending = none) : b.spine = b.openIds := by
  rw [spine, h]
  rfl

lemma steady_body (hpending : b.pending = none) (h : b.NestedWith now b.openIds) :
    b.Steady .body now := by
  refine ⟨?_, hpending⟩
  rwa [spine_of_pending_none hpending]

lemma Steady.pending_none (h : b.Steady phase now) (hphase : phase ≠ .tag) : b.pending = none := by
  cases phase with
  | head =>
      have hspine := h.fits.1
      rw [spine, List.map_eq_nil_iff, List.append_eq_nil_iff, Option.toList_eq_nil_iff] at hspine
      exact hspine.1
  | tag => exact absurd rfl hphase
  | body => exact h.fits

lemma Steady.nested_open (h : b.Steady phase now) (hphase : phase ≠ .tag) :
    b.NestedWith now b.openIds := by
  have hnested := h.nested
  rwa [spine_of_pending_none (h.pending_none hphase)] at hnested

lemma spine_push (b : Builder) (kind : NodeKind) (span : Span) :
    (b.push kind span).spine = b.spine := by
  rw [spine, spine, pending_push, opened_push]

/-- A node that is no element and of which nothing else is required. -/
lemma Steady.pushOther (h : b.Steady phase now) {kind : NodeKind} {span : Span}
    (hphase : phase ≠ .tag) (hle : now ≤ span.start) (hordered : span.start ≤ span.stop)
    (hkind : ∀ parent, (Node.mk parent span kind).element? = none)
    (hnamed : ∀ d, kind = .doctype d → d.name ≠ "") :
    (b.push kind span).Steady phase span.stop := by
  have hnew (parent : Option Nat) : (Node.mk parent span kind).Settled span.stop := by
    refine ⟨hordered, Nat.le_refl _, ?_, ?_, ?_, hnamed⟩
    all_goals
      intro e he
      rw [hkind] at he
      cases he
  have hchildren (parent : Option Nat) : (Node.mk parent span kind).children = [] := by
    rw [Node.children_eq, hkind]
    rfl
  have hopen := h.nested_open hphase
  refine ⟨?_, ?_⟩
  · rw [spine_push, spine_of_pending_none (h.pending_none hphase)]
    exact hopen.push hle hnew hchildren
  · cases phase with
    | head =>
        refine ⟨(spine_push b kind span).trans h.fits.1, fun i n hn => ?_⟩
        rcases getElem?_push_cases hopen.openIds_lt hn with ⟨rfl, rfl⟩ | ⟨m, hm, rfl⟩
        · exact hkind _
        · rw [← Option.not_isSome_iff_eq_none, adopt_isSome, h.fits.2 i m hm]
          exact Bool.false_ne_true
    | tag => exact absurd rfl hphase
    | body => exact (pending_push b kind span).trans h.fits

lemma Steady.openTag (h : b.Steady phase now) {name : QualifiedName} {span : Span}
    (hphase : phase ≠ .tag) (hle : now ≤ span.start) (hfilled : span.start < span.stop) :
    (b.openTag name span).Steady .tag span.stop := by
  have hnew (parent : Option Nat) :
      (Node.mk parent span (.element ⟨name, none, [], [], none, none, false⟩)).Settled
        span.stop := by
    refine ⟨Nat.le_of_lt hfilled, Nat.le_refl _, fun _ _ => hfilled, ?_, ?_, by rintro d ⟨⟩⟩
    all_goals rintro _ ⟨⟩ o ⟨⟩
  refine ⟨?_, rfl⟩
  have hspine : (b.openTag name span).spine = b.nodes.size :: b.openIds := by
    rw [spine, Builder.openTag, openIds, opened_push]
    rfl
  rw [hspine]
  exact (h.nested_open hphase).pushElement hle hnew rfl

lemma Steady.addAttribute (h : b.Steady .tag now) (name : QualifiedName) (value : String)
    (nameSpan valueSpan : Span) {span : Span} (hle : now ≤ span.stop) :
    (b.addAttribute name value nameSpan valueSpan span).Steady .tag span.stop := by
  have hpending : b.pending.isSome := h.fits
  rw [Builder.addAttribute]
  split
  · rename_i hp
    rw [hp] at hpending
    cases hpending
  · rename_i p hp
    have hmem : p.id ∈ b.spine := by simp [spine, hp]
    have hscope : NestedWith { b with scope := (bindingOf name value).toList ++ b.scope } now
        b.spine := h.nested
    have hgrown := hscope.growTo (fun n => max n.span.stop span.stop) hle
      (h.nested.opened p.id hmem).2 (fun _ _ => .inl hmem) fun n hn =>
        ⟨Nat.le_max_left _ _, Nat.max_le.mpr ⟨Nat.le_trans hn.before hle, Nat.le_refl _⟩⟩
    have hput := hgrown.onElement p.id
      (f := fun e => { e with
        attributes := putAttribute ⟨name.text, value, nameSpan, valueSpan⟩ e.attributes })
      (fun _ => ⟨rfl, rfl⟩) (fun _ _ ho => .inl ho) fun _ _ ho => .inl ho
    exact ⟨hput, hpending⟩

lemma Steady.closeTag (h : b.Steady .tag now) {span : Span} (hle : now ≤ span.start)
    (hstop : span.stop = span.start + 1) : (b.closeTag span).Steady .body span.stop := by
  have hpending := h.fits
  have hnested := h.nested
  rw [Fits] at hpending
  cases hp : b.pending with
  | none =>
      rw [hp] at hpending
      cases hpending
  | some p =>
      have hmem : p.id ∈ b.spine := by simp [spine, hp]
      have hbefore : now ≤ span.stop := by omega
      have hend := (hnested.resolve p.id).endAt hmem hbefore
      have hclosed := hend.onElement p.id
        (f := fun e => { e with startTagClose := some span.start })
        (fun _ => ⟨rfl, rfl⟩) (by rintro e _ ⟨⟩; exact .inr (by omega)) fun _ _ ho => .inl ho
      rw [Builder.closeTag, hp]
      refine ⟨?_, rfl⟩
      have hspine : b.spine = p.id :: b.openIds := by rw [spine, hp]; rfl
      rw [hspine] at hclosed
      exact hclosed

lemma Steady.selfCloseTag (h : b.Steady .tag now) {span : Span} (hle : now ≤ span.stop) :
    (b.selfCloseTag span).Steady .body span.stop := by
  have hpending := h.fits
  have hnested := h.nested
  rw [Fits] at hpending
  cases hp : b.pending with
  | none =>
      rw [hp] at hpending
      cases hpending
  | some p =>
      have hspine : b.spine = p.id :: b.openIds := by rw [spine, hp]; rfl
      rw [hspine] at hnested
      -- the tag is not empty, so its end is not at the start of the text
      obtain ⟨⟨n, hn, hel⟩, -⟩ := hnested.opened p.id (List.mem_cons_self ..)
      obtain ⟨e, he⟩ := Option.isSome_iff_exists.mp hel
      have hfilled := (hnested.settled _ n hn).filled e he
      have hbefore := (hnested.settled _ n hn).before
      have hend := (hnested.resolve p.id).close hle
      have hclosed := hend.onElement p.id
        (f := fun e => { e with startTagClose := some (span.stop - 1), selfClosed := true })
        (fun _ => ⟨rfl, rfl⟩) (by rintro e _ ⟨⟩; exact .inr (by omega)) fun _ _ ho => .inl ho
      rw [Builder.selfCloseTag, hp]
      exact ⟨hclosed, rfl⟩

lemma Steady.endTag (h : b.Steady .body now) (name : QualifiedName) {span : Span}
    (hle : now ≤ span.start) (hordered : span.start ≤ span.stop) :
    (b.endTag name span).Steady .body span.stop := by
  have hpending : b.pending = none := h.fits
  have hnested := h.nested
  rw [Builder.endTag]
  have hsplit := List.takeWhile_append_dropWhile (p := fun o : OpenElement => o.tag != name.text)
    (l := b.opened)
  generalize b.opened.takeWhile (fun o : OpenElement => o.tag != name.text) = unclosed at hsplit ⊢
  cases hd : b.opened.dropWhile (fun o : OpenElement => o.tag != name.text) with
  | nil => exact ⟨hnested.mono (Nat.le_trans hle hordered), hpending⟩
  | cons closed outside =>
      have hspine : b.spine = unclosed.map (·.id) ++ closed.id :: outside.map (·.id) := by
        rw [spine_of_pending_none hpending, openIds, ← hsplit, hd, List.map_append, List.map_cons]
      rw [hspine] at hnested
      have hend := (NestedWith.endAll unclosed hnested hle).close hordered
      have hclosed := hend.onElement closed.id
        (f := fun e => { e with endTagOpen := some span.start })
        (fun _ => ⟨rfl, rfl⟩) (fun _ _ ho => .inl ho) (by rintro e _ ⟨⟩; exact .inr hordered)
      have hnone : (b.endAll unclosed span.start).pending = none := by
        rw [pending_endAll]
        exact hpending
      exact steady_body hnone hclosed

lemma Steady.addDoctype (h : b.Steady .head now) {name : String} (external : Option ExternalId)
    (subset : Bool) {span : Span} (hle : now ≤ span.start) (hordered : span.start ≤ span.stop)
    (hname : name ≠ "") : (b.addDoctype name external subset span).Steady .head span.stop := by
  have hpush : (b.push (.doctype
      ⟨name, external.bind (·.publicId), external.map (·.systemId), none⟩)
      span).Steady .head span.stop :=
    h.pushOther (by decide) hle hordered (fun _ => rfl) (by rintro _ ⟨⟩; exact hname)
  rw [Builder.addDoctype]
  dsimp only
  split_ifs <;> exact ⟨hpush.nested, hpush.fits⟩

/-- Before the document element every node may grow. -/
lemma Steady.growable_head (h : b.Steady .head now) (id : Nat) :
    Growable b.spine b.nodes id where
  around n p hn hp := by
    obtain ⟨-, m, hm, hi, -⟩ := h.nested.inside id n p hn hp
    rw [Node.children_eq, h.fits.2 p m hm] at hi
    cases hi
  last n m j hn hm _ _ := ⟨h.fits.2 id n hn, h.fits.2 j m hm⟩

/-- Records the text of an internal subset. -/
def recordSubset (subset : Option String) (n : Node) : Node :=
  match n.kind with
  | .doctype d => { n with kind := .doctype { d with internalSubset := subset } }
  | _ => n

/-- No element arises where outlines are kept. -/
lemma none_of_onNode {id : Nat} {f : Node → Node} (hout : ∀ n, (f n).outline = n.outline)
    (h : ∀ (i : Nat) (n : Node), b.nodes[i]? = some n → n.element? = none) (i : Nat) (n : Node)
    (hn : (b.onNode id f).nodes[i]? = some n) : n.element? = none := by
  rw [getElem?_onNode, Option.map_eq_some_iff] at hn
  obtain ⟨m, hm, rfl⟩ := hn
  have hnone := h i m hm
  split_ifs
  · rw [← Option.not_isSome_iff_eq_none, Node.element_isSome_of_outline (hout m), hnone]
    exact Bool.false_ne_true
  · exact hnone

lemma Steady.endSubset (h : b.Steady .head now) (text : List Char) {span : Span}
    (hle : now ≤ span.stop) : (b.endSubset text span).Steady .head span.stop := by
  rw [Builder.endSubset]
  split
  · exact ⟨h.nested.mono hle, h.fits⟩
  · rename_i id hid
    generalize b.subsetStart.map (fun start => Span.slice ⟨start, span.start⟩ text) = subset
    have hnested : NestedWith { b with subsetStart := none } now b.spine := h.nested
    have hend := hnested.growTo (fun _ => span.stop) hle (h.growable_head id)
      (fun n hn => .inr (h.fits.2 id n hn))
      fun n hn => ⟨Nat.le_trans hn.before hle, Nat.le_refl _⟩
    have hout : ∀ n, (recordSubset subset n).outline = n.outline := by
      intro n
      rw [recordSubset]
      split
      · rename_i hkind
        simp [Node.outline, Node.element?, hkind]
      · rfl
    refine ⟨hend.onNode id (f := recordSubset subset) hout ?_ ?_, h.fits.1, ?_⟩
    · intro n
      rw [recordSubset]
      split <;> rfl
    · intro n hn
      rw [recordSubset]
      split
      · rename_i d hkind
        refine ⟨hn.ordered, hn.before, ?_, ?_, ?_, ?_⟩
        · rintro e ⟨⟩
        · rintro e ⟨⟩
        · rintro e ⟨⟩
        · rintro _ ⟨⟩
          exact hn.named d hkind
      · exact hn
    · have hgrown : ∀ n : Node, ({ n with span.stop := span.stop } : Node).outline = n.outline :=
        fun _ => rfl
      exact none_of_onNode hout
        (none_of_onNode (b := { b with subsetStart := none }) hgrown h.fits.2)

/-- One token that may come keeps the builder steady. -/
lemma Steady.step {text : List Char} (h : b.Steady phase now) {t : Token}
    (hnext : t.next? phase = some phase') (hle : now ≤ t.span.start)
    (hordered : t.span.start ≤ t.span.stop) (hread : t.WellRead) :
    (b.step text t).Steady phase' t.span.stop := by
  cases t with
  | doctype name external subset span =>
      cases phase <;> cases hnext
      exact h.addDoctype external subset hle hordered hread
  | subsetEnd span =>
      cases phase <;> cases hnext
      exact h.endSubset text (Nat.le_trans hle hordered)
  | comment content span =>
      cases phase <;> cases hnext <;>
        exact h.pushOther (by decide) hle hordered (fun _ => rfl) (by rintro _ ⟨⟩)
  | instruction target data span =>
      cases phase <;> cases hnext <;>
        exact h.pushOther (by decide) hle hordered (fun _ => rfl) (by rintro _ ⟨⟩)
  | cdata content span =>
      cases phase <;> cases hnext
      exact h.pushOther (by decide) hle hordered (fun _ => rfl) (by rintro _ ⟨⟩)
  | text content span =>
      cases phase <;> cases hnext
      exact h.pushOther (by decide) hle hordered (fun _ => rfl) (by rintro _ ⟨⟩)
  | tagOpen name span =>
      cases phase <;> cases hnext <;> exact h.openTag (by decide) hle hread
  | «attribute» name value nameSpan valueSpan span =>
      cases phase <;> cases hnext
      exact h.addAttribute name value nameSpan valueSpan (Nat.le_trans hle hordered)
  | tagClose span =>
      cases phase <;> cases hnext
      exact h.closeTag hle hread
  | tagSelfClose span =>
      cases phase <;> cases hnext
      exact h.selfCloseTag (Nat.le_trans hle hordered)
  | endTag name span =>
      cases phase <;> cases hnext
      exact h.endTag name hle hordered

/-- What may follow keeps the builder steady, and it ends inside the text. -/
lemma Steady.foldl_step {text : List Char} {tokens : List Token}
    (h : b.Steady phase now) (hfollow : Follow text.length phase now tokens) :
    ∃ phase' now', now' ≤ text.length ∧
      (tokens.foldl (Builder.step text) b).Steady phase' now' := by
  induction hfollow generalizing b with
  | nil inside => exact ⟨_, _, inside, h⟩
  | cons next behind ordered read more ih => exact ih (h.step next behind ordered read)

/-- At the end of the text everything is closed. -/
lemma Steady.finish (h : b.Steady phase now) {length : Nat} (hle : now ≤ length) :
    (b.finish length).NestedWith length [] := by
  have hnested := h.nested
  rw [Builder.finish]
  split
  · rename_i hp
    rw [spine_of_pending_none hp, ← List.append_nil b.openIds] at hnested
    exact hnested.endAll b.opened hle
  · rename_i p hp
    have hspine : b.spine = p.id :: (b.openIds ++ []) := by rw [spine, hp, List.append_nil]; rfl
    rw [hspine] at hnested
    exact NestedWith.endAll b.opened ((hnested.resolve p.id).close hle) (Nat.le_refl _)

end Builder

/-! ## The tree -/

namespace Tree

/-- Whether the spans of a tree nest. -/
abbrev Nests (t : Tree) : Prop :=
  Nested t.text.length [] t.nodes t.topLevel

/-- **The spans of every tree nest**, whatever faults the text has. -/
theorem parse_nests (text : List Char) : (Tree.parse text).Nests := by
  obtain ⟨phase, now, hle, hsteady⟩ := Builder.steady_empty.foldl_step (follow_scanAll text)
  exact hsteady.finish hle

end Tree

end XmlAdvisor
