import XmlAdvisor.Proofs.ActionResolving
import XmlAdvisor.Proofs.Cancellations
import XmlAdvisor.Proofs.TagPlaces

/-!
# Edits stay inside the content of one element

An action comes back from an editor with data and diagnostics that may be anything, for a document
that may have changed since.  Whatever they are, and whatever grammars are found, resolving it gives
the action back, at most with an edit, and the edit replaces the content of one element that has the
name in the data: all text up to the `>` of its start tag and from the `</` of its end tag on stays.

* `applyEdits_replacing` — what becomes of a text in which one span is replaced.
* `insertionPlace_eq_some` — which elements an action can be about.
* `Document.EditsContent` — an edit replaces the content of an element and nothing else.
* **`resolveAction_within_content`** — every edit that an action gets does.
-/

namespace XmlAdvisor

/-! ## Replacing one span -/

section Replacing

variable {d : Document} {span : Span} {range : Range} {newText : String} {w : WorkspaceEdit}

lemma rangeAt_of_orBadLocation (h : orBadLocation (d.rangeAt span) = .ok range) :
    d.rangeAt span = .ok range := by
  cases hrange : d.rangeAt span with
  | error cause =>
      rw [hrange] at h
      cases h
  | ok found =>
      rw [hrange] at h
      cases h
      rfl

lemma eq_of_replacing (hw : d.replacing range newText = .ok w) :
    w =
      { documentChanges := some (.edits [⟨d.url.text, some d.version, [⟨range, newText⟩]⟩]) } := by
  rw [Document.replacing] at hw
  split_ifs at hw
  exact (Except.ok.inj hw).symm

/-- Applying the edit of one span leaves the text around the span. -/
lemma applyEdits_span (hrange : d.rangeAt span = .ok range) (hordered : span.start ≤ span.stop)
    (hw : w =
      { documentChanges := some (.edits [⟨d.url.text, some d.version, [⟨range, newText⟩]⟩]) }) :
    d.applyEdits (w.editsFor d) =
      .ok (String.ofList (d.text.take span.start ++ newText.toList ++ d.text.drop span.stop)) := by
  have hedit : w.editsFor d = [⟨range, newText⟩] := by
    rw [hw]
    simp [WorkspaceEdit.editsFor]
  have hsplice : d.spliceOf ⟨range, newText⟩ = .ok ⟨span, newText⟩ := by
    rw [Document.spliceOf, Document.spanAt_rangeAt hrange]
    show Except.ok (Splice.mk ⟨span.start, max span.start span.stop⟩ newText) = _
    rw [Nat.max_eq_right hordered]
  have hsplices : [⟨range, newText⟩].mapM d.spliceOf = .ok [⟨span, newText⟩] := by
    rw [List.mapM_cons, hsplice]
    rfl
  rw [hedit, Document.applyEdits, hsplices]
  dsimp only [bind, Except.bind]
  rw [List.mergeSort_singleton]
  rfl

/-- Applying an edit that replaces a span leaves the text around the span. -/
lemma applyEdits_replacing (hrange : d.rangeAt span = .ok range) (hordered : span.start ≤ span.stop)
    (hw : d.replacing range newText = .ok w) : d.applyEdits (w.editsFor d) =
      .ok (String.ofList (d.text.take span.start ++ newText.toList ++ d.text.drop span.stop)) :=
  applyEdits_span hrange hordered (eq_of_replacing hw)

end Replacing

/-! ## The element of an action -/

section Places

variable {d : Document} {a : CodeAction} {e : ElementNode} {span : Span} {p : ActionPayload}

lemma element?_of_elementOf {x : Diagnostic} (h : d.elementOf x = .ok (some e)) :
    d.element? e.id = some e := by
  obtain ⟨offset, -, h⟩ := exists_of_bind_ok h
  have hfound : d.elementAt? (offset + 1) = some e := Except.ok.inj h
  obtain ⟨id, -, hid⟩ := Option.bind_eq_some_iff.mp hfound
  exact Tree.element?_id hid

/-- An action is about an element of the document that has the name in its data and both its
tags. -/
lemma insertionPlace_eq_some (h : insertionPlace d a = .ok (some (e, span, p))) :
    a.payload = .ok p ∧ e ∈ d.elements ∧ e.element.localName = p.parentLocalName ∧
      e.element.contentSpan = some span := by
  obtain ⟨payload, hpayload, h⟩ := exists_of_bind_ok h
  split at h
  · cases h
  · split_ifs at h
    · cases h
    · obtain ⟨found, hfound, h⟩ := exists_of_bind_ok h
      cases found with
      | none => cases h
      | some element =>
          dsimp only at h
          split_ifs at h with hname
          · cases h
          · obtain ⟨content, hcontent, hplace⟩ := Option.map_eq_some_iff.mp (Except.ok.inj h)
            cases hplace
            exact ⟨hpayload, Tree.mem_elements.mpr (element?_of_elementOf hfound),
              not_not.mp hname, hcontent⟩

end Places

/-! ## Edits of content -/

/-- Whether an edit of a version of a document replaces the content of an element between its tags,
and leaves the rest of the text. -/
def Document.EditsContent (d : Document) (e : ElementNode) (w : WorkspaceEdit) : Prop :=
  ∃ close stop range newText,
    e.element.startTagClose = some close ∧ e.element.endTagOpen = some stop ∧
    e.span.start < close ∧ stop < e.span.stop ∧ Between d.text close stop ∧
    w = { documentChanges := some (.edits [⟨d.url.text, some d.version, [⟨range, newText⟩]⟩]) } ∧
    d.applyEdits (w.editsFor d) =
      .ok (String.ofList (d.text.take (close + 1) ++ newText.toList ++ d.text.drop stop))

section Edits

variable {cx : ActionContext} {gs : List Grammar} {a : CodeAction} {e : ElementNode} {span : Span}
  {range : Range} {w : WorkspaceEdit} {text : List Char}

/-- Replacing the content of an element that has both its tags. -/
lemma editsContent_of_replacing {d : Document} {newText : String}
    (htree : d.toTree = Tree.parse text) (he : e ∈ d.elements)
    (hspan : e.element.contentSpan = some span) (hrange : d.rangeAt span = .ok range)
    (hw : d.replacing range newText = .ok w) : d.EditsContent e w := by
  simp only [Element.contentSpan, Option.bind_eq_bind, Option.bind_eq_some_iff] at hspan
  obtain ⟨close, hclose, stop, hstop, hspan⟩ := hspan
  cases hspan
  have hparsed : (Tree.parse text).element? e.id = some e := htree ▸ Tree.mem_elements.mp he
  obtain ⟨close', hclose', hafter, hbefore, hbetween⟩ :=
    Tree.content_between_tags text hparsed hstop
  obtain rfl : close = close' := Option.some.inj (hclose.symm.trans hclose')
  have htext : d.text = text := congrArg Tree.text htree
  exact ⟨close, stop, range, newText, hclose, hstop, hafter, hbefore, htext ▸ hbetween,
    eq_of_replacing hw, applyEdits_replacing hrange hbetween.order hw⟩

/-- The edit that is worked out for an action replaces the content of its element. -/
lemma insertionEdit_editsContent (htree : cx.document.toTree = Tree.parse text)
    (h : cx.insertionEdit gs a = .ok (some w)) : ∃ payload e, a.payload = .ok payload ∧
      e ∈ cx.document.elements ∧ e.element.localName = payload.parentLocalName ∧
      cx.document.EditsContent e w := by
  obtain ⟨place, hplace, h⟩ := exists_of_bind_ok h
  cases place with
  | none => cases h
  | some place =>
      obtain ⟨e, span, payload⟩ := place
      obtain ⟨hpayload, he, hname, hspan⟩ := insertionPlace_eq_some hplace
      obtain ⟨range, hrange, h⟩ := exists_of_bind_ok h
      have hrange := rangeAt_of_orBadLocation hrange
      split at h
      · cases h
      · rw [map_eq_pure_bind] at h
        obtain ⟨edit, hreplacing, h⟩ := exists_of_bind_ok h
        cases h
        exact ⟨payload, e, hpayload, he, hname,
          editsContent_of_replacing htree he hspan hrange hreplacing⟩

/-- An action that had no edit is left, or gets the edit that is worked out for it. -/
lemma exists_edit_of_resolvedWith (cx : ActionContext) (gs : List Grammar) (hnone : a.edit = none) :
    ∃ edit : Option WorkspaceEdit, cx.resolvedWith gs a = { a with edit := edit } ∧
      ∀ w ∈ edit, cx.insertionEdit gs a = .ok (some w) := by
  have hleft : a = { a with edit := none } := by rw [← hnone]
  rw [ActionContext.resolvedWith]
  split_ifs
  · cases hedit : cx.insertionEdit gs a with
    | error cause => exact ⟨none, hleft, by rintro _ ⟨⟩⟩
    | ok edit =>
        cases edit with
        | none => exact ⟨none, hleft, by rintro _ ⟨⟩⟩
        | some w =>
            refine ⟨some w, rfl, ?_⟩
            rintro _ ⟨⟩
            rfl
  · exact ⟨none, hleft, by rintro _ ⟨⟩⟩

end Edits

/-- **Resolving an action changes at most the content of one element.**  Whatever is in an action
without an edit, and whatever becomes of the store and of the cancellation, resolving it fails as
given up or gives the action with no other field changed than its edit.  An edit is one of this
version of the document, and replaces what is between the tags of an element that has the name in
the data of the action. -/
theorem resolveAction_within_content (url : Url) (version : Int) (unit : ColumnUnit)
    (text : List Char) (settings : Settings) (b : Bindings) (a : CodeAction) (hnone : a.edit = none)
    (s : RequestState) :
    let d := Document.parse url version unit text
    let resolved := (((Advisor.builtIn settings b).resolveAction d a).runFrom s).1
    resolved = .error .cancelled ∨ ∃ edit : Option WorkspaceEdit,
      resolved = .ok { a with edit := edit } ∧
      ∀ w ∈ edit, ∃ payload e, a.payload = .ok payload ∧ e ∈ d.elements ∧
        e.element.localName = payload.parentLocalName ∧ d.EditsContent e w := by
  intro d resolved
  have hnests : d.toTree.Nests := Tree.parse_nests text
  -- undisturbed, the action is resolved by the grammars that the store has by then
  let gs := (s.store.loadAll b.quiet.supply (d.references b.associations)).1
  have hoffers : b.quiet.Offers d gs s.store := rfl
  obtain ⟨s', hcalm, -⟩ := Advisor.reads_resolveAction
    (reads_applicable (b := b.quiet) rfl hnests gs)
    settings a s.store hoffers
  obtain ⟨v, s'', -, hcalm', hrun⟩ := allOrNothing_resolveAction b d settings a s.store
  rw [hcalm, Prod.mk.injEq] at hcalm'
  obtain ⟨edit, hedit, hw⟩ :=
    exists_edit_of_resolvedWith ((Advisor.builtIn settings b.quiet).context d) gs hnone
  have htree : ((Advisor.builtIn settings b.quiet).context d).document.toTree = Tree.parse text :=
    rfl
  have hwithin : ∀ w ∈ edit, ∃ payload e, a.payload = .ok payload ∧ e ∈ d.elements ∧
      e.element.localName = payload.parentLocalName ∧ d.EditsContent e w := by
    intro w hmem
    have hedits := insertionEdit_editsContent htree (hw w hmem)
    exact hedits
  rcases hrun s.cancellation with hcut | ⟨c', hrun⟩
  · exact .inl hcut
  · refine .inr ⟨edit, ?_, hwithin⟩
    rw [← hedit, hcalm'.1]
    exact congrArg Prod.fst hrun

/-- A later version of the document with two choices, in whose document element something stands. -/
def laterDocument : Document :=
  .parse (Grammar.fileAtTop "a.xml") 2 .utf16
    "<?xml-model href='a.rng'?><?xml-model href='b.rng'?><a>\n  <c/>\n</a>".toList

/-- An action that was listed for the empty element is resolved in the later version. -/
theorem resolveAction_within_content_later : ∃ a ∈ choiceActions, a.edit = none ∧
    ∃ w payload e,
      (((Advisor.builtIn {} choiceBindings).resolveAction laterDocument a).runFrom
        ⟨choiceStore, .never⟩).1 = .ok { a with edit := some w } ∧
      a.payload = .ok payload ∧ e ∈ laterDocument.elements ∧
      e.element.localName = payload.parentLocalName ∧ laterDocument.EditsContent e w := by
  obtain ⟨a, ha, hnone, hsome⟩ : ∃ a ∈ choiceActions, a.edit.isNone ∧
      (((Advisor.builtIn {} choiceBindings).context laterDocument).resolvedWith choiceGrammars
        a).edit.isSome := by
    decide +kernel
  have hnone := Option.isNone_iff_eq_none.mp hnone
  have happlicable := reads_applicable (b := choiceBindings) rfl
    (nests_of_eq_parse laterDocument.eq_1) choiceGrammars
  obtain ⟨s, hrun, -⟩ := Advisor.reads_resolveAction happlicable {} a choiceStore rfl
  refine ⟨a, ha, hnone, ?_⟩
  rcases resolveAction_within_content (Grammar.fileAtTop "a.xml") 2 .utf16 _ {}
    choiceBindings a hnone
    ⟨choiceStore, .never⟩ with hcut | ⟨edit, hresolved, hwithin⟩
  · exact absurd ((congrArg Prod.fst hrun).symm.trans hcut) (by rintro ⟨⟩)
  · have hedit := Except.ok.inj ((congrArg Prod.fst hrun).symm.trans hresolved)
    rw [hedit] at hsome
    obtain ⟨w, rfl⟩ := Option.isSome_iff_exists.mp hsome
    obtain ⟨payload, e, hpayload, he, hname, hedits⟩ := hwithin w rfl
    exact ⟨w, payload, e, hresolved, hpayload, he, hname, hedits⟩

end XmlAdvisor
