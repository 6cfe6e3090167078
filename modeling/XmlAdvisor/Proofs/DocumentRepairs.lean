import XmlAdvisor.Advice.Fix
import XmlAdvisor.Proofs.ContentEdits
import XmlAdvisor.Proofs.EditPlaces
import XmlAdvisor.Proofs.PositionOrder

/-!
# Repairs that are made once

Repairing a document takes one action for each diagnostic.  The edit of an action is at a place in
the start tag of the element that its diagnostic was reported on, so what is reported once is
repaired once. Content that is not empty is replaced at most once even if it is reported more often,
since edits of it overlap.  Edits of no length never overlap: what is reported twice there is
repaired twice.

* `Request.Gives` — what holds of all that a request can give.
* `Document.Repairs` — an edit at the place that a diagnostic is about.
* `withoutOverlaps_perm` — edits of no length are all kept.
* `Advisor.keptEdits` — the edits that a document is repaired with.
* **`Advisor.keptEdits_once`** — what is reported once is repaired at most once.
-/

namespace XmlAdvisor

open Grammar (fileAtTop)

/-! ## What requests give -/

/-- A request that gives something did so in each of its steps. -/
lemma Request.exists_of_runFrom_bind {α β : Type} {m : Request α} {f : α → Request β}
    {s s' : RequestState} {v : β} (h : (m >>= f).runFrom s = (.ok v, s')) :
    ∃ a s₁, m.runFrom s = (.ok a, s₁) ∧ (f a).runFrom s₁ = (.ok v, s') := by
  rw [Request.runFrom_bind] at h
  cases hfirst : m.runFrom s with
  | mk result s₁ =>
      rw [hfirst] at h
      cases result with
      | error e => cases h
      | ok a => exact ⟨a, s₁, rfl, h⟩

lemma Request.exists_of_isSome {α : Type} {m : Request α} {s : RequestState}
    (h : (m.runFrom s).1.toOption.isSome) : ∃ a s', m.runFrom s = (.ok a, s') := by
  cases hrun : m.runFrom s with
  | mk result s' =>
      rw [hrun] at h
      cases result with
      | error e => cases h
      | ok a => exact ⟨a, s', rfl⟩

/-- Whether a property holds of whatever a request gives, from any state. -/
def Request.Gives {α : Type} (P : α → Prop) (m : Request α) : Prop :=
  ∀ s a s', m.runFrom s = (.ok a, s') → P a

namespace Request.Gives

variable {α β : Type} {P : α → Prop} {Q : β → Prop} {m : Request α}

lemma pure {a : α} (h : P a) : (Pure.pure a : Request α).Gives P := by
  rintro s _ s' ⟨⟩
  exact h

lemma anything (m : Request α) : m.Gives fun _ => True :=
  fun _ _ _ _ => trivial

lemma mono {P' : α → Prop} (h : m.Gives P) (himp : ∀ a, P a → P' a) : m.Gives P' :=
  fun s a s' hrun => himp a (h s a s' hrun)

lemma ofExcept {v : Except RequestError α} (h : ∀ a, v = .ok a → P a) :
    (Request.ofExcept v).Gives P := by
  intro s a s' hrun
  cases v with
  | error e => cases hrun
  | ok b =>
      cases hrun
      exact h _ rfl

lemma bind {f : α → Request β} (hm : m.Gives P) (hf : ∀ a, P a → (f a).Gives Q) :
    (m >>= f).Gives Q := by
  intro s b s' hrun
  obtain ⟨a, s₁, hfirst, hrest⟩ := Request.exists_of_runFrom_bind hrun
  exact hf a (hm s a s₁ hfirst) s₁ b s' hrest

/-- What comes before has no part in what is given. -/
lemma after (m : Request α) {f : α → Request β} (hf : ∀ a, (f a).Gives Q) : (m >>= f).Gives Q :=
  (anything m).bind fun a _ => hf a

lemma orElseValue {value : α} (hm : m.Gives P) (hvalue : P value) :
    (m.orElseValue value).Gives P := by
  intro s a s' hrun
  cases hfirst : m.runFrom s with
  | mk result s₁ =>
      by_cases hcut : result = .error .cancelled
      · have hcancelled := Request.runFrom_orElseValue_cancelled value
          ((congrArg Prod.fst hfirst).trans hcut)
        rw [hrun] at hcancelled
        cases hcancelled
      · rw [Request.runFrom_orElseValue value hfirst hcut, Prod.mk.injEq, Except.ok.injEq] at hrun
        obtain ⟨rfl, -⟩ := hrun
        cases result with
        | ok b => exact hm s b s₁ hfirst
        | error e => exact hvalue

lemma flatMapM {f : α → Request (List β)} {items : List α}
    (hf : ∀ a ∈ items, (f a).Gives fun bs => ∀ b ∈ bs, Q b) :
    (Request.flatMapM f items).Gives fun bs => ∀ b ∈ bs, Q b := by
  induction items with
  | nil => exact pure (by simp)
  | cons a more ih =>
      refine (hf a (List.mem_cons_self ..)).bind fun first hfirst => ?_
      refine (ih fun b hb => hf b (List.mem_cons_of_mem a hb)).bind fun rest hrest => pure ?_
      intro b hb
      exact (List.mem_append.mp hb).elim (hfirst b) (hrest b)

/-- Of what is joined, no more can be counted than what it was joined for. -/
lemma countP_flatMapM {f : α → Request (List β)} {p : α → Bool} {q : β → Bool} {items : List α}
    (hf : ∀ a ∈ items, (f a).Gives fun bs => bs.countP q ≤ if p a then 1 else 0) :
    (Request.flatMapM f items).Gives fun bs => bs.countP q ≤ items.countP p := by
  induction items with
  | nil => exact pure (Nat.le_refl _)
  | cons a more ih =>
      refine (hf a (List.mem_cons_self ..)).bind fun first hfirst => ?_
      refine (ih fun b hb => hf b (List.mem_cons_of_mem a hb)).bind fun rest hrest => pure ?_
      rw [List.countP_append, List.countP_cons]
      omega

lemma mapM {f : α → Request β} {items : List α} (hf : ∀ a ∈ items, (f a).Gives Q) :
    (items.mapM f).Gives fun bs => ∀ b ∈ bs, Q b := by
  induction items with
  | nil => exact pure (by simp)
  | cons a more ih =>
      rw [List.mapM_cons]
      refine (hf a (List.mem_cons_self ..)).bind fun first hfirst => ?_
      refine (ih fun b hb => hf b (List.mem_cons_of_mem a hb)).bind fun rest hrest => pure ?_
      intro b hb
      rcases List.mem_cons.mp hb with rfl | hb
      · exact hfirst
      · exact hrest b hb

end Request.Gives

/-! ## Edits that are kept -/

/-- What ends before a position that another one is not before does not end behind that one. -/
lemma Position.not_before_trans {p q r : Position} (h : q.before p = false)
    (h' : r.before q = false) :
    r.before p = false := by
  simp only [Position.before, Bool.or_eq_false_iff, Bool.and_eq_false_iff, decide_eq_false_iff_not,
    beq_eq_false_iff_ne] at h h' ⊢
  omega

/-- No edit that is kept begins before one ahead of it has ended. -/
lemma keepApart_apart {edits : List TextEdit}
    (hordered : ∀ p ∈ edits, p.range.stop.before p.range.start = false) (last : Option Position) :
    (∀ p ∈ keepApart last edits, ∀ stop ∈ last, p.range.start.before stop = false) ∧
      (keepApart last edits).Pairwise fun p q => q.range.start.before p.range.stop = false := by
  induction edits generalizing last with
  | nil => exact ⟨fun p hp => absurd hp List.not_mem_nil, .nil⟩
  | cons p more ih =>
      have hmore := ih fun q hq => hordered q (List.mem_cons_of_mem p hq)
      rw [keepApart]
      split_ifs with hoverlap
      · exact hmore last
      · obtain ⟨hlater, hpairwise⟩ := hmore (some p.range.stop)
        have hfirst : ∀ stop ∈ last, p.range.start.before stop = false := by
          intro stop hstop
          rw [Option.mem_def.mp hstop] at hoverlap
          exact Bool.eq_false_iff.mpr hoverlap
        refine ⟨fun q hq stop hstop => ?_, List.pairwise_cons.mpr
          ⟨fun q hq => hlater q hq p.range.stop rfl, hpairwise⟩⟩
        rcases List.mem_cons.mp hq with rfl | hq
        · exact hfirst stop hstop
        · have hown := hordered p (List.mem_cons_self ..)
          exact Position.not_before_trans (Position.not_before_trans (hfirst stop hstop) hown)
            (hlater q hq p.range.stop rfl)

lemma keepApart_sublist (last : Option Position) (edits : List TextEdit) :
    (keepApart last edits).Sublist edits := by
  induction edits generalizing last with
  | nil => exact .slnil
  | cons p more ih =>
      rw [keepApart]
      split_ifs
      · exact (ih last).cons p
      · exact (ih (some p.range.stop)).cons_cons p

/-- No more is kept than there was. -/
lemma countP_withoutOverlaps_le (q : TextEdit → Bool) (edits : List TextEdit) :
    (withoutOverlaps edits).countP q ≤ edits.countP q := by
  have hperm := List.mergeSort_perm edits fun a b : TextEdit => a.range.notAfter b.range
  exact ((keepApart_sublist none _).countP_le).trans_eq (hperm.countP_eq q)

/-- Of edits of one range that is not empty, at most one is kept. -/
lemma countP_withoutOverlaps_le_one {q : TextEdit → Bool} {range : Range} {edits : List TextEdit}
    (hordered : ∀ p ∈ edits, p.range.stop.before p.range.start = false)
    (hrange : range.start.before range.stop = true) (hq : ∀ p, q p = true → p.range = range) :
    (withoutOverlaps edits).countP q ≤ 1 := by
  have hperm := List.mergeSort_perm edits fun a b : TextEdit => a.range.notAfter b.range
  have hpairwise := (keepApart_apart (fun p hp => hordered p (hperm.mem_iff.mp hp)) none).2
  rw [← withoutOverlaps] at hpairwise
  have hsame : ∀ p ∈ (withoutOverlaps edits).filter q, p.range = range :=
    fun p hp => hq p (List.mem_filter.mp hp).2
  rw [List.countP_eq_length_filter]
  match hkept : (withoutOverlaps edits).filter q with
  | [] => exact Nat.zero_le _
  | [p] => exact Nat.le_refl _
  | p :: p' :: more =>
      have hpair := List.Pairwise.filter q hpairwise
      rw [hkept] at hpair hsame
      have hapart := (List.pairwise_cons.mp hpair).1 p' (List.mem_cons_self ..)
      rw [hsame p (by simp), hsame p' (by simp), hrange] at hapart
      cases hapart

lemma Range.notAfter_iff (r s : Range) : r.notAfter s = true ↔
    r.start.before s.start = true ∨
      r.start.line = s.start.line ∧ r.start.column = s.start.column ∧
      s.stop.before r.stop = false := by
  cases hr : r.start
  cases hs : s.start
  simp [Range.notAfter, Position.notAfter, hr, hs, and_assoc]

lemma Range.notAfter_trans (r s t : Range) (h : r.notAfter s = true) (h' : s.notAfter t = true) :
    r.notAfter t = true := by
  simp only [Range.notAfter_iff, Position.before, Bool.or_eq_true, Bool.and_eq_true,
    decide_eq_true_eq, beq_iff_eq, Bool.or_eq_false_iff, Bool.and_eq_false_iff,
    decide_eq_false_iff_not, beq_eq_false_iff_ne] at h h' ⊢
  omega

lemma Range.notAfter_total (r s : Range) : (r.notAfter s || s.notAfter r) = true := by
  rw [Bool.or_eq_true]
  simp only [Range.notAfter_iff, Position.before, Bool.or_eq_true, Bool.and_eq_true,
    decide_eq_true_eq, beq_iff_eq, Bool.or_eq_false_iff, Bool.and_eq_false_iff,
    decide_eq_false_iff_not, beq_eq_false_iff_ne]
  omega

lemma Range.start_of_notAfter {r s : Range} (h : r.notAfter s = true) :
    s.start.before r.start = false := by
  simp only [Range.notAfter_iff, Position.before, Bool.or_eq_true, Bool.and_eq_true,
    decide_eq_true_eq, beq_iff_eq, Bool.or_eq_false_iff, Bool.and_eq_false_iff,
    decide_eq_false_iff_not, beq_eq_false_iff_ne] at h ⊢
  omega

/-- Edits of no length that come in order are all kept. -/
lemma keepApart_of_insertions {edits : List TextEdit} {last : Option Position}
    (hempty : ∀ p ∈ edits, p.range.start = p.range.stop)
    (hsorted : edits.Pairwise fun p q => p.range.notAfter q.range = true)
    (hlast : ∀ p ∈ edits, ∀ stop ∈ last, p.range.start.before stop = false) :
    keepApart last edits = edits := by
  induction edits generalizing last with
  | nil => rfl
  | cons p more ih =>
      obtain ⟨hfirst, hmore⟩ := List.pairwise_cons.mp hsorted
      have hkeep : ¬(last.any fun stop => p.range.start.before stop) = true := by
        rw [Option.any_eq_true]
        rintro ⟨stop, hstop, hbefore⟩
        rw [hlast p (List.mem_cons_self ..) stop hstop] at hbefore
        cases hbefore
      rw [keepApart, if_neg hkeep,
        ih (fun q hq => hempty q (List.mem_cons_of_mem p hq)) hmore]
      rintro q hq _ ⟨⟩
      rw [← hempty p (List.mem_cons_self ..)]
      exact Range.start_of_notAfter (hfirst q hq)

/-- **Edits of no length never overlap**: they are all kept. -/
lemma withoutOverlaps_perm {edits : List TextEdit}
    (hempty : ∀ p ∈ edits, p.range.start = p.range.stop) : (withoutOverlaps edits).Perm edits := by
  have hperm := List.mergeSort_perm edits fun a b : TextEdit => a.range.notAfter b.range
  rw [withoutOverlaps, keepApart_of_insertions]
  · exact hperm
  · exact fun p hp => hempty p (hperm.mem_iff.mp hp)
  · exact List.pairwise_mergeSort (fun p q r => Range.notAfter_trans p.range q.range r.range)
      (fun p q => Range.notAfter_total p.range q.range) edits
  · rintro p hp _ ⟨⟩

/-! ## Edits for diagnostics -/

namespace Document

variable {d : Document} {x : Diagnostic} {p : TextEdit} {e e' : ElementNode} {name : String}

/-- The text by which a missing attribute is added. -/
def attributeText (name : String) : String :=
  " " ++ name ++ "=\"\""

/-- An edit that repairs what a diagnostic tells of: an attribute that its element lacks is put
behind the name of the element, or the content of its element is replaced. -/
inductive Repairs (d : Document) (x : Diagnostic) (p : TextEdit) : Prop
  | attribute {e : ElementNode} {name : String}
      (problem : x.problem? = some .requiredAttributeMissing)
      (asked : x.dataText? "attributeName" = some name) (on : d.elementOf x = .ok (some e))
      (absent : e.element.attribute? name = none)
      (place : d.rangeAt ⟨e.nameSpan.stop, e.nameSpan.stop⟩ = .ok p.range)
      (text : p.newText = attributeText name)
  | content {e : ElementNode} {span : Span} {code : ProblemCode} (problem : x.problem? = some code)
      (missing : code ∈ missingElementProblems) (on : d.elementOf x = .ok (some e))
      (content : e.element.contentSpan = some span) (place : d.rangeAt span = .ok p.range)

/-- Whether a diagnostic tells that an element lacks an attribute. -/
def reportsAttribute (d : Document) (e : ElementNode) (name : String) (x : Diagnostic) : Bool :=
  d.isReportedOn e x && x.problem? = some .requiredAttributeMissing &&
    x.dataText? "attributeName" = some name

/-- Whether a diagnostic tells that an element lacks child elements. -/
def reportsContent (d : Document) (e : ElementNode) (x : Diagnostic) : Bool :=
  d.isReportedOn e x && x.problem?.any missingElementProblems.contains

/-- Whether an edit puts an attribute into the start tag of an element. -/
def insertsAttribute (d : Document) (e : ElementNode) (name : String) (p : TextEdit) : Bool :=
  d.rangeAt ⟨e.nameSpan.stop, e.nameSpan.stop⟩ = .ok p.range && p.newText = attributeText name

/-- Whether an edit replaces the content of an element. -/
def replacesContent (d : Document) (e : ElementNode) (p : TextEdit) : Bool :=
  e.element.contentSpan.any fun span => d.rangeAt span = .ok p.range

lemma place?_content {span : Span} (h : e.element.contentSpan = some span) :
    e.place? .content = some span.start := by
  simp only [Element.contentSpan, Option.bind_eq_bind, Option.bind_eq_some_iff] at h
  obtain ⟨close, hclose, stop, -, hspan⟩ := h
  cases hspan
  rw [ElementNode.place?, hclose]
  rfl

section Repairs

variable {text : List Char} (htree : d.toTree = Tree.parse text)
include htree

lemma mem_elements_of_elementOf (h : d.elementOf x = .ok (some e)) :
    e ∈ (Tree.parse text).elements := by
  rw [← htree]
  exact Tree.mem_elements.mpr (element?_of_elementOf h)

/-- Edits at a place in a start tag are for one element, and of one kind. -/
lemma eq_of_place {place place' : EditPlace} {span span' : Span} {range : Range}
    (he : e ∈ (Tree.parse text).elements) (on : d.elementOf x = .ok (some e'))
    (hplace : e.place? place = some span.start) (hplace' : e'.place? place' = some span'.start)
    (hrange : d.rangeAt span = .ok range) (hrange' : d.rangeAt span' = .ok range) :
    e = e' ∧ place = place' := by
  rw [eq_of_rangeAt hrange hrange'] at hplace
  exact Tree.place?_injective text he (mem_elements_of_elementOf htree on) hplace hplace'

/-- An edit that puts an attribute into the start tag of an element repairs just what is reported of
it, and only if it is not there. -/
lemma Repairs.reportsAttribute (he : e ∈ (Tree.parse text).elements) (h : d.Repairs x p)
    (hp : d.insertsAttribute e name p = true) :
    d.reportsAttribute e name x = true ∧ e.element.attribute? name = none := by
  simp only [insertsAttribute, Bool.and_eq_true, decide_eq_true_eq] at hp
  obtain ⟨hrange, htext⟩ := hp
  have hplace : e.place? .attribute = some e.nameSpan.stop := rfl
  cases h with
  | «attribute» problem asked on absent place text =>
      rename_i e' name'
      have hplace' : e'.place? .attribute = some e'.nameSpan.stop := rfl
      obtain ⟨rfl, -⟩ := eq_of_place htree he on hplace hplace' hrange place
      have hname : name = name' := by
        have hchars := congrArg String.toList (htext.symm.trans text)
        simpa [attributeText, String.toList_inj] using hchars
      subst hname
      simp [Document.reportsAttribute, isReportedOn, on, problem, asked, absent]
  | content problem missing on content place =>
      obtain ⟨-, hkind⟩ := eq_of_place htree he on hplace (place?_content content) hrange place
      cases hkind

/-- An edit that replaces the content of an element repairs just what is reported of it. -/
lemma Repairs.reportsContent (he : e ∈ (Tree.parse text).elements) (h : d.Repairs x p)
    (hp : d.replacesContent e p = true) : d.reportsContent e x = true := by
  obtain ⟨span, hspan, hrange⟩ : ∃ span, e.element.contentSpan = some span ∧
      d.rangeAt span = .ok p.range := by
    rw [replacesContent, Option.any_eq_true] at hp
    obtain ⟨span, hspan, hrange⟩ := hp
    exact ⟨span, hspan, of_decide_eq_true hrange⟩
  cases h with
  | «attribute» problem asked on absent place text =>
      rename_i e' name'
      have hplace' : e'.place? .attribute = some e'.nameSpan.stop := rfl
      obtain ⟨-, hkind⟩ := eq_of_place htree he on (place?_content hspan) hplace' hrange place
      cases hkind
  | content problem missing on content place =>
      obtain ⟨rfl, -⟩ := eq_of_place htree he on (place?_content hspan) (place?_content content)
        hrange place
      simp [Document.reportsContent, isReportedOn, on, problem, missing]

/-- The range of an edit ends no earlier than it begins. -/
lemma Repairs.ordered (h : d.Repairs x p) : p.range.stop.before p.range.start = false := by
  obtain ⟨span, hspan, hrange⟩ : ∃ span : Span, span.start ≤ span.stop ∧
      d.rangeAt span = .ok p.range := by
    cases h with
    | «attribute» problem asked on absent place text => exact ⟨_, Nat.le_refl _, place⟩
    | content problem missing on content place =>
        rename_i e span _
        simp only [Element.contentSpan, Option.bind_eq_bind, Option.bind_eq_some_iff] at content
        obtain ⟨close, hclose, stop, hstop, hspan⟩ := content
        cases hspan
        have he := Tree.mem_elements.mp (mem_elements_of_elementOf htree on)
        obtain ⟨close', hclose', -, -, hbetween⟩ := Tree.content_between_tags text he hstop
        obtain rfl : close = close' := Option.some.inj (hclose.symm.trans hclose')
        exact ⟨⟨close + 1, stop⟩, hbetween.order, place⟩
  obtain ⟨hstart, hstop⟩ := rangeAt_eq_ok hrange
  rw [Bool.eq_false_iff]
  intro hbefore
  rcases Nat.lt_or_eq_of_le hspan with hlt | heq
  · have hother := before_of_lt hlt hstart hstop
    simp only [Position.before, Bool.or_eq_true, Bool.and_eq_true, decide_eq_true_eq,
      beq_iff_eq] at hbefore hother
    omega
  · rw [heq, hstop, Except.ok.injEq] at hstart
    rw [hstart] at hbefore
    simp [Position.before] at hbefore

end Repairs

end Document

/-! ## Actions -/

/-- Whether the edit of an action, if it has one, is a single one that repairs what the action is
about. -/
def CodeAction.Repairing (d : Document) (a : CodeAction) : Prop :=
  ∃ x, a.firstDiagnostic? = some x ∧
    ∀ w ∈ a.edit, ∃ p, w.editsFor d = [p] ∧ d.Repairs x p

section Actions

variable {d : Document} {x : Diagnostic} {a : CodeAction}

lemma ok_of_orBadLocation {α : Type} {v : Except PlaceError α} {r : α}
    (h : orBadLocation v = .ok r) :
    v = .ok r := by
  cases v with
  | error cause => cases h
  | ok found =>
      cases h
      rfl

lemma editsFor_of_replacing {range : Range} {newText : String} {w : WorkspaceEdit}
    (hw : d.replacing range newText = .ok w) : w.editsFor d = [⟨range, newText⟩] := by
  rw [eq_of_replacing hw]
  simp [WorkspaceEdit.editsFor]

/-- An attribute is inserted for an element that lacks it. -/
lemma repairing_of_mem_attributeInsertions {actions : List CodeAction}
    (hproblem : x.problem? = some .requiredAttributeMissing)
    (h : attributeInsertions d x = .ok actions) : ∀ a ∈ actions, a.Repairing d := by
  rw [attributeInsertions] at h
  cases hname : x.dataText? "attributeName" with
  | none =>
      rw [hname] at h
      cases h
      simp
  | some name =>
      rw [hname] at h
      obtain ⟨found, hfound, h⟩ := exists_of_bind_ok h
      cases found with
      | none =>
          cases h
          simp
      | some e =>
          dsimp only at h
          split_ifs at h with hthere
          · cases h
            simp
          · obtain ⟨position, hposition, h⟩ := exists_of_bind_ok h
            obtain ⟨edit, hedit, h⟩ := exists_of_bind_ok h
            cases h
            intro a ha
            rw [List.mem_singleton.mp ha]
            refine ⟨x, rfl, ?_⟩
            rintro _ ⟨⟩
            have hposition : d.positionAt e.nameSpan.stop = .ok position :=
              ok_of_orBadLocation hposition
            have hrange : d.rangeAt ⟨e.nameSpan.stop, e.nameSpan.stop⟩ =
                .ok ⟨position, position⟩ := by
              rw [Document.rangeAt, hposition]
              rfl
            exact ⟨_, editsFor_of_replacing hedit,
              .attribute hproblem hname hfound (Option.not_isSome_iff_eq_none.mp hthere) hrange rfl⟩

/-- The insertions of elements are listed without their edits. -/
lemma gives_listInsertions (cx : ActionContext) (x : Diagnostic) :
    (listInsertions cx x).Gives fun actions => ∀ a ∈ actions, a.Repairing d := by
  rw [listInsertions]
  split
  · refine .after _ fun names => .pure fun a ha => ?_
    obtain ⟨name, -, rfl⟩ := List.mem_map.mp ha
    exact ⟨x, rfl, by rintro _ ⟨⟩⟩
  · exact .pure (by simp)

lemma gives_listActions (settings : Settings) (b : Bindings) (xs : List Diagnostic) :
    (listActions Advisor.defaultParticipants ⟨d, b, settings⟩ xs).Gives
      fun actions => ∀ a ∈ actions, a.Repairing d := by
  refine .flatMapM fun x _ => .after _ fun _ => ?_
  split
  · rename_i problem hproblem
    refine .flatMapM fun participant hparticipant => ?_
    rw [Participant.offer]
    split_ifs with hknown
    · refine .orElseValue ?_ (by simp)
      rcases List.mem_cons.mp hparticipant with rfl | hparticipant
      · exact gives_listInsertions _ x
      · rw [List.mem_singleton.mp hparticipant] at hknown ⊢
        have heq : problem = .requiredAttributeMissing := by
          simpa [insertAttributeParticipant] using hknown
        exact .ofExcept fun actions h => repairing_of_mem_attributeInsertions (heq ▸ hproblem) h
    · exact .pure (by simp)
  · exact .pure (by simp)

/-- The element whose content an action replaces is the one that its diagnostic was reported on. -/
lemma elementOf_of_insertionPlace {e : ElementNode} {span : Span} {payload : ActionPayload}
    (hfirst : a.firstDiagnostic? = some x)
    (h : insertionPlace d a = .ok (some (e, span, payload))) : d.elementOf x = .ok (some e) := by
  obtain ⟨_, -, h⟩ := exists_of_bind_ok h
  rw [hfirst] at h
  dsimp only at h
  split_ifs at h
  · cases h
  · obtain ⟨found, hfound, h⟩ := exists_of_bind_ok h
    cases found with
    | none => cases h
    | some element =>
        dsimp only at h
        split_ifs at h
        · cases h
        · obtain ⟨content, -, hplace⟩ := Option.map_eq_some_iff.mp (Except.ok.inj h)
          cases hplace
          exact hfound

/-- What is worked out for an action replaces content that is reported to be incomplete. -/
lemma gives_resolveInsertion (settings : Settings) (b : Bindings)
    (hfirst : a.firstDiagnostic? = some x) {problem : ProblemCode}
    (hproblem : x.problem? = some problem) (hmissing : problem ∈ missingElementProblems) :
    (resolveInsertion ⟨d, b, settings⟩ a).Gives
      fun edit? => ∀ w ∈ edit?, ∃ p, w.editsFor d = [p] ∧ d.Repairs x p := by
  refine .bind (.ofExcept fun place hplace => hplace) fun place hplace => ?_
  cases place with
  | none => exact .pure (by rintro _ ⟨⟩)
  | some place =>
      obtain ⟨e, span, payload⟩ := place
      have he := elementOf_of_insertionPlace hfirst hplace
      have hspan := (insertionPlace_eq_some hplace).2.2.2
      refine .bind (.ofExcept fun range hrange => ok_of_orBadLocation hrange) fun range hrange => ?_
      refine .after _ fun gs => .after _ fun decl? => ?_
      split
      · exact .pure (by rintro _ ⟨⟩)
      · refine .after _ fun _ => ?_
        rw [map_eq_pure_bind]
        refine .bind (.ofExcept fun edit hedit => hedit) fun edit hedit => .pure ?_
        rintro _ ⟨⟩
        exact ⟨_, editsFor_of_replacing hedit, .content hproblem hmissing he hspan hrange⟩

/-- Resolving an action leaves it one that repairs what it is about. -/
lemma gives_resolveAction (settings : Settings) (b : Bindings) (ha : a.Repairing d) :
    ((Advisor.builtIn settings b).resolveAction d a).Gives fun resolved =>
      resolved.firstDiagnostic? = a.firstDiagnostic? ∧ resolved.Repairing d := by
  obtain ⟨x, hfirst, hedit⟩ := ha
  have hproblem : a.problem? = x.problem? := by rw [CodeAction.problem?, hfirst]
  show (Registry.resolve Advisor.defaultRegistry _ a).Gives _
  rw [Registry.resolve, hproblem]
  cases hx : x.problem? with
  | none => exact .pure ⟨rfl, x, hfirst, hedit⟩
  | some problem =>
      rw [Option.bind_some, lookup_defaultRegistry]
      split_ifs with hmissing
      · have hresolved := gives_resolveInsertion (d := d) settings b hfirst hx
          (List.contains_iff_mem.mp hmissing)
        refine .bind (.orElseValue hresolved (by rintro _ ⟨⟩)) fun edit? hedit? => ?_
        cases edit? with
        | none => exact .pure ⟨rfl, x, hfirst, hedit⟩
        | some w => exact .pure ⟨rfl, x, hfirst, by rintro _ ⟨⟩; exact hedit? w rfl⟩
      · exact .pure ⟨rfl, x, hfirst, hedit⟩

lemma gives_codeActions (settings : Settings) (b : Bindings) (xs : List Diagnostic) :
    ((Advisor.builtIn settings b).codeActions d xs).Gives
      fun actions => ∀ a ∈ actions, a.Repairing d := by
  refine .bind (gives_listActions settings b xs) fun actions hactions => ?_
  split_ifs
  · exact .pure hactions
  · refine .mapM fun a ha => ?_
    exact (gives_resolveAction settings b (hactions a ha)).mono fun _ h => h.2

end Actions

/-! ## Repairing a document -/

namespace Advisor

/-- The edits of the actions that are taken for the diagnostics of a document. -/
def repairs (a : Advisor) (d : Document) (element : Option String) : Request (List TextEdit) := do
  let diagnostics ← a.diagnostics d
  let actions ← a.codeActions d diagnostics
  Request.flatMapM (a.fixEdits d actions element) diagnostics

/-- The edits that a document is repaired with. -/
def keptEdits (a : Advisor) (d : Document) (element : Option String) : Request (List TextEdit) := do
  return withoutOverlaps (← a.repairs d element)

/-- A document is repaired with the edits that are kept. -/
lemma fix_eq (a : Advisor) (d : Document) (element : Option String) :
    a.fix d element = a.keptEdits d element >>= fun kept =>
      match kept with
      | [] => pure none
      | kept => some <$> Request.ofExcept (d.applyEdits kept) := by
  simp only [keptEdits, repairs, bind_assoc, pure_bind]
  rfl

/-- The edits for a document are kept where they can be. -/
lemma runFrom_keptEdits {a : Advisor} {d : Document} {element : Option String}
    {s after : RequestState} {edits : List TextEdit}
    (h : (a.repairs d element).runFrom s = (.ok edits, after)) :
    (a.keptEdits d element).runFrom s = (.ok (withoutOverlaps edits), after) := by
  rw [keptEdits, Request.runFrom_bind, h]
  rfl

lemma runFrom_fix {a : Advisor} {d : Document} {element : Option String} {s after : RequestState}
    {kept : List TextEdit} (h : (a.keptEdits d element).runFrom s = (.ok kept, after)) :
    (a.fix d element).runFrom s =
      (if kept = [] then .ok none else (d.applyEdits kept).map some, after) := by
  rw [fix_eq, Request.runFrom_bind, h]
  cases kept with
  | nil => rfl
  | cons p more =>
      rw [if_neg (List.cons_ne_nil p more)]
      show (some <$> Request.ofExcept (d.applyEdits (p :: more))).runFrom after = _
      cases d.applyEdits (p :: more) <;> rfl

variable {d : Document} {x : Diagnostic} (settings : Settings) (b : Bindings)

/-- For a diagnostic at most one edit is made, and it repairs what the diagnostic tells of. -/
lemma gives_fixEdits {actions : List CodeAction} (hactions : ∀ a ∈ actions, a.Repairing d)
    (element : Option String) : ((builtIn settings b).fixEdits d actions element x).Gives
      fun edits => edits = [] ∨ ∃ p, edits = [p] ∧ d.Repairs x p := by
  rw [fixEdits]
  split
  · exact .pure (.inl rfl)
  · rename_i a hchosen
    have hcandidate : a ∈ actions.filter fun a => a.firstDiagnostic? == some x := by
      rw [chooseAction?] at hchosen
      rcases Option.or_eq_some_iff.mp hchosen with hasked | ⟨-, hother⟩
      · obtain ⟨name, -, hfind⟩ := Option.bind_eq_some_iff.mp hasked
        exact List.mem_of_find?_eq_some hfind
      · rcases Option.or_eq_some_iff.mp hother with hpreferred | ⟨-, hfirst⟩
        · exact List.mem_of_find?_eq_some hpreferred
        · exact List.mem_of_head? hfirst
    obtain ⟨hmem, habout⟩ := List.mem_filter.mp hcandidate
    refine (gives_resolveAction settings b (hactions a hmem)).bind
      fun resolved hresolved => .pure ?_
    obtain ⟨hsame, y, hy, hedit⟩ := hresolved
    rw [hsame, beq_iff_eq.mp habout, Option.some.injEq] at hy
    subst hy
    cases hw : resolved.edit with
    | none => exact .inl rfl
    | some w => exact .inr (hedit w hw)

/-- No more edits of some sort are made than there are diagnostics that they repair. -/
lemma gives_fixEdits_countP {actions : List CodeAction} (hactions : ∀ a ∈ actions, a.Repairing d)
    (element : Option String) {p : Diagnostic → Bool} {q : TextEdit → Bool}
    (hpq : ∀ x e, d.Repairs x e → q e = true → p x = true) (xs : List Diagnostic) :
    (Request.flatMapM ((builtIn settings b).fixEdits d actions element) xs).Gives
      fun edits => edits.countP q ≤ xs.countP p := by
  refine .countP_flatMapM fun x _ => (gives_fixEdits settings b hactions element).mono ?_
  rintro _ (rfl | ⟨e, rfl, he⟩)
  · exact Nat.zero_le _
  · rw [List.countP_singleton]
    split_ifs with hq hp
    · exact Nat.le_refl _
    · exact absurd (hpq x e he hq) hp
    · exact Nat.zero_le _
    · exact Nat.zero_le _

/-- No edit ends before it begins. -/
lemma gives_fixEdits_ordered {text : List Char} (htree : d.toTree = Tree.parse text)
    {actions : List CodeAction} (hactions : ∀ a ∈ actions, a.Repairing d) (element : Option String)
    (xs : List Diagnostic) :
    (Request.flatMapM ((builtIn settings b).fixEdits d actions element) xs).Gives
      fun edits => ∀ p ∈ edits, p.range.stop.before p.range.start = false := by
  refine .flatMapM fun x _ => (gives_fixEdits settings b hactions element).mono ?_
  rintro _ (rfl | ⟨e, rfl, he⟩)
  · exact fun p hp => absurd hp List.not_mem_nil
  · intro p hp
    rw [List.mem_singleton.mp hp]
    exact he.ordered htree

/-- **What is reported once is repaired at most once.**  An attribute that an element has is not
inserted into its start tag, and one that is reported once is inserted at most once.  The content of
an element is replaced at most once if it is not empty, or if it is reported once. -/
theorem keptEdits_once (url : Url) (version : Int) (unit : ColumnUnit) (text : List Char)
    (d : Document) (hd : d = Document.parse url version unit text) (settings : Settings)
    (b : Bindings) (element : Option String) (s after : RequestState) (kept : List TextEdit)
    (hkept : ((builtIn settings b).keptEdits d element).runFrom s = (.ok kept, after)) :
    ((builtIn settings b).fix d element).runFrom s =
      (if kept = [] then .ok none else (d.applyEdits kept).map some, after) ∧
    ∃ xs s₁, ((builtIn settings b).diagnostics d).runFrom s = (.ok xs, s₁) ∧
      ∀ e ∈ d.elements,
        (∀ name, (e.element.attribute? name).isSome → kept.countP (d.insertsAttribute e name) = 0) ∧
        (∀ name, xs.countP (d.reportsAttribute e name) ≤ 1 →
          kept.countP (d.insertsAttribute e name) ≤ 1) ∧
        ((∃ span, e.element.contentSpan = some span ∧ span.start < span.stop) ∨
            xs.countP (d.reportsContent e) ≤ 1 →
          kept.countP (d.replacesContent e) ≤ 1) := by
  have htree : d.toTree = Tree.parse text := by rw [hd]; rfl
  refine ⟨runFrom_fix hkept, ?_⟩
  obtain ⟨edits, s₃, hrepairs, hrest⟩ := Request.exists_of_runFrom_bind hkept
  cases hrest
  obtain ⟨xs, s₁, hxs, hrest⟩ := Request.exists_of_runFrom_bind hrepairs
  obtain ⟨actions, s₂, hactions, hedits⟩ := Request.exists_of_runFrom_bind hrest
  have hrepairing := gives_codeActions settings b xs s₁ actions s₂ hactions
  have hcount {p : Diagnostic → Bool} {q : TextEdit → Bool}
      (hpq : ∀ x e, d.Repairs x e → q e = true → p x = true) : edits.countP q ≤ xs.countP p :=
    gives_fixEdits_countP settings b hrepairing element hpq xs s₂ edits _ hedits
  refine ⟨xs, s₁, hxs, fun e he => ?_⟩
  have he : e ∈ (Tree.parse text).elements := htree ▸ he
  refine ⟨fun name hthere => ?_, fun name honce => ?_, fun honce => ?_⟩
  · have hnone := hcount (p := fun _ => false) (q := d.insertsAttribute e name) fun x p hp hq => by
      rw [(hp.reportsAttribute htree he hq).2] at hthere
      cases hthere
    have hle := (countP_withoutOverlaps_le _ _).trans hnone
    simpa using hle
  · have hle := hcount (q := d.insertsAttribute e name) fun x p hp hq =>
      (hp.reportsAttribute htree he hq).1
    exact ((countP_withoutOverlaps_le _ _).trans hle).trans honce
  · rcases honce with ⟨span, hspan, hfilled⟩ | honce
    · have hordered : ∀ p ∈ edits, p.range.stop.before p.range.start = false :=
        gives_fixEdits_ordered settings b htree hrepairing element xs s₂ edits _ hedits
      have hq (p : TextEdit) : d.replacesContent e p = true ↔ d.rangeAt span = .ok p.range := by
        rw [Document.replacesContent, hspan]
        exact decide_eq_true_iff
      cases hrange : d.rangeAt span with
      | error cause =>
          rw [List.countP_eq_zero.mpr]
          · exact Nat.zero_le _
          · intro p _ hp
            rw [hq, hrange] at hp
            cases hp
      | ok range =>
          obtain ⟨hstart, hstop⟩ := Document.rangeAt_eq_ok hrange
          refine countP_withoutOverlaps_le_one hordered (Document.before_of_lt hfilled hstart hstop)
            fun p hp => ?_
          rw [hq, hrange] at hp
          exact (Except.ok.inj hp).symm
    · have hle := hcount (q := d.replacesContent e) fun x p hp hq => hp.reportsContent htree he hq
      exact ((countP_withoutOverlaps_le _ _).trans hle).trans honce

end Advisor

/-- A schema for an element that needs an attribute and a child. -/
def Schema.demanding (key child : String) : Schema where
  patterns := #[.empty, .text, .attribute (.name "" key) 1 none none,
    .element (.name "" child) 0 none,
    .group [2, 3], .element (.name "" "a") 4 none]
  definitions := #[]
  start := 5

/-- A state in which the store keeps two schemas for the same element. -/
def demandingState (key child key' child' : String) : RequestState :=
  ⟨⟨[.relaxNg (fileAtTop "a.rng") (.demanding key child),
    .relaxNg (fileAtTop "b.rng") (.demanding key' child')].map fun g => ⟨⟨g.uri, none⟩, "1", g⟩, 0⟩,
    .never⟩

/-- A document that is bound to both schemas. -/
def demandingDocument (content : String) : Document :=
  .parse (fileAtTop "a.xml") 1 .utf16
    ("<?xml-model href='a.rng'?><?xml-model href='b.rng'?><a>" ++ content ++ "</a>").toList

/-- Two schemas report different attributes and the same content, which is not empty. -/
theorem Advisor.keptEdits_once_filled : ∃ kept after,
    ((builtIn {} choiceBindings).keptEdits (demandingDocument " ") none).runFrom
      (demandingState "x" "b" "y" "c") = (.ok kept, after) ∧
    ∃ e ∈ (demandingDocument " ").elements,
      kept.countP ((demandingDocument " ").insertsAttribute e "x") ≤ 1 ∧
      kept.countP ((demandingDocument " ").insertsAttribute e "y") ≤ 1 ∧
      kept.countP ((demandingDocument " ").replacesContent e) ≤ 1 := by
  obtain ⟨edits, after, hedits⟩ : ∃ edits after, ((builtIn {} choiceBindings).repairs
      (demandingDocument " ") none).runFrom (demandingState "x" "b" "y" "c") = (.ok edits, after) :=
    Request.exists_of_isSome (by decide +kernel)
  have hkept := runFrom_keptEdits hedits
  obtain ⟨-, xs, s₁, hxs, honce⟩ :=
    keptEdits_once _ _ _ _ (demandingDocument " ") rfl {} choiceBindings
    none (demandingState "x" "b" "y" "c") after _ hkept
  obtain ⟨e, he, hx, hy, hcontent⟩ : ∃ e ∈ (demandingDocument " ").elements,
      ((((builtIn {} choiceBindings).diagnostics (demandingDocument " ")).runFrom
        (demandingState "x" "b" "y" "c")).1.toOption.getD []).countP
          ((demandingDocument " ").reportsAttribute e "x") ≤ 1 ∧
      ((((builtIn {} choiceBindings).diagnostics (demandingDocument " ")).runFrom
        (demandingState "x" "b" "y" "c")).1.toOption.getD []).countP
          ((demandingDocument " ").reportsAttribute e "y") ≤ 1 ∧
      e.element.contentSpan.any (fun span => span.start < span.stop) = true := by decide +kernel
  rw [hxs] at hx hy
  obtain ⟨-, hattribute, hreplaced⟩ := honce e he
  refine ⟨_, after, hkept, e, he, hattribute "x" hx, hattribute "y" hy, hreplaced (.inl ?_)⟩
  obtain ⟨span, hspan, hfilled⟩ := (Option.any_eq_true _ _).mp hcontent
  exact ⟨span, hspan, of_decide_eq_true hfilled⟩

/-- **What is reported twice is repaired twice** where nothing is replaced: an attribute that two
schemas demand is inserted twice, and so is a child into empty content. -/
theorem Advisor.keptEdits_twice : ∃ kept after,
    ((builtIn {} choiceBindings).keptEdits (demandingDocument "") none).runFrom
      (demandingState "x" "b" "x" "b") = (.ok kept, after) ∧
    ∃ e ∈ (demandingDocument "").elements,
      kept.countP ((demandingDocument "").insertsAttribute e "x") = 2 ∧
      kept.countP ((demandingDocument "").replacesContent e) = 2 := by
  obtain ⟨edits, after, hedits⟩ : ∃ edits after, ((builtIn {} choiceBindings).repairs
      (demandingDocument "") none).runFrom (demandingState "x" "b" "x" "b") = (.ok edits, after) :=
    Request.exists_of_isSome (by decide +kernel)
  obtain ⟨e, he, hempty, hx, hcontent⟩ : ∃ e ∈ (demandingDocument "").elements,
      (∀ p ∈ (((builtIn {} choiceBindings).repairs (demandingDocument "") none).runFrom
        (demandingState "x" "b" "x" "b")).1.toOption.getD [], p.range.start = p.range.stop) ∧
      ((((builtIn {} choiceBindings).repairs (demandingDocument "") none).runFrom
        (demandingState "x" "b" "x" "b")).1.toOption.getD []).countP
          ((demandingDocument "").insertsAttribute e "x") = 2 ∧
      ((((builtIn {} choiceBindings).repairs (demandingDocument "") none).runFrom
        (demandingState "x" "b" "x" "b")).1.toOption.getD []).countP
          ((demandingDocument "").replacesContent e) = 2 := by decide +kernel
  rw [hedits] at hempty hx hcontent
  have hperm := withoutOverlaps_perm hempty
  exact ⟨_, after, runFrom_keptEdits hedits, e, he, (hperm.countP_eq _).trans hx,
    (hperm.countP_eq _).trans hcontent⟩

end XmlAdvisor
