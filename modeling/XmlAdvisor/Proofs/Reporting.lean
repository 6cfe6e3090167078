import XmlAdvisor.Proofs.ContentCheck
import XmlAdvisor.Proofs.TreeShape
import XmlAdvisor.Validation.Validate
import Mathlib.Data.List.Basic

/-!
# What a validation reports

A request that is never given up goes through all elements that are validated, and a violation whose
span lies inside the text has a range there.  So nothing that is found about the children of an
element is lost on the way to the diagnostics.

* `Request.runFrom_flatMapM_check` — a loop that looks for its cancellation before each item.
* `Document.exists_rangeAt` — spans inside the text have ranges.
* `ProblemCode.structural` — the problems that are about elements and their children.
* **`Grammar.runFrom_validate`** — what a validation gives.
* **`structural_diagnostics_iff`** — an element that is validated has a diagnostic about its
  children exactly if its content is not valid.
-/

namespace XmlAdvisor

/-! ## Requests that are not given up -/

namespace Request

variable {α β : Type}

lemma runFrom_check (store : GrammarStore) :
    check.runFrom ⟨store, .never⟩ = (.ok (), ⟨store, .never⟩) := rfl

/-- A loop that is never given up gives what its body gives for all items. -/
lemma runFrom_flatMapM_check (f : α → List β) (store : GrammarStore) (items : List α) :
    (flatMapM (fun a => do check; return f a) items).runFrom ⟨store, .never⟩
      = (.ok (items.flatMap f), ⟨store, .never⟩) := by
  induction items with
  | nil => rfl
  | cons a items ih =>
      rw [flatMapM, runFrom_bind, runFrom_bind, runFrom_check]
      dsimp only
      rw [runFrom_pure]
      dsimp only
      rw [runFrom_bind, ih]
      rfl

end Request

/-! ## Places in the text -/

/-- An offset that is not past the end of some lines has a position among them. -/
lemma exists_positionAmong (unit : ColumnUnit) (ls : List (List Char)) (line offset : Nat)
    (hne : ls ≠ []) (h : offset ≤ ls.flatten.length) :
    ∃ p, positionAmong unit line ls offset = some p := by
  induction ls generalizing line offset with
  | nil => exact absurd rfl hne
  | cons head rest ih =>
      cases rest with
      | nil =>
          simp only [List.flatten_cons, List.flatten_nil, List.append_nil] at h
          simp [positionAmong, h]
      | cons next more =>
          unfold positionAmong
          split_ifs with hlt
          · exact ⟨_, rfl⟩
          · refine ih _ _ (List.cons_ne_nil _ _) ?_
            rw [List.flatten_cons, List.length_append] at h
            omega

namespace Document

variable (d : Document)

lemma exists_positionAt {offset : Nat} (h : offset ≤ d.text.length) :
    ∃ p, d.positionAt offset = .ok p := by
  obtain ⟨p, hp⟩ := exists_positionAmong d.unit (lines d.text) 0 offset (lines_ne_nil d.text)
    (by rwa [flatten_lines])
  refine ⟨p, ?_⟩
  rw [positionAt, positionOf, hp]

/-- A span inside the text has a range. -/
lemma exists_rangeAt {span : Span} (hstart : span.start ≤ d.text.length)
    (hstop : span.stop ≤ d.text.length) : ∃ r, d.rangeAt span = .ok r := by
  obtain ⟨p, hp⟩ := d.exists_positionAt hstart
  obtain ⟨q, hq⟩ := d.exists_positionAt hstop
  refine ⟨⟨p, q⟩, ?_⟩
  rw [rangeAt, hp, hq]
  rfl

end Document

/-! ## Problems about elements and their children -/

/-- The problems that are about elements and their children, not about attributes. -/
def ProblemCode.structural : List ProblemCode :=
  [.elementUndeclared, .elementNotAllowed, .incompleteContent, .requiredElementMissing,
    .requiredElementsMissing]

/-- Whether a diagnostic is about an element or its children. -/
def Diagnostic.IsStructural (x : Diagnostic) : Prop :=
  ∃ p ∈ x.problem?, p ∈ ProblemCode.structural

namespace Document

variable {d : Document} {vs : List Violation}

lemma problem?_of_diagnostic {v : Violation} {x : Diagnostic} (h : v.diagnostic? d = some x) :
    x.problem? = some v.problem := by
  rw [Violation.diagnostic?] at h
  split at h
  · cases h
    exact ProblemCode.named?_name v.problem
  · cases h

/-- If the violations about children lie inside the text, each of them is reported. -/
lemma structural_report_iff (hin : ∀ v ∈ vs, v.problem ∈ ProblemCode.structural →
      v.span.start ≤ d.text.length ∧ v.span.stop ≤ d.text.length) :
    (∃ x ∈ d.report vs, x.IsStructural) ↔ ∃ v ∈ vs, v.problem ∈ ProblemCode.structural := by
  constructor
  · rintro ⟨x, hx, p, hp, hstr⟩
    obtain ⟨v, hv, hvx⟩ := List.mem_filterMap.mp hx
    rw [problem?_of_diagnostic hvx] at hp
    cases hp
    exact ⟨v, hv, hstr⟩
  · rintro ⟨v, hv, hstr⟩
    obtain ⟨hstart, hstop⟩ := hin v hv hstr
    obtain ⟨r, hr⟩ := d.exists_rangeAt hstart hstop
    have hx : v.diagnostic? d = some (.ofProblem r .error v.problem v.message v.data) := by
      rw [Violation.diagnostic?, hr]
    exact ⟨_, List.mem_filterMap.mpr ⟨v, hv, hx⟩, v.problem, problem?_of_diagnostic hx, hstr⟩

end Document

/-! ## One element -/

/-- Violations by attributes are not about children. -/
lemma not_structural_of_mem_attributeViolations {d : Declaration} {e : ElementNode} {v : Violation}
    (h : v ∈ attributeViolations d e) : v.problem ∉ ProblemCode.structural := by
  rcases List.mem_append.mp h with h | h
  · obtain ⟨a, -, ha⟩ := List.mem_filterMap.mp h
    split_ifs at ha
    cases ha
    simp [ProblemCode.structural]
  · obtain ⟨a, -, ha⟩ := List.mem_filterMap.mp h
    rw [attributeViolation?] at ha
    split at ha
    · split_ifs at ha
      cases ha
      simp [ProblemCode.structural]
    · split_ifs at ha
      cases ha
      simp [ProblemCode.structural]

lemma incompleteViolation_structural (uri : String) (e : ElementNode) (expected : List String)
    (alternatives : List Declaration) :
    (incompleteViolation uri e expected alternatives).problem ∈ ProblemCode.structural := by
  unfold incompleteViolation
  split <;> simp [ProblemCode.structural]

lemma incompleteViolation_span (uri : String) (e : ElementNode) (expected : List String)
    (alternatives : List Declaration) :
    (incompleteViolation uri e expected alternatives).span = e.nameSpan := by
  unfold incompleteViolation
  split <;> rfl

lemma Declaration.mem_unexpected (d : Declaration) (children : List ElementNode) :
    ∀ u ∈ (d.checkContent children).unexpected, ∃ c ∈ children, u.node = c.id := by
  intro u hu
  cases d with
  | pattern s id =>
      have hu : u ∈ (s.residualOf id children).2 := hu
      rw [Schema.residualOf] at hu
      split at hu
      · exact s.mem_foldChildren_unexpected children _ u hu
      · cases hu
  | dtd dtd element =>
      obtain ⟨c, hc, hcu⟩ := List.mem_filterMap.mp hu
      split_ifs at hcu
      cases hcu
      exact ⟨c, hc, rfl⟩

section Content

variable {t : Tree} {uri : String} {d : Declaration} {e : ElementNode} {v : Violation}

/-- What is wrong with the children of an element is about elements, and stands at the name of one
of them. -/
lemma structural_of_mem_childViolations (he : t.element? e.id = some e)
    (h : v ∈ childViolations t uri d e) :
    v.problem ∈ ProblemCode.structural ∧ ∃ c, t.element? c.id = some c ∧ v.span = c.nameSpan := by
  have hunexpected :
      v ∈ (d.checkContent (t.childElements e)).unexpected.filterMap (fun u =>
        (t.element? u.node).map fun child => unexpectedViolation e child u.expected) →
      v.problem ∈ ProblemCode.structural ∧
        ∃ c, t.element? c.id = some c ∧ v.span = c.nameSpan := by
    intro hv
    obtain ⟨u, -, hu⟩ := List.mem_filterMap.mp hv
    obtain ⟨c, hc, rfl⟩ := Option.map_eq_some_iff.mp hu
    exact ⟨by simp [unexpectedViolation, ProblemCode.structural], c, Tree.element?_id hc, rfl⟩
  rw [childViolations] at h
  split_ifs at h
  · rcases List.mem_append.mp h with h | h
    · exact hunexpected h
    · rw [List.mem_singleton.mp h]
      exact ⟨incompleteViolation_structural _ _ _ _, e, he, incompleteViolation_span _ _ _ _⟩
  · exact hunexpected h

/-- Nothing is wrong with the children of an element exactly if its content is valid. -/
lemma childViolations_eq_nil_iff :
    childViolations t uri d e = [] ↔ (d.checkContent (t.childElements e)).isValid = true := by
  have hnil : (d.checkContent (t.childElements e)).unexpected.filterMap (fun u =>
      (t.element? u.node).map fun child => unexpectedViolation e child u.expected) = [] ↔
      (d.checkContent (t.childElements e)).unexpected = [] := by
    constructor
    · intro h
      refine List.eq_nil_iff_forall_not_mem.mpr fun u hu => ?_
      obtain ⟨c, hc, hcu⟩ := d.mem_unexpected _ u hu
      have hnone := List.filterMap_eq_nil_iff.mp h u hu
      rw [hcu, Tree.element?_of_mem_childElements hc] at hnone
      cases hnone
    · intro h
      rw [h]
      rfl
  rw [childViolations, ContentCheck.isValid]
  split_ifs with hinc
  · simp [hinc]
  · simp [hnil, hinc]

end Content

/-- **An element has a diagnostic about its children exactly if its content is not valid.** -/
theorem structural_diagnostics_iff {g : Grammar} {d : Document} (hd : d.toTree.Shaped)
    {v : Grammar.Visit} (hv : d.element? v.element.id = some v.element) :
    (∃ x ∈ v.diagnostics g d, x.IsStructural) ↔
      (v.declaration.checkContent (d.childElements v.element)).isValid = false := by
  rw [Grammar.Visit.diagnostics]
  have hsplit : (∃ w ∈ violations d.toTree g.uri.text v.declaration v.element,
      w.problem ∈ ProblemCode.structural) ↔
      childViolations d.toTree g.uri.text v.declaration v.element ≠ [] := by
    constructor
    · rintro ⟨w, hw, hstr⟩
      rcases List.mem_append.mp hw with hw | hw
      · exact absurd hstr (not_structural_of_mem_attributeViolations hw)
      · exact List.ne_nil_of_mem hw
    · intro hne
      obtain ⟨w, hw⟩ := List.exists_mem_of_ne_nil _ hne
      exact ⟨w, List.mem_append_right _ hw, (structural_of_mem_childViolations hv hw).1⟩
  rw [Document.structural_report_iff, hsplit, Ne, childViolations_eq_nil_iff, Bool.not_eq_true]
  intro w hw hstr
  rcases List.mem_append.mp hw with hw | hw
  · exact absurd hstr (not_structural_of_mem_attributeViolations hw)
  · obtain ⟨-, c, hc, hspan⟩ := structural_of_mem_childViolations hv hw
    have hstop := hd.nameSpan_stop_le hc
    rw [hspan]
    have hle : c.nameSpan.start ≤ c.nameSpan.stop := by
      simp only [ElementNode.nameSpan]
      omega
    exact ⟨Nat.le_trans hle hstop, hstop⟩

/-! ## The whole document -/

namespace Grammar

variable (g : Grammar) {d : Document} {root : ElementNode}

/-- What the validation of a document gives when its document element is not declared. -/
lemma runFrom_validate_undeclared (hroot : d.root? = some root)
    (hdecl : g.declarationOf? d.toTree root = none) (store : GrammarStore) :
    (g.validate d).runFrom ⟨store, .never⟩
      = (.ok (d.report [undeclaredViolation g.uri.text root]), ⟨store, .never⟩) := by
  rw [validate, hroot]
  dsimp only
  rw [hdecl]
  rfl

/-- What the validation of a document gives: what is wrong with each element that is validated. -/
theorem runFrom_validate (hroot : d.root? = some root) {decl : Declaration}
    (hdecl : g.declarationOf? d.toTree root = some decl) (store : GrammarStore) :
    (g.validate d).runFrom ⟨store, .never⟩
      = (.ok ((g.visits d.toTree root decl).flatMap fun v => v.diagnostics g d),
          ⟨store, .never⟩) := by
  rw [validate, hroot]
  dsimp only
  rw [hdecl]
  exact Request.runFrom_flatMapM_check _ store _

end Grammar

end XmlAdvisor
