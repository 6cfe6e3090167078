import XmlAdvisor.Proofs.OfferedGrammars
import XmlAdvisor.Proofs.Relocation
import XmlAdvisor.Proofs.VisitOrder

/-!
# Reports about incomplete content

Content that ends too early is reported in one of three ways, by how many alternatives are known.
Whatever the way, an element has one such report from a grammar or none, and the report begins at
the element, so the element is found again from it.

* `Grammar.visited` — the elements that a validation goes through.
* `IsReport` — a diagnostic is what a visit reports about incomplete content.
* `IsReport.dataText?_several`, `IsReport.dataText?_single` — what the data of the report tells.
* `reports_of_visited` — the reports of a validation are those of the visits with incomplete
  content.
* **`countP_findings`** — an element is reported once or not at all.
* `exists_isReport_of_mem` — reports among the diagnostics of a document come from validations.
-/

namespace XmlAdvisor

/-- The problems of content that ends too early. -/
def incompleteProblems : List ProblemCode :=
  [.requiredElementsMissing, .requiredElementMissing, .incompleteContent]

/-- Whether a diagnostic tells of content that ends too early. -/
def Diagnostic.isIncompleteness (x : Diagnostic) : Bool :=
  x.problem?.any incompleteProblems.contains

/-- Whether a diagnostic leads back to an element. -/
def Document.isReportedOn (d : Document) (e : ElementNode) (x : Diagnostic) : Bool :=
  decide (d.elementOf x = .ok (some e))

namespace Grammar

/-- The elements of a document that a validation goes through, with their declarations. -/
def visited (g : Grammar) (d : Document) : List Visit :=
  match d.root? with
  | none => []
  | some root =>
    match g.declarationOf? d.toTree root with
    | none => []
    | some decl => g.visits d.toTree root decl

/-- Whether the content of an element that is validated ends too early. -/
def Visit.isIncomplete (v : Visit) (t : Tree) : Bool :=
  (v.declaration.checkContent (t.childElements v.element)).incomplete

/-- The elements of which one has to come next in an element that is validated. -/
def Visit.alternatives (v : Visit) (t : Tree) : List Declaration :=
  v.declaration.alternatives (t.childElements v.element)

/-- The violation by an element that is validated, if its content ends too early. -/
def Visit.incompleteness (v : Visit) (g : Grammar) (t : Tree) : Violation :=
  incompleteViolation g.uri.text v.element
    (v.declaration.checkContent (t.childElements v.element)).expected (v.alternatives t)

variable {g : Grammar} {d : Document} {v : Visit}

/-! ## Visits -/

lemma visited_of_mem (h : v ∈ g.visited d) : ∃ root decl, d.root? = some root ∧
    g.declarationOf? d.toTree root = some decl ∧ g.visited d = g.visits d.toTree root decl := by
  rw [visited] at h ⊢
  cases hroot : d.root? with
  | none =>
      rw [hroot] at h
      cases h
  | some root =>
      rw [hroot] at h
      dsimp only at h ⊢
      cases hdecl : g.declarationOf? d.toTree root with
      | none =>
          rw [hdecl] at h
          cases h
      | some decl => exact ⟨root, decl, rfl, hdecl, rfl⟩

lemma element?_of_mem_visited (h : v ∈ g.visited d) :
    d.element? v.element.id = some v.element := by
  obtain ⟨root, decl, hroot, -, heq⟩ := visited_of_mem h
  rw [heq] at h
  exact element?_of_mem_visitsFrom g _ ⟨root, decl⟩ (Tree.element?_root hroot) v h

lemma declarationOf?_of_mem_visited (hd : d.toTree.Nests) (h : v ∈ g.visited d) :
    g.declarationOf? d.toTree v.element = some v.declaration := by
  obtain ⟨root, decl, hroot, hdecl, heq⟩ := visited_of_mem h
  rw [heq] at h
  exact declarationOf?_of_mem_visits hd hroot hdecl h

/-- No element is validated twice. -/
lemma nodup_visited (hd : d.toTree.Nests) (hs : d.toTree.Shaped) :
    ((g.visited d).map (·.element.id)).Nodup := by
  rw [visited]
  cases hroot : d.root? with
  | none => exact .nil
  | some root =>
      dsimp only
      cases g.declarationOf? d.toTree root with
      | none => exact .nil
      | some decl =>
          refine List.pairwise_map.mpr ?_
          have hordered := visits_ordered (g := g) hd hs hroot decl
          refine (List.Pairwise.and_mem.mp hordered).imp ?_
          rintro a b ⟨ha, hb, hlt⟩ hid
          have helement : ∀ w ∈ g.visits d.toTree root decl,
              d.element? w.element.id = some w.element :=
            element?_of_mem_visitsFrom g _ ⟨root, decl⟩ (Tree.element?_root hroot)
          have hsame := (helement a ha).symm.trans (hid ▸ helement b hb)
          rw [Option.some.inj hsame] at hlt
          exact absurd hlt (Nat.lt_irrefl _)

/-! ## Reports of one element -/

/-- Content that ends too early is about elements. -/
lemma mem_structural_of_incomplete {p : ProblemCode} (h : incompleteProblems.contains p = true) :
    p ∈ ProblemCode.structural := by
  cases p <;> first | decide | exact absurd h (by decide)

lemma incompleteProblems_incompleteness (v : Visit) (g : Grammar) (t : Tree) :
    incompleteProblems.contains (v.incompleteness g t).problem = true := by
  unfold Visit.incompleteness incompleteViolation
  split <;> rfl

lemma incompleteness_span (v : Visit) (g : Grammar) (t : Tree) :
    (v.incompleteness g t).span = v.element.nameSpan :=
  incompleteViolation_span _ _ _ _

/-- Of all that is wrong with an element, incomplete content is at most one thing. -/
lemma filter_violations (v : Visit) (g : Grammar) (t : Tree) :
    (violations t g.uri.text v.declaration v.element).filter
        (fun w => incompleteProblems.contains w.problem) =
      if v.isIncomplete t then [v.incompleteness g t] else [] := by
  have hattributes : (attributeViolations v.declaration v.element).filter
      (fun w => incompleteProblems.contains w.problem) = [] := by
    refine List.filter_eq_nil_iff.mpr fun w hw hproblem => ?_
    exact not_structural_of_mem_attributeViolations hw (mem_structural_of_incomplete hproblem)
  have hunexpected : ∀ us : List UnexpectedChild, (us.filterMap fun u =>
      (t.element? u.node).map fun child => unexpectedViolation v.element child u.expected).filter
        (fun w => incompleteProblems.contains w.problem) = [] := by
    intro us
    refine List.filter_eq_nil_iff.mpr fun w hw hproblem => ?_
    obtain ⟨u, -, hu⟩ := List.mem_filterMap.mp hw
    obtain ⟨c, -, rfl⟩ := Option.map_eq_some_iff.mp hu
    exact absurd hproblem (by simp [unexpectedViolation, incompleteProblems])
  have hcheck : (v.declaration.checkContent (t.childElements v.element)).incomplete =
      v.isIncomplete t := rfl
  rw [violations, List.filter_append, hattributes, List.nil_append, childViolations, hcheck]
  split_ifs
  · rw [List.filter_append, hunexpected, List.nil_append]
    exact List.filter_cons_of_pos (incompleteProblems_incompleteness v g t)
  · exact hunexpected _

/-- Reports about some problems come from violations with these problems. -/
lemma filter_report (d : Document) (vs : List Violation) :
    (d.report vs).filter Diagnostic.isIncompleteness =
      d.report (vs.filter fun w => incompleteProblems.contains w.problem) := by
  rw [Document.report, Document.report, List.filter_filterMap, List.filterMap_filter]
  congr 1
  funext w
  cases hw : w.diagnostic? d with
  | none => simp
  | some x =>
      have hx : x.isIncompleteness = incompleteProblems.contains w.problem := by
        rw [Diagnostic.isIncompleteness, Document.problem?_of_diagnostic hw]
        rfl
      simp [Option.filter, hx]

/-- Whether a diagnostic is what an element that is validated is reported for if its content ends
too early. -/
def IsReport (g : Grammar) (d : Document) (v : Visit) (x : Diagnostic) : Prop :=
  (v.incompleteness g d.toTree).diagnostic? d = some x

/-- What an element is reported for if its content ends too early can be reported. -/
lemma exists_isReport (hs : d.toTree.Shaped) (hv : d.element? v.element.id = some v.element) :
    ∃ x, IsReport g d v x := by
  have hstop := hs.nameSpan_stop_le hv
  have hstart : v.element.nameSpan.start ≤ d.text.length := by
    simp only [ElementNode.nameSpan] at hstop ⊢
    exact Nat.le_trans (by omega) hstop
  obtain ⟨r, hr⟩ := d.exists_rangeAt hstart hstop
  rw [← incompleteness_span v g d.toTree] at hr
  exact ⟨.ofProblem r .error (v.incompleteness g d.toTree).problem
    (v.incompleteness g d.toTree).message (v.incompleteness g d.toTree).data, by
      rw [IsReport, Violation.diagnostic?, hr]⟩

/-- What is reported about incomplete content of one element. -/
lemma filter_diagnostics (hs : d.toTree.Shaped) (hv : d.element? v.element.id = some v.element) :
    ∃ x, IsReport g d v x ∧ (v.diagnostics g d).filter Diagnostic.isIncompleteness =
      if v.isIncomplete d.toTree then [x] else [] := by
  obtain ⟨x, hx⟩ := exists_isReport hs hv (g := g)
  refine ⟨x, hx, ?_⟩
  rw [Visit.diagnostics, filter_report, filter_violations]
  split_ifs
  · rw [IsReport] at hx
    simp [Document.report, hx]
  · rfl

lemma isReport_of_mem (hs : d.toTree.Shaped) (hv : d.element? v.element.id = some v.element)
    {x : Diagnostic} (hx : x ∈ v.diagnostics g d) (hincomplete : x.isIncompleteness = true) :
    IsReport g d v x := by
  obtain ⟨y, hy, hfilter⟩ := filter_diagnostics hs hv (g := g)
  have hfiltered := List.mem_filter.mpr ⟨hx, hincomplete⟩
  rw [hfilter] at hfiltered
  split_ifs at hfiltered
  · rw [List.mem_singleton.mp hfiltered]
    exact hy
  · cases hfiltered

/-! ## What a report tells -/

namespace IsReport

variable {x : Diagnostic} (h : IsReport g d v x)
include h

lemma problem? : x.problem? = some (v.incompleteness g d.toTree).problem :=
  Document.problem?_of_diagnostic h

/-- A report begins at its element. -/
lemma positionAt : d.positionAt v.element.span.start = .ok x.range.start ∧
    x.data = (v.incompleteness g d.toTree).data := by
  rw [IsReport, Violation.diagnostic?, incompleteness_span] at h
  split at h
  · rename_i r hr
    cases h
    exact ⟨(Document.rangeAt_eq_ok hr).1, rfl⟩
  · cases h

/-- The element of a report is found again. -/
lemma elementOf (hd : d.toTree.Nests) (hv : d.element? v.element.id = some v.element) :
    d.elementOf x = .ok (some v.element) :=
  Document.elementOf_eq_some hd hv h.positionAt.1

/-- A report of several alternatives names the element and the grammar, but no alternative. -/
lemma dataText?_several (hproblem : x.problem? = some .requiredElementsMissing) :
    x.dataText? "parentLocalName" = some v.element.element.localName ∧
      x.dataText? "grammarUri" = some g.uri.text ∧ x.dataText? "elementLocalName" = none ∧
      v.alternatives d.toTree ≠ [] := by
  have hdata := h.positionAt.2
  rw [h.problem?, Option.some.injEq] at hproblem
  cases halternatives : v.alternatives d.toTree with
  | nil =>
      rw [Visit.incompleteness, halternatives] at hproblem
      cases hproblem
  | cons first more =>
      cases more with
      | nil =>
          rw [Visit.incompleteness, halternatives] at hproblem
          cases hproblem
      | cons second more =>
          rw [Visit.incompleteness, halternatives] at hdata
          simp only [Diagnostic.dataText?, hdata]
          exact ⟨rfl, rfl, rfl, List.cons_ne_nil _ _⟩

/-- A report of a single alternative names it. -/
lemma dataText?_single (hproblem : x.problem? = some .requiredElementMissing) :
    ∃ only, v.alternatives d.toTree = [only] ∧
      x.dataText? "parentLocalName" = some v.element.element.localName ∧
      x.dataText? "elementLocalName" = some only.localName := by
  have hdata := h.positionAt.2
  rw [h.problem?, Option.some.injEq] at hproblem
  cases halternatives : v.alternatives d.toTree with
  | nil =>
      rw [Visit.incompleteness, halternatives] at hproblem
      cases hproblem
  | cons first more =>
      cases more with
      | nil =>
          rw [Visit.incompleteness, halternatives] at hdata
          refine ⟨first, rfl, ?_⟩
          simp only [Diagnostic.dataText?, hdata]
          exact ⟨rfl, rfl⟩
      | cons second more =>
          rw [Visit.incompleteness, halternatives] at hproblem
          cases hproblem

end IsReport

/-! ## All reports of a validation -/

lemma filter_findings (g : Grammar) (d : Document) :
    (g.findings d).filter Diagnostic.isIncompleteness =
      (g.visited d).flatMap fun v => (v.diagnostics g d).filter Diagnostic.isIncompleteness := by
  rw [findings, visited]
  cases d.root? with
  | none => rfl
  | some root =>
      dsimp only
      cases g.declarationOf? d.toTree root with
      | none =>
          dsimp only
          rw [filter_report]
          rfl
      | some decl => exact List.filter_flatMap

/-- What is found beyond a document element that is not declared comes from the elements that are
validated. -/
lemma exists_visited_of_problem {x : Diagnostic} (hx : x ∈ g.findings d)
    (hproblem : x.problem? ≠ some .elementUndeclared) :
    ∃ v ∈ g.visited d, x ∈ v.diagnostics g d := by
  rw [findings] at hx
  rw [visited]
  cases hroot : d.root? with
  | none =>
      rw [hroot] at hx
      cases hx
  | some root =>
      rw [hroot] at hx
      dsimp only at hx ⊢
      cases hdecl : g.declarationOf? d.toTree root with
      | none =>
          rw [hdecl] at hx
          obtain ⟨w, hw, hwx⟩ := List.mem_filterMap.mp hx
          rw [Document.problem?_of_diagnostic hwx, List.mem_singleton.mp hw] at hproblem
          exact absurd rfl hproblem
      | some decl =>
          rw [hdecl] at hx
          exact List.mem_flatMap.mp hx

/-- What is wrong with an element that is validated is found. -/
lemma mem_findings_of_visited (hv : v ∈ g.visited d) {x : Diagnostic} (hx : x ∈ v.diagnostics g d) :
    x ∈ g.findings d := by
  obtain ⟨root, decl, hroot, hdecl, heq⟩ := visited_of_mem hv
  rw [heq] at hv
  rw [findings, hroot]
  dsimp only
  rw [hdecl]
  exact List.mem_flatMap_of_mem hv hx

/-- Each element whose content ends too early is reported, and no other is. -/
lemma reports_of_visited (g : Grammar) (hs : d.toTree.Shaped) :
    List.Forall₂ (IsReport g d) ((g.visited d).filter fun v => v.isIncomplete d.toTree)
      ((g.findings d).filter Diagnostic.isIncompleteness) := by
  rw [filter_findings]
  have hvisited : ∀ v ∈ g.visited d, d.element? v.element.id = some v.element :=
    fun v hv => element?_of_mem_visited hv
  generalize g.visited d = visits at hvisited ⊢
  induction visits with
  | nil => exact .nil
  | cons v visits ih =>
      have hmore := ih fun w hw => hvisited w (List.mem_cons_of_mem v hw)
      obtain ⟨x, hx, hfilter⟩ := filter_diagnostics hs (hvisited v (List.mem_cons_self ..))
      rw [List.flatMap_cons, hfilter, List.filter_cons]
      split_ifs
      · exact .cons hx hmore
      · exact hmore

/-- What a validation reports about incomplete content comes from an element that is validated. -/
lemma exists_visited_of_mem_findings (hs : d.toTree.Shaped) {x : Diagnostic}
    (hx : x ∈ g.findings d) (hincomplete : x.isIncompleteness = true) :
    ∃ v ∈ g.visited d, x ∈ v.diagnostics g d ∧ IsReport g d v x := by
  have hfiltered := List.mem_filter.mpr ⟨hx, hincomplete⟩
  rw [filter_findings] at hfiltered
  obtain ⟨v, hv, hxv⟩ := List.mem_flatMap.mp hfiltered
  have hmem := (List.mem_filter.mp hxv).1
  exact ⟨v, hv, hmem, isReport_of_mem hs (element?_of_mem_visited hv) hmem hincomplete⟩

/-- Of two lists that go together, so do the numbers of those that fulfill what goes together. -/
lemma countP_eq_of_forall₂ {α β : Type} {R : α → β → Prop} {p : α → Bool} {q : β → Bool}
    {as : List α} {bs : List β} (h : List.Forall₂ R as bs)
    (hpq : ∀ a ∈ as, ∀ b, R a b → p a = q b) : as.countP p = bs.countP q := by
  induction h with
  | nil => rfl
  | cons hab hmore ih =>
      rw [List.countP_cons, List.countP_cons, hpq _ (List.mem_cons_self ..) _ hab,
        ih fun a ha => hpq a (List.mem_cons_of_mem _ ha)]

/-- **An element is reported once if its content ends too early, and otherwise not at all.** -/
theorem countP_findings (hd : d.toTree.Nests) (hs : d.toTree.Shaped) (hv : v ∈ g.visited d) :
    (g.findings d).countP (fun x => d.isReportedOn v.element x && x.isIncompleteness) =
      if v.isIncomplete d.toTree then 1 else 0 := by
  have hreports := reports_of_visited g hs
  have hsame : ∀ w ∈ (g.visited d).filter (·.isIncomplete d.toTree), ∀ x, IsReport g d w x →
      (w.element.id == v.element.id) = d.isReportedOn v.element x := by
    intro w hw x hx
    have hwe := element?_of_mem_visited (List.mem_filter.mp hw).1
    rw [Document.isReportedOn, hx.elementOf hd hwe, beq_eq_decide, decide_eq_decide,
      Except.ok.injEq, Option.some.injEq]
    refine ⟨fun hid => ?_, fun he => he ▸ rfl⟩
    have hve := element?_of_mem_visited hv
    rw [← hid, hwe, Option.some.injEq] at hve
    exact hve
  -- reports are counted as visits, and of these only one has the number of the element
  have hnodup : (((g.visited d).filter (·.isIncomplete d.toTree)).map (·.element.id)).Nodup :=
    (nodup_visited hd hs).sublist (List.filter_sublist.map _)
  have hmem : v.element.id ∈ ((g.visited d).filter (·.isIncomplete d.toTree)).map (·.element.id) ↔
      v.isIncomplete d.toTree = true := by
    refine ⟨fun hid => ?_, fun hcontent => ?_⟩
    · obtain ⟨w, hw, hid⟩ := List.mem_map.mp hid
      obtain ⟨hw, hcontent⟩ := List.mem_filter.mp hw
      rw [← List.inj_on_of_nodup_map (nodup_visited hd hs) hw hv hid]
      exact hcontent
    · exact List.mem_map_of_mem (List.mem_filter.mpr ⟨hv, hcontent⟩)
  have hcount := hnodup.count (a := v.element.id)
  rw [List.count_eq_countP, List.countP_map] at hcount
  simp only [hmem] at hcount
  rw [← List.countP_filter, ← countP_eq_of_forall₂ hreports hsame]
  exact hcount

end Grammar

/-! ## Reports among diagnostics -/

namespace Document

variable {d : Document} {settings : ValidationSettings} {gs : List Grammar} {ds : List Diagnostic}
  {x : Diagnostic}

lemma problem?_ofProblem (range : Range) (severity : Severity) (problem : ProblemCode)
    (message : String) (data : Option Json) :
    (Diagnostic.ofProblem range severity problem message data).problem? = some problem :=
  ProblemCode.named?_name problem

lemma not_isIncompleteness_of_mem_fault (hx : x ∈ d.faultDiagnostic?.toList) :
    x.isIncompleteness = false := by
  rw [Option.mem_toList, faultDiagnostic?] at hx
  split at hx
  · obtain ⟨p, -, rfl⟩ := Option.map_eq_some_iff.mp hx
    rw [Diagnostic.isIncompleteness, problem?_ofProblem]
    rfl
  · cases hx

lemma not_isIncompleteness_of_mem_noGrammar {choice : NoGrammarSeverity}
    (h : d.noGrammarDiagnostics choice = .ok ds) (hx : x ∈ ds) : x.isIncompleteness = false := by
  rw [noGrammarDiagnostics] at h
  split at h
  · obtain ⟨r, -, h⟩ := exists_of_bind_ok h
    cases h
    rw [List.mem_singleton.mp hx, Diagnostic.isIncompleteness, problem?_ofProblem]
    rfl
  · cases h
    cases hx

/-- Reports about incomplete content among the diagnostics of a document come from validations. -/
lemma exists_findings_of_mem (h : d.diagnosticsWith settings gs = .ok ds) (hx : x ∈ ds)
    (hincomplete : x.isIncompleteness = true) : ∃ g ∈ gs, x ∈ g.findings d := by
  rw [diagnosticsWith] at h
  split_ifs at h
  · cases h
    cases hx
  · cases hnone : d.noGrammarDiagnostics settings.noGrammar with
    | error e =>
        rw [hnone] at h
        cases h
    | ok found =>
        rw [hnone] at h
        cases h
        rcases List.mem_append.mp hx with hx | hx
        · rw [not_isIncompleteness_of_mem_fault hx] at hincomplete
          cases hincomplete
        · rw [not_isIncompleteness_of_mem_noGrammar hnone hx] at hincomplete
          cases hincomplete
  · cases h
    rcases List.mem_append.mp hx with hx | hx
    · rw [not_isIncompleteness_of_mem_fault hx] at hincomplete
      cases hincomplete
    · exact List.mem_flatMap.mp hx

/-- Each report among the diagnostics of a document is about an element that some grammar visits. -/
theorem exists_isReport_of_mem (hs : d.toTree.Shaped) (h : d.diagnosticsWith settings gs = .ok ds)
    (hx : x ∈ ds) (hincomplete : x.isIncompleteness = true) :
    ∃ g ∈ gs, ∃ v ∈ g.visited d, x ∈ v.diagnostics g d ∧ g.IsReport d v x := by
  obtain ⟨g, hg, hfound⟩ := exists_findings_of_mem h hx hincomplete
  exact ⟨g, hg, Grammar.exists_visited_of_mem_findings hs hfound hincomplete⟩

end Document

end XmlAdvisor
