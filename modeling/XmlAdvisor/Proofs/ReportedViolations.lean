import XmlAdvisor.Proofs.Cancellations
import XmlAdvisor.Proofs.FaultOffsets
import XmlAdvisor.Proofs.IncompleteReports
import XmlAdvisor.Proofs.SpanTexts

/-!
# Nothing is lost on the way to the diagnostics

A violation whose span is not in the text would not be reported, and a document element without a
place would make the request for diagnostics fail.  Neither happens, whatever the text is.

**Spans** come from three sources, and all of them are in the text: names in start tags, attributes
as they are written, and the offset at which a fault is recorded, which is never behind the fault.

**Reports.**  So each violation has its diagnostic, in order, and a request for diagnostics fails
only if it is given up.

* `Grammar.violationsIn` — what a document violates.
* `placed_of_mem_violations` — the violations by an element have ranges.
* `Document.Told` — whether diagnostics tell all that there is to tell.
* **`Document.diagnostics_complete`** — diagnostics are neither lost nor turned into failures.
-/

namespace XmlAdvisor

/-- Whether a span has a range in a document. -/
def Document.Places (d : Document) (span : Span) : Prop :=
  ∃ r, d.rangeAt span = .ok r

/-- Whether a diagnostic reports a violation where it is in a document. -/
def Violation.ReportedAs (v : Violation) (d : Document) (x : Diagnostic) : Prop :=
  ∃ r, d.rangeAt v.span = .ok r ∧ x = .ofProblem r .error v.problem v.message v.data

/-- What a document violates: what is wrong with the elements that are validated, or its document
element is not declared. -/
def Grammar.violationsIn (g : Grammar) (d : Document) : List Violation :=
  match d.root? with
  | none => []
  | some root =>
    match g.declarationOf? d.toTree root with
    | none => [undeclaredViolation g.uri.text root]
    | some decl => (g.visits d.toTree root decl).flatMap fun v =>
        violations d.toTree g.uri.text v.declaration v.element

/-- Whether diagnostics tell all that there is to tell of a document to which certain grammars
apply. -/
inductive Document.Told (d : Document) (settings : ValidationSettings) (gs : List Grammar) :
    List Diagnostic → Prop
  | disabled (off : settings.enabled = false) : Told d settings gs []
  | unbound {found : List Diagnostic} (on : settings.enabled = true) (empty : gs = [])
      (hint : d.noGrammarDiagnostics settings.noGrammar = .ok found) :
      Told d settings gs (d.faultDiagnostic?.toList ++ found)
  | validated {found : List Diagnostic} (on : settings.enabled = true) (bound : gs ≠ [])
      (each : List.Forall₂ (fun v x => v.ReportedAs d x) (gs.flatMap (·.violationsIn d)) found) :
      Told d settings gs (d.faultDiagnostic?.toList ++ found)

/-- Whether a request gives a value unless it is given up, and another request, which is not given
up, gives it in any case. -/
def GivesUnlessCancelled {α : Type} (m calm : Request α) (s : GrammarStore) (a : α) : Prop :=
  (calm.runFrom ⟨s, .never⟩).1 = .ok a ∧
    ∀ c : Cancellation, (m.runFrom ⟨s, c⟩).1 = .error .cancelled ∨ (m.runFrom ⟨s, c⟩).1 = .ok a

lemma AllOrNothing.gives {α : Type} {m calm : Request α} {s : GrammarStore} {a : α}
    (h : AllOrNothing m calm) (hcalm : (calm.runFrom ⟨s, .never⟩).1 = .ok a) :
    GivesUnlessCancelled m calm s a := by
  refine ⟨hcalm, fun c => ?_⟩
  obtain ⟨v, s', -, hrun, hany⟩ := h s
  rw [hrun] at hcalm
  exact (hany c).imp_right fun ⟨c', hc⟩ => by rw [hc, hcalm]

/-! ## Spans -/

/-- An attribute is in the text, with its name and its value. -/
lemma Attribute.Spelled.inside {text : List Char} {a : Attribute} (h : a.Spelled text) :
    (a.nameSpan.start ≤ text.length ∧ a.nameSpan.stop ≤ text.length) ∧
      a.valueSpan.start ≤ text.length ∧ a.valueSpan.stop ≤ text.length := by
  obtain ⟨w, hw, hstands, hstop⟩ := h.name
  have hname := covers_of_stands hstands (le_length_of_stands hstands hw.ne_nil)
  rw [← hstop] at hname
  exact ⟨hname.inside, h.value.inside⟩

section Placed

variable {d : Document} {text : List Char} (hd : d.toTree = Tree.parse text) {e : ElementNode}
include hd

/-- What is in the text has a range. -/
lemma places_of_le {span : Span} (h : span.start ≤ text.length ∧ span.stop ≤ text.length) :
    d.Places span := by
  have htext : d.text = text := by rw [hd]; rfl
  exact d.exists_rangeAt (htext ▸ h.1) (htext ▸ h.2)

lemma places_nameSpan (he : d.element? e.id = some e) : d.Places e.nameSpan := by
  rw [hd] at he
  have hstop := (Tree.parse_shaped text).nameSpan_stop_le he
  have hle : e.nameSpan.start ≤ e.nameSpan.stop := by
    simp only [ElementNode.nameSpan]
    omega
  exact places_of_le hd ⟨Nat.le_trans hle hstop, hstop⟩

/-- The violations by an element have ranges: they are at names in start tags, or at attributes. -/
lemma placed_of_mem_violations (he : d.element? e.id = some e) {uri : String} {decl : Declaration}
    {v : Violation} (hv : v ∈ violations d.toTree uri decl e) : d.Places v.span := by
  rcases List.mem_append.mp hv with hv | hv
  · rcases List.mem_append.mp hv with hv | hv
    · obtain ⟨a, -, hmissing⟩ := List.mem_filterMap.mp hv
      split_ifs at hmissing
      cases hmissing
      exact places_nameSpan hd he
    · obtain ⟨a, ha, hviolation⟩ := List.mem_filterMap.mp hv
      rw [hd] at he
      have hinside := ((Tree.spelled_of_element? he).2 a (List.mem_filter.mp ha).1).inside
      rw [attributeViolation?] at hviolation
      split at hviolation
      · split_ifs at hviolation
        cases hviolation
        exact places_of_le hd hinside.1
      · split_ifs at hviolation
        cases hviolation
        exact places_of_le hd hinside.2
  · obtain ⟨-, c, hc, hspan⟩ := structural_of_mem_childViolations he hv
    rw [hspan]
    exact places_nameSpan hd hc

lemma placed_of_mem_violationsIn {g : Grammar} {v : Violation} (hv : v ∈ g.violationsIn d) :
    d.Places v.span := by
  rw [Grammar.violationsIn] at hv
  split at hv
  · cases hv
  · rename_i root hroot
    have helement := Tree.element?_root hroot
    split at hv
    · rw [List.mem_singleton.mp hv]
      exact places_nameSpan hd helement
    · rename_i decl hdecl
      obtain ⟨w, hw, hv⟩ := List.mem_flatMap.mp hv
      exact placed_of_mem_violations hd
        (g.element?_of_mem_visitsFrom _ ⟨root, decl⟩ helement w hw) hv

/-- A fault has a position, so it has a diagnostic. -/
lemma exists_faultDiagnostic {f : Fault} (hf : d.fault = some f) :
    ∃ o p, d.faultOffset? = some o ∧ d.positionAt o = .ok p ∧
      d.faultDiagnostic? =
        some (.ofProblem ⟨p, p⟩ .error .xmlSyntaxError (f.message d.text) none) := by
  have hoffset : d.faultOffset? = some (offsetReadBack d.text f.offset) := by
    rw [Tree.faultOffset?_eq, hf]
    rfl
  have htext : d.text = text := by rw [hd]; rfl
  have hinside : f.offset ≤ d.text.length := by
    rw [htext]
    exact Tree.fault_le_length (hd ▸ hf)
  obtain ⟨p, hp⟩ := d.exists_positionAt (Nat.le_trans (offsetReadBack_eq_iff hinside).1 hinside)
  refine ⟨_, p, hoffset, hp, ?_⟩
  rw [Document.faultDiagnostic?, hoffset, Tree.faultMessage?, hf]
  dsimp only [Option.map_some]
  rw [hp]
  rfl

end Placed

/-! ## Reports -/

/-- Violations that have ranges are all reported, in order. -/
lemma forall₂_report {d : Document} {vs : List Violation} (h : ∀ v ∈ vs, d.Places v.span) :
    List.Forall₂ (fun v x => v.ReportedAs d x) vs (d.report vs) := by
  induction vs with
  | nil => exact .nil
  | cons v vs ih =>
      obtain ⟨r, hr⟩ := h v (List.mem_cons_self ..)
      have hx : v.diagnostic? d = some (.ofProblem r .error v.problem v.message v.data) := by
        rw [Violation.diagnostic?, hr]
      have hreport : d.report (v :: vs) = _ :: d.report vs := List.filterMap_cons_some hx
      rw [hreport]
      exact .cons ⟨r, hr, rfl⟩ (ih fun w hw => h w (List.mem_cons_of_mem v hw))

lemma Grammar.findings_eq (g : Grammar) (d : Document) :
    g.findings d = d.report (g.violationsIn d) := by
  rw [findings, violationsIn]
  cases d.root? with
  | none => rfl
  | some root =>
      dsimp only
      cases g.declarationOf? d.toTree root with
      | none => rfl
      | some decl => exact List.filterMap_flatMap.symm

lemma forall₂_findings {d : Document} {text : List Char} (hd : d.toTree = Tree.parse text)
    (gs : List Grammar) : List.Forall₂ (fun v x => v.ReportedAs d x)
      (gs.flatMap (·.violationsIn d)) (gs.flatMap (·.findings d)) := by
  have hfindings : gs.flatMap (·.findings d) = d.report (gs.flatMap (·.violationsIn d)) := by
    rw [Document.report, List.filterMap_flatMap]
    exact List.flatMap_congr fun g _ => g.findings_eq d
  rw [hfindings]
  refine forall₂_report fun v hv => ?_
  obtain ⟨g, -, hv⟩ := List.mem_flatMap.mp hv
  exact placed_of_mem_violationsIn hd hv

/-- Without a grammar the diagnostics do not fail. -/
lemma exists_noGrammarDiagnostics {d : Document} {text : List Char}
    (hd : d.toTree = Tree.parse text) (choice : NoGrammarSeverity) :
    ∃ found, d.noGrammarDiagnostics choice = .ok found := by
  rw [Document.noGrammarDiagnostics]
  split
  · rename_i severity root _ hroot
    obtain ⟨r, hr⟩ := places_nameSpan hd (Tree.element?_root hroot)
    exact ⟨_, by rw [hr]; rfl⟩
  · exact ⟨[], rfl⟩

/-- The diagnostics of a document do not fail, and tell all. -/
lemma exists_told {d : Document} {text : List Char} (hd : d.toTree = Tree.parse text)
    (settings : ValidationSettings) (gs : List Grammar) :
    ∃ xs, d.diagnosticsWith settings gs = .ok xs ∧ d.Told settings gs xs := by
  rw [Document.diagnosticsWith]
  cases hon : settings.enabled with
  | false => exact ⟨[], rfl, .disabled hon⟩
  | true =>
      cases gs with
      | nil =>
          obtain ⟨found, hfound⟩ := exists_noGrammarDiagnostics hd settings.noGrammar
          exact ⟨_, by simp [hfound, Except.map], .unbound hon rfl hfound⟩
      | cons g gs =>
          exact ⟨_, rfl, .validated hon (List.cons_ne_nil g gs) (forall₂_findings hd (g :: gs))⟩

namespace Document

/-- **Diagnostics are neither lost nor turned into failures.**  In every document a fault has a
position and a diagnostic there.  The name of the document element has a range, and so has what an
element does against any declaration; a child that is found unexpected stands in the tree.  Unless
it is given up, a validation gives one diagnostic for each violation, and a request for diagnostics
gives all that there is to tell. -/
theorem diagnostics_complete (url : Url) (version : Int) (unit : ColumnUnit) (text : List Char) :
    let d := Document.parse url version unit text
    (∀ f, d.fault = some f → ∃ o p, d.faultOffset? = some o ∧ d.positionAt o = .ok p ∧
      d.faultDiagnostic? =
        some (.ofProblem ⟨p, p⟩ .error .xmlSyntaxError (f.message text) none)) ∧
    (∀ root, d.root? = some root → d.Places root.nameSpan) ∧
    (∀ e ∈ d.elements, ∀ (uri : String) (decl : Declaration),
      (∀ u ∈ (decl.checkContent (d.childElements e)).unexpected, ∃ c, d.element? u.node = some c) ∧
      ∀ v ∈ violations d.toTree uri decl e, d.Places v.span) ∧
    (∀ (g : Grammar) (s : GrammarStore), ∃ xs,
      GivesUnlessCancelled (g.validate d) (g.validate d) s xs ∧
      List.Forall₂ (fun v x => v.ReportedAs d x) (g.violationsIn d) xs) ∧
    ∀ (b : Bindings) (settings : ValidationSettings) (s : GrammarStore), ∃ xs,
      GivesUnlessCancelled (b.diagnostics settings d) (b.quiet.diagnostics settings d) s xs ∧
      d.Told settings (s.loadAll b.quiet.supply (d.references b.associations)).1 xs := by
  intro d
  have hd : d.toTree = Tree.parse text := rfl
  refine ⟨fun f hf => exists_faultDiagnostic hd hf, fun root hroot => ?_,
    fun e he uri decl => ⟨fun u hu => ?_, fun v hv => ?_⟩, fun g s => ?_, fun b settings s => ?_⟩
  · exact places_nameSpan hd (Tree.element?_root hroot)
  · obtain ⟨c, hc, hid⟩ := decl.mem_unexpected _ u hu
    exact ⟨c, hid ▸ Tree.element?_of_mem_childElements hc⟩
  · exact placed_of_mem_violations hd (Tree.mem_elements.mp he) hv
  · refine ⟨g.findings d, (allOrNothing_validate d g).gives ?_, ?_⟩
    · rw [(reads_validate g).runFrom_eq s]
    · have hfound := forall₂_findings hd [g]
      rwa [List.flatMap_singleton, List.flatMap_singleton] at hfound
  · obtain ⟨xs, hvalue, htold⟩ :=
      exists_told hd settings (s.loadAll b.quiet.supply (d.references b.associations)).1
    refine ⟨xs, (allOrNothing_diagnostics b d settings).gives ?_, htold⟩
    rw [runFrom_diagnostics rfl]
    exact hvalue

/-- Of a text that breaks off and has no grammar, the diagnostics tell both. -/
theorem diagnostics_complete_broken :
    let d := Document.parse default 1 .utf8 brokenText
    let b : Bindings := ⟨.ofTexts [], []⟩
    ∃ p r, d.rangeAt ⟨0, 2⟩ = .ok r ∧
      GivesUnlessCancelled (b.diagnostics {} d) (b.quiet.diagnostics {} d) {}
        [.ofProblem ⟨p, p⟩ .error .xmlSyntaxError
            "invalid attribute at 3:4 cause expected ''' not '<' at 3:8" none,
          .ofProblem r .hint .noGrammar noGrammarMessage none] := by
  intro d b
  have hfault : d.fault = some (.invalid .attribute 17 (.expectedChars ['\''] '<' 21)) := by
    decide +kernel
  obtain ⟨hfaults, hroots, -, -, hgives⟩ := diagnostics_complete default 1 .utf8 brokenText
  obtain ⟨-, p, -, -, hp⟩ := hfaults _ hfault
  have hroot : d.root? =
      some ⟨0, none, ⟨0, 22⟩, ⟨⟨none, "a"⟩, none, [], [1, 2], some 2, none, false⟩⟩ := by
    decide +kernel
  have hmessage : (Fault.invalid .attribute 17 (.expectedChars ['\''] '<' 21)).message brokenText =
      "invalid attribute at 3:4 cause expected ''' not '<' at 3:8" := by decide +kernel
  obtain ⟨r, hr⟩ := hroots _ hroot
  obtain ⟨xs, hxs, htold⟩ := hgives b {} {}
  refine ⟨p, r, hr, ?_⟩
  cases htold with
  | disabled off => cases off
  | @unbound found on empty hint =>
      have hfound : d.noGrammarDiagnostics .hint =
          .ok [.ofProblem r .hint .noGrammar noGrammarMessage none] := by
        rw [noGrammarDiagnostics, hroot]
        dsimp only [NoGrammarSeverity.severity?]
        rw [hr]
        rfl
      rw [hmessage] at hp
      rw [hp, Except.ok.inj (hint.symm.trans hfound)] at hxs
      exact hxs
  | validated on bound each => exact absurd rfl bound

end Document

end XmlAdvisor
