import XmlAdvisor.Proofs.ActionListing
import XmlAdvisor.Proofs.AttributeValues
import XmlAdvisor.Proofs.ReplacedValues
import XmlAdvisor.Proofs.ReportedViolations
import XmlAdvisor.Proofs.TreeLanguage

/-!
# Values that are offered and values that are reported

Completion and validation look for the declaration of an attribute each on its own.  Completion asks
for the name as it is written, and validation also for the local name.

* `AttributeDeclaration.Refuses` — a value is listed by no declaration that lists any.
* `Document.ReportsValue` — a diagnostic reports the value of an attribute.
* `Grammar.reportsValue_iff` — the values that are reported are those that are refused.
* `reads_completions_value` — what is offered in the value of an attribute.
* `Declaration.offersTell_iff` — when what is offered tells what is reported.

The main result, `completions_tell_reports`, puts a service's two answers about one attribute side
by side, and follows a value that is offered into the text.
-/

namespace XmlAdvisor

/-! ## Values that are reported -/

/-- Whether a declaration lists values and a value is none of them; white space around it does not
count. -/
def AttributeDeclaration.Refuses (b : AttributeDeclaration) (value : String) : Prop :=
  b.values ≠ [] ∧ trimmed value ∉ b.values

/-- Whether a diagnostic is about the value of an attribute. -/
def Document.ReportsValue (d : Document) (a : Attribute) (x : Diagnostic) : Prop :=
  x.problem? = some .attributeValueInvalid ∧ d.rangeAt a.valueSpan = .ok x.range

section Reports

variable {decl : Declaration} {e : ElementNode} {a : Attribute} {w : Violation}

lemma attributeViolation?_invalid (h : attributeViolation? decl e a = some w)
    (hproblem : w.problem = .attributeValueInvalid) :
    w.span = a.valueSpan ∧ ∃ b, decl.attributeFor? a = some b ∧ b.Refuses a.value := by
  rw [attributeViolation?] at h
  split at h
  · split_ifs at h
    cases h
    cases hproblem
  · rename_i b hb
    split_ifs at h with hlisted
    cases h
    rw [Bool.or_eq_true, List.isEmpty_iff, List.contains_iff_mem, not_or] at hlisted
    exact ⟨rfl, b, hb, hlisted⟩

lemma exists_invalid_of_refuses {b : AttributeDeclaration} (hb : decl.attributeFor? a = some b)
    (h : b.Refuses a.value) : ∃ w, attributeViolation? decl e a = some w ∧
      w.problem = .attributeValueInvalid ∧ w.span = a.valueSpan := by
  have hlisted : ¬ (b.values.isEmpty || b.values.contains (trimmed a.value)) = true := by
    rw [Bool.or_eq_true, List.isEmpty_iff, List.contains_iff_mem, not_or]
    exact h
  rw [attributeViolation?, hb]
  dsimp only
  rw [if_neg hlisted]
  exact ⟨_, rfl, rfl, rfl⟩

/-- A violation by a value is one by an attribute that is checked. -/
lemma exists_attribute_of_invalid {t : Tree} {uri : String} (he : t.element? e.id = some e)
    (hw : w ∈ violations t uri decl e) (hproblem : w.problem = .attributeValueInvalid) :
    ∃ a ∈ e.element.attributes, a.isChecked = true ∧ attributeViolation? decl e a = some w := by
  rcases List.mem_append.mp hw with hw | hw
  · rcases List.mem_append.mp hw with hw | hw
    · obtain ⟨b, -, hmissing⟩ := List.mem_filterMap.mp hw
      split_ifs at hmissing
      cases hmissing
      cases hproblem
    · obtain ⟨a, ha, hviolation⟩ := List.mem_filterMap.mp hw
      obtain ⟨hmem, hchecked⟩ := List.mem_filter.mp ha
      exact ⟨a, hmem, hchecked, hviolation⟩
  · have hstructural := (structural_of_mem_childViolations he hw).1
    rw [hproblem] at hstructural
    exact absurd hstructural (by simp [ProblemCode.structural])

variable {d : Document} {text : List Char} {g : Grammar} {v : Grammar.Visit}

/-- A value that is reported is refused by the declaration that its attribute goes by. -/
lemma Grammar.exists_visit_of_reportsValue (hd : d.toTree = Tree.parse text)
    (he : d.element? e.id = some e) (ha : a ∈ e.element.attributes) {x : Diagnostic}
    (hx : x ∈ g.findings d) (hreports : d.ReportsValue a x) :
    ∃ v ∈ g.visited d, v.element = e ∧ ∃ b, v.declaration.attributeFor? a = some b ∧
      b.Refuses a.value := by
  obtain ⟨hproblem, hrange⟩ := hreports
  have hother : x.problem? ≠ some .elementUndeclared := by
    rw [hproblem]
    simp
  obtain ⟨v, hv, hxv⟩ := exists_visited_of_problem hx hother
  obtain ⟨w, hw, hdiagnostic⟩ := List.mem_filterMap.mp hxv
  rw [Document.problem?_of_diagnostic hdiagnostic, Option.some.injEq] at hproblem
  have helement := element?_of_mem_visited hv
  obtain ⟨a', ha', -, hviolation⟩ := exists_attribute_of_invalid helement hw hproblem
  obtain ⟨hspan, hrefused⟩ := attributeViolation?_invalid hviolation hproblem
  -- values at one place are of one attribute
  have hsame : a'.valueSpan = a.valueSpan := by
    rw [← hspan]
    have hplace : d.rangeAt w.span = .ok x.range := by
      rw [Violation.diagnostic?] at hdiagnostic
      split at hdiagnostic
      · rename_i r hr
        cases hdiagnostic
        exact hr
      · cases hdiagnostic
    exact Document.eq_of_rangeAt hplace hrange
  have hparsed {u : ElementNode} (h : d.element? u.id = some u) : u ∈ (Tree.parse text).elements :=
    hd ▸ Tree.mem_elements.mpr h
  have hin : a.HasInValue a.valueSpan.start :=
    ⟨Nat.le_refl _, (Tree.values_apart (hparsed he)).1 a ha⟩
  have hin' : a'.HasInValue a.valueSpan.start := by
    rw [Attribute.HasInValue, hsame]
    exact hin
  obtain ⟨heq, rfl⟩ := Tree.eq_of_hasInValue (hparsed he) (hparsed helement) ha ha' hin hin'
  exact ⟨v, hv, heq, hrefused⟩

/-- The value of an attribute that is checked is reported exactly if the declaration that the
attribute goes by refuses it. -/
lemma Grammar.reportsValue_iff (hd : d.toTree = Tree.parse text) (hv : v ∈ g.visited d)
    (ha : a ∈ v.element.element.attributes) (hchecked : a.isChecked = true) :
    (∃ x ∈ g.findings d, d.ReportsValue a x) ↔
      ∃ b, v.declaration.attributeFor? a = some b ∧ b.Refuses a.value := by
  have helement := element?_of_mem_visited hv
  constructor
  · rintro ⟨x, hx, hreports⟩
    obtain ⟨v', hv', heq, hrefused⟩ := exists_visit_of_reportsValue hd helement ha hx hreports
    have hnests : d.toTree.Nests := hd ▸ Tree.parse_nests text
    have hdecl := declarationOf?_of_mem_visited hnests hv
    rw [← heq, declarationOf?_of_mem_visited hnests hv', Option.some.injEq] at hdecl
    rw [← hdecl]
    exact hrefused
  · rintro ⟨b, hb, hrefuses⟩
    obtain ⟨w, hw, hproblem, hspan⟩ := exists_invalid_of_refuses (e := v.element) hb hrefuses
    have hparsed : (Tree.parse text).element? v.element.id = some v.element := hd ▸ helement
    obtain ⟨r, hr⟩ := places_of_le hd ((Tree.spelled_of_element? hparsed).2 a ha).inside.2
    have hmem : w ∈ violations d.toTree g.uri.text v.declaration v.element :=
      List.mem_append_left _ (List.mem_append_right _
        (List.mem_filterMap.mpr ⟨a, List.mem_filter.mpr ⟨ha, hchecked⟩, hw⟩))
    have hdiagnostic : w.diagnostic? d = some (.ofProblem r .error w.problem w.message w.data) := by
      rw [Violation.diagnostic?, hspan, hr]
    refine ⟨_, mem_findings_of_visited hv (List.mem_filterMap.mpr ⟨w, hmem, hdiagnostic⟩), ?_, hr⟩
    rw [Document.problem?_of_diagnostic hdiagnostic, hproblem]

end Reports

/-! ## Values that are offered -/

/-- The values that are listed for an attribute under its name as it is written. -/
def Declaration.valuesAt (decl : Declaration) (name : String) : List String :=
  match decl.attribute? name with
  | some b => b.values
  | none => []

/-- Of items for values the labels are the values. -/
lemma mem_labels_values {values : List String} {label : String} :
    label ∈ (distinctBy CompletionItem.label (values.map valueCompletion)).map
    CompletionItem.label ↔
      label ∈ values := by
  constructor
  · intro h
    obtain ⟨item, hitem, rfl⟩ := List.mem_map.mp h
    obtain ⟨value, hvalue, rfl⟩ := List.mem_map.mp (mem_of_mem_distinctBy hitem)
    exact hvalue
  · intro h
    have hitem : valueCompletion label ∈ values.map valueCompletion := List.mem_map_of_mem h
    obtain ⟨item, hitem, hlabel⟩ :
        ∃ item ∈ distinctBy CompletionItem.label (values.map valueCompletion),
        item.label = label := exists_mem_distinctBy hitem
    exact List.mem_map.mpr ⟨item, hitem, hlabel⟩

section Offers

variable {b : Bindings} {d : Document} {g : Grammar} {v : Grammar.Visit} {a : Attribute}
  {p : Position} {offset : Nat}

/-- **What is offered in the value of an attribute** are the values that are listed under its
name. -/
lemma reads_completions_value (settings : Settings) {text : List Char}
    (hd : d.toTree = Tree.parse text)
    (hquiet : b.supply.interruptedAt = none) (hv : v ∈ g.visited d)
    (ha : a ∈ v.element.element.attributes) (hp : d.offsetAt p = .ok offset)
      (hin : a.HasInValue offset) :
    Reads (b.Offers d [g]) (b.completions settings d p) (.ok (distinctBy CompletionItem.label
      ((v.declaration.valuesAt a.name).map valueCompletion))) := by
  have hnests : d.toTree.Nests := hd ▸ Tree.parse_nests text
  have helement : v.element ∈ (Tree.parse text).elements :=
    hd ▸ Tree.mem_elements.mpr (Grammar.element?_of_mem_visited hv)
  have htag := Tree.hasInTag_of_hasInValue helement ha hin
  have hsite : d.siteAt? offset = some (.attributeValue v.element a.name) := by
    rw [hd]
    exact Tree.siteAt?_eq_of_hasInTag helement htag (.value htag ha hin)
  have hvalues (form : CompletionForm) :
      g.completionsAt d.toTree form (.attributeValue v.element a.name) =
        (v.declaration.valuesAt a.name).map valueCompletion := by
    rw [Grammar.completionsAt, Grammar.declarationOf?_of_mem_visited hnests hv, Option.bind_some,
      Declaration.valuesAt]
    cases v.declaration.attribute? a.name <;> rfl
  rw [Bindings.completions]
  refine .andThen (.ofPlace hp) ?_
  rw [hsite]
  refine .andThen (reads_applicable hquiet hnests [g]) (.andThen (.flatMapM fun _ _ =>
    .andThen .check (.pure _)) ?_)
  rw [List.flatMap_singleton, hvalues]
  exact .pure _

/-- What is found by a validation against a grammar that is the only one. -/
lemma reads_validate_sole (hquiet : b.supply.interruptedAt = none) (hd : d.toTree.Nests) :
    Reads (b.Offers d [g]) (b.validate d) (.ok (g.findings d)) := by
  refine .andThen (reads_applicable hquiet hd [g]) ?_
  rw [← List.flatMap_singleton (f := fun g : Grammar => g.findings d) g]
  exact .flatMapM fun g _ => reads_validate g

end Offers

/-! ## Where the two agree -/

/-- Whether values that are offered tell of a value whether it is reported. -/
def OffersTell (labels : List String) (value : String) (reported : Prop) : Prop :=
  (labels = [] → ¬ reported) ∧ (labels ≠ [] → (reported ↔ trimmed value ∉ labels))

/-- Whether an attribute is checked by its local name, which is not how it is written, and
refused. -/
def Declaration.RefusesByLocalName (decl : Declaration) (a : Attribute) : Prop :=
  decl.attribute? a.name = none ∧ ∃ b, decl.attribute? a.localName = some b ∧ b.Refuses a.value

/-- What is offered tells what is reported, but for attributes that are refused by their local
names. -/
lemma Declaration.offersTell_iff (decl : Declaration) (a : Attribute) {labels : List String}
    (hlabels : ∀ label, label ∈ labels ↔ label ∈ decl.valuesAt a.name) :
    OffersTell labels a.value (∃ b, decl.attributeFor? a = some b ∧ b.Refuses a.value) ↔
      ¬ decl.RefusesByLocalName a := by
  have hnil : labels = [] ↔ decl.valuesAt a.name = [] := by
    simp only [List.eq_nil_iff_forall_not_mem, hlabels]
  rw [OffersTell, Ne, hnil, hlabels, valuesAt, attributeFor?, RefusesByLocalName]
  cases decl.attribute? a.name with
  | none => simp
  | some b =>
      simp only [AttributeDeclaration.Refuses, Option.some_or, Option.some.injEq, exists_eq_left',
        reduceCtorEq, false_and, not_false_iff, iff_true]
      exact ⟨fun hnone h => h.1 hnone, fun hsome => and_iff_right hsome⟩

/-- A value that is listed under the name of an attribute is not refused. -/
lemma Declaration.not_refuses_of_mem_valuesAt {decl : Declaration} {a : Attribute}
    (h : trimmed a.value ∈ decl.valuesAt a.name) :
    ¬ ∃ b, decl.attributeFor? a = some b ∧ b.Refuses a.value := by
  rintro ⟨b, hb, -, hrefused⟩
  rw [valuesAt] at h
  rw [attributeFor?] at hb
  cases hname : decl.attribute? a.name with
  | none =>
      rw [hname] at h
      cases h
  | some b' =>
      rw [hname] at h hb
      cases hb
      exact hrefused h

/-- **What completion offers in the value of an attribute tells what validation reports about it**,
exactly unless the attribute is refused by its local name, under which nothing is offered.  A value
that is offered and put in the place of what is there is not reported, if it can stand between the
marks and is offered without white space around it too. -/
theorem completions_tell_reports (url : Url) (version : Int) (unit : ColumnUnit) (text : List Char)
    (d : Document) (hd : d = Document.parse url version unit text) (b : Bindings)
    (hquiet : b.supply.interruptedAt = none) (settings : Settings) (g : Grammar) (s : GrammarStore)
    (hoffers : b.Offers d [g] s) (v : Grammar.Visit) (hv : v ∈ g.visited d) (a : Attribute)
    (ha : a ∈ v.element.element.attributes) (hchecked : a.isChecked = true) (p : Position)
    (offset : Nat) (hp : d.offsetAt p = .ok offset) (hin : a.HasInValue offset) :
    ∃ items found s₁ s₂,
      (b.completions settings d p).runFrom ⟨s, .never⟩ = (.ok items, ⟨s₁, .never⟩) ∧
      (b.validate d).runFrom ⟨s₁, .never⟩ = (.ok found, ⟨s₂, .never⟩) ∧
      (OffersTell (items.map CompletionItem.label) a.value (∃ x ∈ found, d.ReportsValue a x) ↔
        ¬ v.declaration.RefusesByLocalName a) ∧
      ∃ mark, text[a.valueSpan.stop]? = some mark ∧ ∀ label ∈ items.map CompletionItem.label,
        fitsBetween mark label.toList = true → trimmed label ∈ items.map CompletionItem.label →
        ∀ (version' : Int) (d' : Document),
          d' = Document.parse url version' unit (Tree.revalued text a label) →
          ∃ e' ∈ d'.elements, e'.span.start = v.element.span.start ∧
            e'.element.name = v.element.element.name ∧
            e'.element.attributes.map Attribute.said =
              (v.element.element.attributes.map Attribute.said).map (revalue a.name label) ∧
            g.declarationOf? d'.toTree e' = some v.declaration ∧
            ∃ a' ∈ e'.element.attributes, a'.name = a.name ∧ a'.value = label ∧
              ∀ s' : GrammarStore, ∃ found',
                (g.validate d').runFrom ⟨s', .never⟩ = (.ok found', ⟨s', .never⟩) ∧
                ∀ x ∈ found', ¬ d'.ReportsValue a' x := by
  have htree : d.toTree = Tree.parse text := by rw [hd]; rfl
  have hnests : d.toTree.Nests := nests_of_eq_parse hd
  obtain ⟨s₁, hcompletions, hoffers₁⟩ :=
    reads_completions_value settings htree hquiet hv ha hp hin s hoffers
  obtain ⟨s₂, hfound, -⟩ := reads_validate_sole hquiet hnests s₁ hoffers₁
  refine ⟨_, _, s₁, s₂, hcompletions, hfound, ?_, ?_⟩
  · rw [Grammar.reportsValue_iff htree hv ha hchecked]
    exact v.declaration.offersTell_iff a fun label => mem_labels_values
  · have helement := Grammar.element?_of_mem_visited hv
    rw [htree] at helement
    obtain ⟨mark, hmark, hrevalued⟩ := Tree.exists_revalued helement ha
    refine ⟨mark, hmark, ?_⟩
    rintro label - hfits htrimmed version' d' hd'
    rw [mem_labels_values] at htrimmed
    have htree' : d'.toTree = Tree.parse (Tree.revalued text a label) := by rw [hd']; rfl
    obtain ⟨e', h⟩ := hrevalued label hfits
    obtain ⟨a', ha', hname, hvalue⟩ := h.exists_attribute ha rfl
    have hplain : declaresNamespace a.name = false := by
      rw [Attribute.isChecked, Bool.not_eq_true', Bool.or_eq_false_iff] at hchecked
      exact hchecked.1
    have hdecl : g.declarationOf? d'.toTree e' = some v.declaration := by
      rw [htree', h.declarationOf?_eq helement hplain, ← htree]
      exact Grammar.declarationOf?_of_mem_visited hnests hv
    have helement' : d'.element? e'.id = some e' := by
      rw [htree']
      exact Tree.element?_id h.there
    refine ⟨e', Tree.mem_elements.mpr helement', h.start, h.called, h.said, hdecl, a', ha',
      hname, hvalue,
      fun s' => ⟨g.findings d', (reads_validate g).runFrom_eq s', fun x hx hreports => ?_⟩⟩
    obtain ⟨v', hv', rfl, hrefused⟩ :=
      Grammar.exists_visit_of_reportsValue htree' helement' ha' hx hreports
    have hsame := Grammar.declarationOf?_of_mem_visited (nests_of_eq_parse hd') hv'
    rw [hdecl, Option.some.injEq] at hsame
    rw [← hsame] at hrefused
    refine Declaration.not_refuses_of_mem_valuesAt ?_ hrefused
    rw [hname, hvalue]
    exact htrimmed

/-! ## Elements with an attribute that is one of two literals -/

/-- The grammar of `Schema.literals`. -/
def literalsGrammar : Grammar :=
  .relaxNg (Grammar.fileAtTop "a.rng") .literals

/-- A store that keeps the grammar. -/
def literalsStore : GrammarStore :=
  ⟨[⟨⟨Grammar.fileAtTop "a.rng", none⟩, "1", literalsGrammar⟩], 0⟩

/-- A text with an attribute `x`, once with a qualifier. -/
def valuedText : List Char :=
  "<?xml-model href='a.rng'?><r x='c' xmlns:p='u' p:x='d'/>".toList

/-- The document of `valuedText`. -/
def valuedDocument : Document :=
  .parse (Grammar.fileAtTop "a.xml") 1 .utf16 valuedText

lemma toTree_valued : valuedDocument.toTree = Tree.parse valuedText :=
  rfl

lemma offers_literals : choiceBindings.Offers valuedDocument [literalsGrammar] literalsStore :=
  rfl

/-- A value that is none of those that are offered, and is replaced by one of them. -/
theorem completions_tell_reports_literals :
    choiceBindings.supply.interruptedAt = none ∧
    choiceBindings.Offers valuedDocument [literalsGrammar] literalsStore ∧
    ∃ v ∈ literalsGrammar.visited valuedDocument, ∃ a ∈ v.element.element.attributes,
      a.name = "x" ∧ a.isChecked = true ∧ valuedDocument.offsetAt ⟨0, 33⟩ = .ok 33 ∧
      a.HasInValue 33 ∧
      ∃ items found s₁ s₂,
        (choiceBindings.completions {} valuedDocument ⟨0, 33⟩).runFrom ⟨literalsStore, .never⟩ =
          (.ok items, ⟨s₁, .never⟩) ∧
        (choiceBindings.validate valuedDocument).runFrom ⟨s₁, .never⟩ = (.ok found, ⟨s₂, .never⟩) ∧
        items.map CompletionItem.label = ["a", "b"] ∧
          (∃ x ∈ found, valuedDocument.ReportsValue a x) ∧
        ∀ d', d' = Document.parse (Grammar.fileAtTop "a.xml") 2 .utf16
          (Tree.revalued valuedText a "b") →
          ∃ e' ∈ d'.elements, e'.element.attributes.map Attribute.said =
              [("x", "b"), ("xmlns:p", "u"), ("p:x", "d")] ∧
            ∃ a' ∈ e'.element.attributes, a'.said = ("x", "b") ∧ ∃ found',
              (literalsGrammar.validate d').runFrom ⟨{}, .never⟩ = (.ok found', ⟨{}, .never⟩) ∧
              ∀ x ∈ found', ¬ d'.ReportsValue a' x := by
  obtain ⟨v, hv, a, ha, hname, hchecked, hin, hvalues, hunrefused, hvalue, hsaid, hmark⟩ :
      ∃ v ∈ literalsGrammar.visited valuedDocument, ∃ a ∈ v.element.element.attributes,
        a.name = "x" ∧ a.isChecked = true ∧ (a.valueSpan.start ≤ 33 ∧ 33 ≤ a.valueSpan.stop) ∧
        distinctBy CompletionItem.label ((v.declaration.valuesAt a.name).map valueCompletion) =
          [valueCompletion "a", valueCompletion "b"] ∧
        (v.declaration.attribute? a.name).isSome ∧ a.value = "c" ∧
        v.element.element.attributes.map Attribute.said =
          [("x", "c"), ("xmlns:p", "u"), ("p:x", "d")] ∧
        valuedText[a.valueSpan.stop]? = some '\'' := by decide +kernel
  have hp : valuedDocument.offsetAt ⟨0, 33⟩ = .ok 33 := by decide +kernel
  obtain ⟨items, found, s₁, s₂, hitems, hfound, htell, mark, hmark', hrepaired⟩ :=
    completions_tell_reports (Grammar.fileAtTop "a.xml") 1 .utf16 valuedText valuedDocument rfl
    choiceBindings rfl {}
      literalsGrammar literalsStore offers_literals v hv a ha hchecked ⟨0, 33⟩ 33 hp hin
  obtain ⟨s₁', hreads, -⟩ := reads_completions_value {} toTree_valued (b := choiceBindings)
    rfl hv ha hp hin literalsStore offers_literals
  rw [hitems, hvalues] at hreads
  obtain rfl : items = _ := Except.ok.inj (congrArg Prod.fst hreads)
  obtain rfl : mark = '\'' := Option.some.inj (hmark'.symm.trans hmark)
  have hnot : ¬ v.declaration.RefusesByLocalName a := by
    rintro ⟨hnone, -⟩
    rw [hnone] at hunrefused
    cases hunrefused
  have hreported := ((htell.mpr hnot).2 (List.cons_ne_nil _ _)).mpr (by rw [hvalue]; decide +kernel)
  refine ⟨rfl, offers_literals, v, hv, a, ha, hname, hchecked, hp, hin, _, found, s₁, s₂,
    hitems, hfound,
    rfl, hreported, fun d' hd' => ?_⟩
  obtain ⟨e', he', -, -, hsaid', -, a', ha', hname', hvalue', hruns⟩ := hrepaired "b"
    (by decide) (by decide +kernel) (by decide +kernel) 2 d' hd'
  obtain ⟨found', hrun, hnone⟩ := hruns {}
  refine ⟨e', he', ?_, a', ha', ?_, found', hrun, hnone⟩
  · rw [hsaid', hsaid, hname]
    decide
  · rw [Attribute.said, hname', hvalue', hname]

/-- An attribute with a qualifier is checked by its local name, but nothing is offered for it. -/
theorem offers_nothing_for_qualified :
    choiceBindings.Offers valuedDocument [literalsGrammar] literalsStore ∧
    ∃ v ∈ literalsGrammar.visited valuedDocument, ∃ a ∈ v.element.element.attributes,
      a.name = "p:x" ∧ a.isChecked = true ∧ valuedDocument.offsetAt ⟨0, 52⟩ = .ok 52 ∧
      a.HasInValue 52 ∧
      ∃ found s₁ s₂,
        (choiceBindings.completions {} valuedDocument ⟨0, 52⟩).runFrom ⟨literalsStore, .never⟩ =
          (.ok [], ⟨s₁, .never⟩) ∧
        (choiceBindings.validate valuedDocument).runFrom ⟨s₁, .never⟩ = (.ok found, ⟨s₂, .never⟩) ∧
        ¬ OffersTell [] a.value (∃ x ∈ found, valuedDocument.ReportsValue a x) := by
  obtain ⟨v, hv, a, ha, hname, hchecked, hin, hvalues, hrefused⟩ :
      ∃ v ∈ literalsGrammar.visited valuedDocument, ∃ a ∈ v.element.element.attributes,
        a.name = "p:x" ∧ a.isChecked = true ∧ (a.valueSpan.start ≤ 52 ∧ 52 ≤ a.valueSpan.stop) ∧
        v.declaration.valuesAt a.name = [] ∧
        (v.declaration.attributeFor? a).any fun b =>
          !b.values.isEmpty && !b.values.contains (trimmed a.value) := by decide +kernel
  have hp : valuedDocument.offsetAt ⟨0, 52⟩ = .ok 52 := by decide +kernel
  obtain ⟨s₁, hitems, hoffers⟩ := reads_completions_value {} toTree_valued (b := choiceBindings)
    rfl hv ha hp hin literalsStore offers_literals
  obtain ⟨s₂, hfound, -⟩ := reads_validate_sole (b := choiceBindings) rfl
    (nests_of_eq_parse (d := valuedDocument) rfl) s₁ hoffers
  rw [hvalues] at hitems
  refine ⟨offers_literals, v, hv, a, ha, hname, hchecked, hp, hin, _, s₁, s₂, hitems, hfound,
    fun htell => ?_⟩
  refine htell.1 rfl ((Grammar.reportsValue_iff toTree_valued hv ha hchecked).mpr ?_)
  cases hb : v.declaration.attributeFor? a with
  | none =>
      rw [hb] at hrefused
      cases hrefused
  | some b =>
      rw [hb, Option.any_some, ← Bool.not_or, Bool.not_eq_true', ← Bool.not_eq_true,
        Bool.or_eq_true,
        List.isEmpty_iff, List.contains_iff_mem, not_or] at hrefused
      exact ⟨b, rfl, hrefused⟩

end XmlAdvisor
