import XmlAdvisor.Proofs.DocumentRepairs
import XmlAdvisor.Proofs.StartTags

/-!
# Inserting an attribute repairs what is reported

An attribute that an element lacks is put behind the name of the element, where the start tag goes
on, is closed, breaks off or ends with the text.  Whatever it is, the tag is read as before behind
the new attribute, so the element has this one and all that it had.

* `exists_visited_of_mem` — what is reported about a missing attribute.
* `Tree.exists_withAttribute` — the element in the text with the attribute.
* `reads_codeActions_attribute` — what is listed for the report.
* **`insertAttribute_repairs`** — one action is listed, and after its edit the attribute is there
  with no value, all others are as before, and the same grammar does not ask for it any more.
-/

namespace XmlAdvisor

open Grammar

/-! ## Reports about attributes -/

section Reports

variable {d : Document} {g : Grammar} {x : Diagnostic} {e : ElementNode} {name : String}

lemma reportsAttribute_iff : d.reportsAttribute e name x = true ↔ d.elementOf x = .ok (some e) ∧
    x.problem? = some .requiredAttributeMissing ∧ x.dataText? "attributeName" = some name := by
  simp [Document.reportsAttribute, Document.isReportedOn, and_assoc]

/-- Of all that is wrong with an element, only attributes that are missing are reported as such. -/
lemma mem_missingAttributes {t : Tree} {uri : String} {decl : Declaration} {w : Violation}
    (he : t.element? e.id = some e) (hw : w ∈ violations t uri decl e)
    (hproblem : w.problem = .requiredAttributeMissing) : w ∈ missingAttributes decl e := by
  rcases List.mem_append.mp hw with hw | hw
  · rcases List.mem_append.mp hw with hw | hw
    · exact hw
    · obtain ⟨a, -, ha⟩ := List.mem_filterMap.mp hw
      rw [attributeViolation?] at ha
      split at ha <;> split_ifs at ha <;> cases ha <;> cases hproblem
  · have hstructural := (structural_of_mem_childViolations he hw).1
    rw [hproblem] at hstructural
    exact absurd hstructural (by decide)

/-- A missing attribute is reported at the name of its element. -/
lemma exists_of_mem_missingAttributes {decl : Declaration} {w : Violation}
    (hw : w ∈ missingAttributes decl e) : ∃ name, w.span = e.nameSpan ∧
      w.data = some (.object [("attributeName", .string name)]) ∧
      e.element.attributes.any (·.goesBy name) = false := by
  obtain ⟨a, -, ha⟩ := List.mem_filterMap.mp hw
  split_ifs at ha with hthere
  cases ha
  exact ⟨a.name, rfl, rfl, Bool.eq_false_iff.mpr hthere⟩

/-- What is reported about a missing attribute is about an element that is validated and lacks
it. -/
lemma exists_visited_of_mem (hd : d.toTree.Nests) (hx : x ∈ g.findings d)
    (hproblem : x.problem? = some .requiredAttributeMissing) :
    ∃ v ∈ g.visited d, x ∈ v.diagnostics g d ∧ ∃ name, d.reportsAttribute v.element name x = true ∧
      v.element.element.attributes.any (·.goesBy name) = false := by
  obtain ⟨v, hv, hxv⟩ := exists_visited_of_problem hx (by rw [hproblem]; rintro ⟨⟩)
  have helement := element?_of_mem_visited hv
  obtain ⟨w, hw, hwx⟩ := List.mem_filterMap.mp hxv
  have hwproblem : w.problem = .requiredAttributeMissing := by
    rw [Document.problem?_of_diagnostic hwx, Option.some.injEq] at hproblem
    exact hproblem
  obtain ⟨name, hspan, hdata, hlacks⟩ :=
    exists_of_mem_missingAttributes (mem_missingAttributes helement hw hwproblem)
  rw [Violation.diagnostic?, hspan] at hwx
  split at hwx
  · rename_i range hrange
    cases hwx
    have hstart : d.positionAt v.element.span.start = .ok range.start :=
      (Document.rangeAt_eq_ok hrange).1
    refine ⟨v, hv, hxv, name, reportsAttribute_iff.mpr
      ⟨Document.elementOf_eq_some hd helement hstart, hproblem, ?_⟩, hlacks⟩
    rw [hdata]
    rfl
  · cases hwx

/-- An element is reported for the attributes that it lacks. -/
lemma not_goesBy_of_reportsAttribute (hd : d.toTree.Nests) (hx : x ∈ g.findings d)
    (hreports : d.reportsAttribute e name x = true) :
    e.element.attributes.any (·.goesBy name) = false := by
  obtain ⟨hon, hproblem, hname⟩ := reportsAttribute_iff.mp hreports
  obtain ⟨v, -, -, missing, hmissing, hlacks⟩ := exists_visited_of_mem hd hx hproblem
  obtain ⟨hon', -, hname'⟩ := reportsAttribute_iff.mp hmissing
  have hsame : v.element = e := Option.some.inj (Except.ok.inj (hon'.symm.trans hon))
  have hmissing : missing = name := Option.some.inj (hname'.symm.trans hname)
  rwa [hsame, hmissing] at hlacks

end Reports

/-! ## What is listed -/

section Listing

variable {d : Document} {x : Diagnostic} {e : ElementNode} {name : String} {w : WorkspaceEdit}

/-- The edit for a missing attribute can always be made. -/
lemma exists_attributeInsertion (hs : d.toTree.Shaped) (huri : isIdentifier d.url.text = true)
    (he : d.element? e.id = some e) (hreports : d.reportsAttribute e name x = true)
    (habsent : e.element.attribute? name = none) :
    ∃ w, attributeInsertions d x = .ok [insertAttributeAction name x w] ∧
      d.applyEdits (w.editsFor d) = .ok (String.ofList (d.text.take e.nameSpan.stop ++
        (Document.attributeText name).toList ++ d.text.drop e.nameSpan.stop)) := by
  obtain ⟨hon, -, hname⟩ := reportsAttribute_iff.mp hreports
  obtain ⟨position, hposition⟩ := d.exists_positionAt (hs.nameSpan_stop_le he)
  have hrange : d.rangeAt ⟨e.nameSpan.stop, e.nameSpan.stop⟩ = .ok ⟨position, position⟩ := by
    rw [Document.rangeAt, hposition]
    rfl
  obtain ⟨w, hw⟩ : ∃ w, d.replacing ⟨position, position⟩ (Document.attributeText name) = .ok w :=
    ⟨_, if_pos huri⟩
  have happlied := applyEdits_replacing hrange (Nat.le_refl _) hw
  have hplace : orBadLocation (d.positionAt e.nameSpan.stop) = .ok position := by
    rw [hposition]
    rfl
  refine ⟨w, ?_, happlied⟩
  rw [Document.attributeText] at hw
  rw [attributeInsertions, hname]
  simp only [hon, habsent, hplace, hw, bind, Except.bind, pure, Except.pure, Option.isSome_none,
    Bool.false_eq_true, if_false]

/-- What is listed for a missing attribute is complete: no grammar is asked for, and no resolver. -/
lemma reads_codeActions_attribute {P : GrammarStore → Prop} (settings : Settings) (b : Bindings)
    (hproblem : x.problem? = some .requiredAttributeMissing)
    (hlist : attributeInsertions d x = .ok [insertAttributeAction name x w]) :
    Reads P ((Advisor.builtIn settings b).codeActions d [x])
      (.ok [insertAttributeAction name x w]) := by
  have hgiven : Reads P (insertAttributeParticipant.list ((Advisor.builtIn settings b).context d) x)
      (.ok [insertAttributeAction name x w]) := hlist ▸ .ofExcept (attributeInsertions d x)
  have hoffer : Reads P (insertAttributeParticipant.offer ((Advisor.builtIn settings b).context d)
      .requiredAttributeMissing x) (.ok [insertAttributeAction name x w]) :=
    reads_offer insertAttributeParticipant .requiredAttributeMissing hgiven (recoverable_ok _)
  have hoffers : Reads P (Request.flatMapM
      (·.offer ((Advisor.builtIn settings b).context d) .requiredAttributeMissing x)
      Advisor.defaultParticipants) (.ok [insertAttributeAction name x w]) :=
    .andThen (.pure []) (.andThen (.andThen hoffer (.andThen (.pure []) (.pure _))) (.pure _))
  have hlisted : Reads P (listActions Advisor.defaultParticipants
      ((Advisor.builtIn settings b).context d) [x])
      (.ok ([x].flatMap fun _ => [insertAttributeAction name x w])) := by
    refine .flatMapM fun y hy => .andThen .check ?_
    rw [List.mem_singleton.mp hy, hproblem]
    exact hoffers
  refine .andThen hlisted ?_
  split_ifs
  · exact .pure _
  · refine .mapM (g := fun a => a) fun a ha => ?_
    rw [List.mem_singleton.mp ha]
    have hunknown : (insertAttributeAction name x w).problem?.bind
        (fun problem => List.lookup problem Advisor.defaultRegistry) = none := by
      have hsame : (insertAttributeAction name x w).problem? = x.problem? := rfl
      rw [hsame, hproblem]
      rfl
    show Reads P (Registry.resolve Advisor.defaultRegistry _ _) _
    rw [Registry.resolve, hunknown]
    exact .pure _

end Listing

/-! ## The text with the attribute -/

/-- An attribute without a value, with a blank before it. -/
def emptyAttribute (n : QualifiedName) : WrittenAttribute :=
  ⟨[' '], n, [], [], '"', ""⟩

lemma chars_emptyAttribute (n : QualifiedName) :
    (emptyAttribute n).chars = (Document.attributeText n.text).toList := by
  simp [emptyAttribute, WrittenAttribute.chars, Document.attributeText]

lemma isWellFormed_emptyAttribute {n : QualifiedName} (hn : n.isWritten = true) :
    (emptyAttribute n).isWellFormed = true := by
  simp [emptyAttribute, WrittenAttribute.isWellFormed, hn, isXmlSpace]

/-- A text with an attribute put at an offset. -/
def withAttribute (text : List Char) (offset : Nat) (n : QualifiedName) : List Char :=
  text.take offset ++ ((emptyAttribute n).chars ++ text.drop offset)

/-- The tokens of a text in which an attribute is put behind the name of an element. -/
lemma exists_tokens_withAttribute {text : List Char} {before behind : List Token}
    {name : QualifiedName}
    {span : Span} (h : (scanAll text).1 = before ++ .tagOpen name span :: behind)
    (hwritten : '<' :: name.text.toList <+: text.drop span.start) {n : QualifiedName}
    (hn : n.isWritten = true) : span.stop = span.start + 1 + name.text.length ∧ ∃ behind',
      (scanAll (withAttribute text span.stop n)).1 = before ++ .tagOpen name span :: behind' ∧
      saidFirst behind' = (n.text, "") :: saidFirst behind := by
  obtain ⟨hstop, hhead, depth, hruns⟩ := ScanState.exists_runsTo_tagOpen h hwritten
  have hwell := isWellFormed_emptyAttribute hn
  refine ⟨hstop, ?_⟩
  -- the rest of the tag is read as it was before
  have hold := hruns (text.drop span.stop) hhead
  rw [List.take_append_drop] at hold
  obtain ⟨steps, hsteps, hscan⟩ := ScanState.scan_of_runsTo hold (text.length + 3)
    (ScanState.stepsLeft_start_le text)
  have hbehind : behind = ((⟨.insideTag, depth, ⟨span.stop, text.drop span.stop⟩⟩ : ScanState).scan
      steps).1 := by
    have htokens : (scanAll text).1 = _ := congrArg Prod.fst hscan
    rw [h, List.append_cons] at htokens
    exact List.append_cancel_left htokens
  -- with the attribute there is one more step
  have hattribute : (⟨.insideTag, depth, ⟨span.stop, (emptyAttribute n).chars ++
      text.drop span.stop⟩⟩ : ScanState).stepInsideTag = _ :=
        ScanState.stepInsideTag_attribute hwell
  have hne : (emptyAttribute n).chars ++ text.drop span.stop ≠ [] := by
    rw [chars_emptyAttribute]
    simp [Document.attributeText]
  have hnew := (hruns _ (Scan.not_isNameChar_of_isWellFormed hwell (text.drop span.stop))).trans
    (.one hne hattribute (ScanState.stepsLeft_step_lt hne hattribute))
  obtain ⟨steps', hsteps', hscan'⟩ := ScanState.scan_of_runsTo hnew
    ((withAttribute text span.stop n).length + 3) (ScanState.stepsLeft_start_le _)
  have htokens' : (scanAll (withAttribute text span.stop n)).1 = _ := congrArg Prod.fst hscan'
  refine ⟨(emptyAttribute n).tokenAt span.stop :: ((⟨.insideTag, depth,
    ⟨span.stop + (emptyAttribute n).chars.length, text.drop span.stop⟩⟩ : ScanState).scan steps').1,
    ?_, ?_⟩
  · rw [htokens']
    simp
  · have hsaid : saidFirst (((⟨.insideTag, depth, ⟨span.stop + (emptyAttribute n).chars.length,
        text.drop span.stop⟩⟩ : ScanState).scan steps').1) = saidFirst behind := by
      rw [hbehind]
      exact ScanState.saidFirst_scan steps' steps rfl rfl rfl hsteps' hsteps
    rw [saidFirst, hsaid]
    rfl

/-- Up to the place of a new attribute the text is as it was. -/
lemma take_withAttribute {text : List Char} {offset k : Nat} (hk : k ≤ offset)
    (hoffset : offset ≤ text.length) (n : QualifiedName) :
    (withAttribute text offset n).take k = text.take k := by
  rw [withAttribute, List.take_append_of_le_length (by rw [List.length_take]; omega),
    List.take_take,
    Nat.min_eq_left hk]

/-- **An element with an attribute put behind its name has this attribute and all that it had.** -/
theorem Tree.exists_withAttribute {text : List Char} {i : Nat} {e : ElementNode}
    (he : (Tree.parse text).element? i = some e)
    (hwritten : '<' :: e.element.tagName.toList <+: text.drop e.span.start) {n : QualifiedName}
    (hn : n.isWritten = true) (habsent : ∀ a ∈ e.element.attributes, a.name ≠ n.text) :
    ∃ e', (Tree.parse (withAttribute text e.nameSpan.stop n)).element? i = some e' ∧
      e'.span.start = e.span.start ∧ e'.element.name = e.element.name ∧
      e'.element.attributes.map Attribute.said =
        (n.text, "") :: e.element.attributes.map Attribute.said := by
  obtain ⟨before, name, span, behind, htokens, rfl⟩ := Builder.exists_opening he
  have hsignature := (Tree.viewed_of_element? he).symm.trans (Builder.viewed_signature htokens)
  obtain ⟨-, hstart, hname, hattributes⟩ := Signature.mk.inj (Option.some.inj hsignature)
  have hsaid : e.element.attributes.map Attribute.said = putAllSaid [] (saidFirst behind) := by
    rw [hattributes, map_said_putAll, map_said_attributesFirst, List.map_nil]
  rw [Element.tagName, hstart, hname] at hwritten
  obtain ⟨hstop, behind', htokens', hsaid'⟩ := exists_tokens_withAttribute htokens hwritten hn
  have hplace : e.nameSpan.stop = span.stop := by
    rw [ElementNode.nameSpan, Element.tagName, hstart, hname, hstop]
  have hinside : span.stop ≤ text.length := by
    have hle := hwritten.length_le
    rw [List.length_cons, List.length_drop, String.length_toList] at hle
    omega
  -- the tokens before the tag build the same, so the element has the same number
  have hafter := Builder.after_of_take htokens
    (take_withAttribute (k := span.start) (by omega) hinside n).symm
  have hsignature' := Builder.viewed_signature htokens'
  rw [← hafter, Tree.viewed_eq] at hsignature'
  obtain ⟨e', he', heq⟩ := Option.map_eq_some_iff.mp hsignature'
  obtain ⟨-, hstart', hname', hattributes'⟩ := Signature.mk.inj heq
  rw [hplace]
  refine ⟨e', he', hstart'.trans hstart.symm, hname'.trans hname.symm, ?_⟩
  rw [hattributes', map_said_putAll, map_said_attributesFirst, hsaid', List.map_nil, hsaid]
  refine putAllSaid_cons (fun said hmem => ?_) []
  have hnames : said.1 ∈ (putAllSaid [] (saidFirst behind)).map Prod.fst :=
    mem_names_putAllSaid (.inr (List.mem_map_of_mem hmem))
  rw [← hsaid] at hnames
  obtain ⟨_, hmem, heq⟩ := List.mem_map.mp hnames
  obtain ⟨a, ha, rfl⟩ := List.mem_map.mp hmem
  rw [← heq]
  exact habsent a ha

/-- **Inserting an attribute repairs what is reported.**  What a validation reports about a missing
attribute is about an element that is validated and lacks it.  If the source of the element begins
with its name and the attribute has a name that can be written, then one action is listed.  After
its edit an element with the same name begins at the same place, has the attribute with no value and
all others as before, and the same grammar does not report it for this attribute. -/
theorem insertAttribute_repairs (url : Url) (version : Int) (unit : ColumnUnit) (text : List Char)
    (d : Document) (hd : d = Document.parse url version unit text)
    (huri : isIdentifier url.text = true) (g : Grammar) (s₀ : GrammarStore)
      (found : List Diagnostic)
    (after : RequestState) (hfound : (g.validate d).runFrom ⟨s₀, .never⟩ = (.ok found, after))
    (x : Diagnostic) (hx : x ∈ found) (hproblem : x.problem? = some .requiredAttributeMissing) :
    ∃ v ∈ g.visited d, x ∈ v.diagnostics g d ∧ ∃ name, d.reportsAttribute v.element name x = true ∧
      ∀ n : QualifiedName, n.text = name → n.isWritten = true →
        '<' :: v.element.element.tagName.toList <+: text.drop v.element.span.start →
        ∀ (settings : Settings) (b : Bindings) (s : GrammarStore), ∃ a w newText,
          ((Advisor.builtIn settings b).codeActions d [x]).runFrom ⟨s, .never⟩ =
            (.ok [a], ⟨s, .never⟩) ∧
          a.edit = some w ∧ d.applyEdits (w.editsFor d) = .ok newText ∧
          ∀ (version' : Int) (d' : Document),
            d' = Document.parse url version' unit newText.toList →
            ∃ e' ∈ d'.elements, e'.span.start = v.element.span.start ∧
              e'.element.tagName = v.element.element.tagName ∧
              e'.element.attributes.map Attribute.said =
                (name, "") :: v.element.element.attributes.map Attribute.said ∧
              ∀ s' : GrammarStore, ∃ found',
                (g.validate d').runFrom ⟨s', .never⟩ = (.ok found', ⟨s', .never⟩) ∧
                ∀ y ∈ found', d'.reportsAttribute e' name y = false := by
  have hnests : d.toTree.Nests := nests_of_eq_parse hd
  have hshaped : d.toTree.Shaped := hd ▸ Tree.parse_shaped text
  obtain rfl := findings_of_runFrom hfound
  obtain ⟨v, hv, hxv, name, hreports, hlacks⟩ := exists_visited_of_mem hnests hx hproblem
  refine ⟨v, hv, hxv, name, hreports, ?_⟩
  rintro n rfl hn hsource settings b s
  have helement := element?_of_mem_visited hv
  have habsent : ∀ a ∈ v.element.element.attributes, a.name ≠ n.text := by
    intro a ha hname
    have hgoes := List.any_eq_false.mp hlacks a ha
    simp [Attribute.goesBy, hname] at hgoes
  have hnone : v.element.element.attribute? n.text = none :=
    List.find?_eq_none.mpr fun a ha hname => habsent a ha (of_decide_eq_true hname)
  obtain ⟨w, hlist, hedit⟩ := exists_attributeInsertion hshaped (hd ▸ huri) helement hreports hnone
  refine ⟨_, w, _, (reads_codeActions_attribute settings b hproblem hlist).runFrom_eq s,
    rfl, hedit, ?_⟩
  rintro version' d' hd'
  have htext : d' = Document.parse url version' unit
      (withAttribute text v.element.nameSpan.stop n) := by
    rw [hd', String.toList_ofList, ← chars_emptyAttribute, List.append_assoc, withAttribute, hd]
    rfl
  have hparsed : (Tree.parse text).element? v.element.id = some v.element := by
    rw [hd] at helement
    exact helement
  obtain ⟨e', he', hstart, hname, hsaid⟩ := Tree.exists_withAttribute hparsed hsource hn habsent
  have htree : d'.toTree = Tree.parse (withAttribute text v.element.nameSpan.stop n) := by
    rw [htext]
    rfl
  refine ⟨e', ?_, hstart, congrArg QualifiedName.text hname, hsaid, fun s' =>
    ⟨g.findings d', (reads_validate g).runFrom_eq s', fun y hy => ?_⟩⟩
  · rw [htree]
    exact Tree.mem_elements.mpr (Tree.element?_id he')
  · rw [← Bool.not_eq_true]
    intro hreported
    have hlacks' := not_goesBy_of_reportsAttribute (nests_of_eq_parse htext) hy hreported
    have hthere : (n.text, "") ∈ e'.element.attributes.map Attribute.said := by
      rw [hsaid]
      exact List.mem_cons_self ..
    obtain ⟨a, ha, hasaid⟩ := List.mem_map.mp hthere
    have hgoes := List.any_eq_false.mp hlacks' a ha
    have haname : a.name = n.text := congrArg Prod.fst hasaid
    simp [Attribute.goesBy, haname] at hgoes

/-- A document with a start tag that breaks off. -/
def brokenTagDocument : Document :=
  .parse (fileAtTop "a.xml") 1 .utf16 "<a y='1' <b/></a>".toList

/-- A schema that demands an attribute of its elements. -/
def demandingGrammar : Grammar :=
  .relaxNg (fileAtTop "a.rng") (.demanding "x" "b")

/-- The attribute that a schema demands is put into a start tag that breaks off. -/
theorem insertAttribute_repairs_brokenTag :
    isIdentifier (fileAtTop "a.xml").text = true ∧ ∃ found x a w newText,
      (demandingGrammar.validate brokenTagDocument).runFrom ⟨{}, .never⟩ =
        (.ok found, ⟨{}, .never⟩) ∧
      x ∈ found ∧ x.problem? = some .requiredAttributeMissing ∧
      ((Advisor.builtIn {} choiceBindings).codeActions brokenTagDocument [x]).runFrom ⟨{}, .never⟩ =
        (.ok [a], ⟨{}, .never⟩) ∧
      a.edit = some w ∧ brokenTagDocument.applyEdits (w.editsFor brokenTagDocument) = .ok newText ∧
      ∃ e' ∈ (Document.parse (fileAtTop "a.xml") 2 .utf16 newText.toList).elements,
        e'.element.tagName = "a" ∧
          e'.element.attributes.map Attribute.said = [("x", ""), ("y", "1")] := by
  have huri : isIdentifier (fileAtTop "a.xml").text = true := by decide +kernel
  have hfound : (demandingGrammar.validate brokenTagDocument).runFrom ⟨{}, .never⟩ =
      (.ok (demandingGrammar.findings brokenTagDocument), ⟨{}, .never⟩) :=
    (reads_validate demandingGrammar).runFrom_eq {}
  obtain ⟨x, hx, hproblem, hasked⟩ : ∃ x ∈ demandingGrammar.findings brokenTagDocument,
      x.problem? = some .requiredAttributeMissing ∧ x.dataText? "attributeName" = some "x" := by
    decide +kernel
  have hvisited : ∀ v ∈ demandingGrammar.visited brokenTagDocument,
      v.element.element.tagName = "a" ∧
      v.element.element.attributes.map Attribute.said = [("y", "1")] ∧
      ('<' :: v.element.element.tagName.toList).isPrefixOf
        ("<a y='1' <b/></a>".toList.drop v.element.span.start) = true := by decide +kernel
  obtain ⟨v, hv, -, name, hreports, hrepairs⟩ :=
    insertAttribute_repairs (fileAtTop "a.xml") 1 .utf16 _
    brokenTagDocument rfl huri demandingGrammar {} _ _ hfound x hx hproblem
  obtain ⟨htag, hsaid, hsource⟩ := hvisited v hv
  obtain rfl : name = "x" :=
    Option.some.inj ((reportsAttribute_iff.mp hreports).2.2.symm.trans hasked)
  obtain ⟨a, w, newText, hactions, hw, hedit, hrepaired⟩ := hrepairs ⟨none, "x"⟩ rfl (by decide)
    (List.isPrefixOf_iff_prefix.mp hsource) {} choiceBindings {}
  obtain ⟨e', he', -, htag', hsaid', -⟩ := hrepaired 2 _ rfl
  refine ⟨huri, _, x, a, w, newText, hfound, hx, hproblem, hactions, hw, hedit, e', he',
    htag'.trans htag, ?_⟩
  rw [hsaid', hsaid]

end XmlAdvisor
