import XmlAdvisor.Proofs.ActionListing

/-!
# The edits of actions for incomplete content

An action that is listed for a report about incomplete content gets its edit whenever the element
has both its tags, as long as the document and the grammars stay as they are.

**The element and its content.**  The report leads back to the element, whose content lies inside
the text, so the content has a range (`insertionPlace_eq`, `contentSpan_inside`).

**The alternative.**  Some grammar has the alternative of the action, so a policy has one to prefer
(`DuplicatePolicy.exists_prefers`).

* `DuplicatePolicy.Prefers` — of the grammars with an alternative, the first or the last one.
* `insertionEdit_eq_none`, `insertionEdit_eq_some` — the edit of an action that is listed.
* **`resolveAction_insertion`** — every action that is listed can be resolved.
-/

namespace XmlAdvisor

open Grammar

variable {d : Document} {g : Grammar} {v : Visit} {gs : List Grammar} {x : Diagnostic}

/-! ## The grammar that a policy prefers -/

/-- Whether, of the grammars that have an alternative with a name in an element, a policy prefers
this one. -/
def DuplicatePolicy.Prefers (policy : DuplicatePolicy) (gs : List Grammar) (t : Tree)
    (e : ElementNode) (name : String) (g : Grammar) : Prop :=
  ∃ before after, gs = before ++ g :: after ∧ g.HasAlternative t e name ∧
    match policy with
    | .firstMatch => ∀ h ∈ before, ¬ h.HasAlternative t e name
    | .lastMatch => ∀ h ∈ after, ¬ h.HasAlternative t e name

section Prefers

variable {t : Tree} {e : ElementNode} {name : String}

lemma alternativeNamed?_eq_none : g.alternativeNamed? t e name = none ↔
    ¬ g.HasAlternative t e name := by
  simp [alternativeNamed?, HasAlternative]

/-- Of grammars one of which has an alternative, there is a first one. -/
lemma exists_first (h : ∃ g ∈ gs, g.HasAlternative t e name) : ∃ before g after decl,
    gs = before ++ g :: after ∧ g.alternativeNamed? t e name = some decl ∧
      gs.findSome? (·.alternativeNamed? t e name) = some decl ∧
      ∀ h ∈ before, ¬ h.HasAlternative t e name := by
  cases hfound : gs.findSome? (·.alternativeNamed? t e name) with
  | none =>
      obtain ⟨g, hg, hname⟩ := h
      exact absurd hname (alternativeNamed?_eq_none.mp (List.findSome?_eq_none_iff.mp hfound g hg))
  | some decl =>
      obtain ⟨before, g, after, hgs, hg, hbefore⟩ := List.findSome?_eq_some_iff.mp hfound
      exact ⟨before, g, after, decl, hgs, hg, rfl, fun h hh =>
        alternativeNamed?_eq_none.mp (hbefore h hh)⟩

/-- If some grammar has an alternative, a policy prefers one of them, and its alternative. -/
lemma DuplicatePolicy.exists_prefers (policy : DuplicatePolicy)
    (h : ∃ g ∈ gs, g.HasAlternative t e name) : ∃ g decl, policy.Prefers gs t e name g ∧
      g.alternativeNamed? t e name = some decl ∧ policy.preferred gs t e name = some decl := by
  have hhas : ∀ {g : Grammar} {decl : Declaration}, g.alternativeNamed? t e name = some decl →
      g.HasAlternative t e name := by
    intro g decl hdecl
    by_contra hnone
    rw [alternativeNamed?_eq_none.mpr hnone] at hdecl
    cases hdecl
  cases policy with
  | firstMatch =>
      obtain ⟨before, g, after, decl, hgs, hdecl, hfound, hbefore⟩ := exists_first h
      exact ⟨g, decl, ⟨before, after, hgs, hhas hdecl, hbefore⟩, hdecl, hfound⟩
  | lastMatch =>
      -- the last one is the first one from behind
      have hreverse : ∃ g ∈ gs.reverse, g.HasAlternative t e name := by simpa using h
      obtain ⟨before, g, after, decl, hgs, hdecl, hfound, hbefore⟩ := exists_first hreverse
      have hsplit : gs = after.reverse ++ g :: before.reverse := by
        rw [← List.reverse_reverse gs, hgs]
        simp
      refine ⟨g, decl, ⟨after.reverse, before.reverse, hsplit, hhas hdecl, ?_⟩, hdecl, hfound⟩
      intro h hh
      exact hbefore h (List.mem_reverse.mp hh)

end Prefers

/-! ## The content of an element -/

/-- The content of an element lies inside the text. -/
lemma contentSpan_inside (hd : d.toTree.Nests) {e : ElementNode} (he : d.element? e.id = some e)
    {span : Span} (h : e.element.contentSpan = some span) :
    span.start ≤ d.text.length ∧ span.stop ≤ d.text.length := by
  obtain ⟨n, hn, hel, -, -⟩ := (Tree.element?_eq_some he).2
  have hsettled := hd.settled e.id n hn
  simp only [Element.contentSpan, Option.bind_eq_bind, Option.bind_eq_some_iff] at h
  obtain ⟨close, hclose, stop, hstop, h⟩ := h
  cases h
  exact ⟨hsettled.closing _ hel close hclose, hsettled.ending _ hel stop hstop⟩

/-- The content of an element is there if both its tags are. -/
lemma isSome_contentSpan (e : Element) :
    e.contentSpan.isSome ↔ e.startTagClose.isSome ∧ e.endTagOpen.isSome := by
  rw [Element.contentSpan]
  cases e.startTagClose <;> cases e.endTagOpen <;> simp

/-! ## The edit of an action -/

/-- Whether an edit of a version of the document puts the alternative with a name, from the grammar
that the policy prefers, in place of the content of an element. -/
def ActionContext.Inserts (cx : ActionContext) (gs : List Grammar) (e : ElementNode) (name : String)
    (edit : WorkspaceEdit) : Prop :=
  ∃ close stop range g decl,
    e.element.startTagClose = some close ∧ e.element.endTagOpen = some stop ∧
    cx.document.rangeAt ⟨close + 1, stop⟩ = .ok range ∧
    cx.document.spanAt range = .ok ⟨close + 1, stop⟩ ∧
    cx.settings.codeAction.duplicateAlternative.Prefers gs cx.document.toTree e name g ∧
    g.alternativeNamed? cx.document.toTree e name = some decl ∧
    edit = { documentChanges := some (.edits [⟨cx.document.url.text, some cx.document.version,
      [⟨range, decl.insertion cx.settings.layout {} 1 none
        cx.settings.codeAction.snippetEdits⟩]⟩]) }

section Edits

variable {cx : ActionContext} {a : CodeAction} {p : ActionPayload} {e : ElementNode}

/-- An action is about the content of the element that its diagnostic leads back to. -/
lemma insertionPlace_eq (hpayload : a.payload = .ok p) (hfirst : a.firstDiagnostic? = some x)
    (huri : p.uri = d.url.text) (he : d.elementOf x = .ok (some e))
    (hname : e.element.localName = p.parentLocalName) : insertionPlace d a =
      .ok (e.element.contentSpan.map fun span => (e, span, p)) := by
  rw [insertionPlace, hpayload]
  dsimp only [bind, Except.bind]
  rw [hfirst]
  dsimp only
  rw [if_neg (not_not_intro huri), he]
  dsimp only
  rw [if_neg (not_not_intro hname)]
  rfl

/-- Without both tags there is no edit. -/
lemma insertionEdit_eq_none (hplace : insertionPlace cx.document a = .ok none) :
    cx.insertionEdit gs a = .ok none := by
  rw [ActionContext.insertionEdit, hplace]
  rfl

/-- With both tags and an alternative there is an edit of the content. -/
lemma insertionEdit_eq_some {span : Span} {range : Range} {decl : Declaration}
    (hplace : insertionPlace cx.document a = .ok (some (e, span, p)))
    (hrange : cx.document.rangeAt span = .ok range)
    (hdecl : cx.settings.codeAction.duplicateAlternative.preferred gs cx.document.toTree e
      p.elementLocalName = some decl) (huri : isIdentifier cx.document.url.text = true) :
    cx.insertionEdit gs a = .ok (some { documentChanges := some (.edits
      [⟨cx.document.url.text, some cx.document.version, [⟨range, decl.insertion cx.settings.layout
        {} 1 none cx.settings.codeAction.snippetEdits⟩]⟩]) }) := by
  have hplaced : orBadLocation (cx.document.rangeAt span) = .ok range := by
    rw [hrange]
    rfl
  have hreplacing (text : String) : cx.document.replacing range text = .ok
      { documentChanges := some (.edits [⟨cx.document.url.text, some cx.document.version,
        [⟨range, text⟩]⟩]) } := if_pos huri
  rw [ActionContext.insertionEdit, hplace]
  dsimp only [bind, Except.bind]
  rw [hplaced]
  dsimp only
  rw [hdecl]
  dsimp only
  rw [hreplacing]
  rfl

/-- The edit of an action for an element and one of its alternatives: there is one if both tags are
there, and it replaces what is between them by the alternative that the policy prefers. -/
lemma exists_insertionEdit (hd : cx.document.toTree.Nests)
    (huri : isIdentifier cx.document.url.text = true) (he : cx.document.element? e.id = some e)
    (hplace : insertionPlace cx.document a =
      .ok (e.element.contentSpan.map fun span => (e, span, p)))
    (hhas : ∃ g ∈ gs, g.HasAlternative cx.document.toTree e p.elementLocalName) :
    ∃ edit?, cx.insertionEdit gs a = .ok edit? ∧
      (edit?.isSome ↔ e.element.startTagClose.isSome ∧ e.element.endTagOpen.isSome) ∧
      ∀ edit ∈ edit?, cx.Inserts gs e p.elementLocalName edit := by
  cases hspan : e.element.contentSpan with
  | none =>
      rw [hspan] at hplace
      refine ⟨none, insertionEdit_eq_none hplace, ?_, by rintro _ ⟨⟩⟩
      rw [← isSome_contentSpan, hspan]
      exact Iff.rfl
  | some span =>
      rw [hspan] at hplace
      obtain ⟨hstart, hstop⟩ := contentSpan_inside hd he hspan
      obtain ⟨range, hrange⟩ := cx.document.exists_rangeAt hstart hstop
      obtain ⟨g, decl, hprefers, hnamed, hdecl⟩ :=
        cx.settings.codeAction.duplicateAlternative.exists_prefers hhas
      refine ⟨_, insertionEdit_eq_some hplace hrange hdecl huri, ?_, ?_⟩
      · rw [← isSome_contentSpan, hspan]
        simp
      · rintro edit ⟨⟩
        simp only [Element.contentSpan, Option.bind_eq_bind, Option.bind_eq_some_iff] at hspan
        obtain ⟨close, hclose, stop, hopen, hspan⟩ := hspan
        cases hspan
        exact ⟨close, stop, range, g, decl, hclose, hopen, hrange, Document.spanAt_rangeAt hrange,
          hprefers, hnamed, rfl⟩

/-- What an action is worked out from is left by working it out. -/
lemma insertionEdit_resolvedWith :
    cx.insertionEdit gs (cx.resolvedWith gs a) = cx.insertionEdit gs a := by
  have hplace : insertionPlace cx.document (cx.resolvedWith gs a) =
      insertionPlace cx.document a := by
    rw [insertionPlace, insertionPlace, resolvedWith_payload, CodeAction.firstDiagnostic?,
      CodeAction.firstDiagnostic?, resolvedWith_diagnostics]
  rw [ActionContext.insertionEdit, ActionContext.insertionEdit, hplace]

/-- The action of an insertion gets the edit that is worked out for it. -/
lemma resolvedWith_eq {problem : ProblemCode} (hfirst : a.firstDiagnostic? = some x)
    (hproblem : x.problem? = some problem) (hmissing : problem ∈ missingElementProblems)
    {edit? : Option WorkspaceEdit} (hedit : cx.insertionEdit gs a = .ok edit?) :
    cx.resolvedWith gs a = { a with edit := edit?.or a.edit } := by
  have hknown : a.problem?.any missingElementProblems.contains = true := by
    rw [CodeAction.problem?, hfirst]
    dsimp only
    rw [hproblem]
    exact List.contains_iff_mem.mpr hmissing
  rw [ActionContext.resolvedWith, if_pos hknown, hedit]
  cases edit? <;> rfl

/-! ## The diagnostic of an action -/

lemma mem_of_mem_getD {α : Type} {v : Except RequestError (List α)} {a : α}
    (ha : a ∈ v.toOption.getD []) : ∃ items, v = .ok items ∧ a ∈ items := by
  cases v with
  | error e => cases ha
  | ok items => exact ⟨items, rfl, ha⟩

lemma diagnostics_of_mem_insertions {actions : List CodeAction}
    (h : cx.insertionsWith gs x = .ok actions) (ha : a ∈ actions) : a.diagnostics = some [x] := by
  rw [ActionContext.insertionsWith] at h
  split at h
  · obtain ⟨names, -, h⟩ := exists_of_bind_ok h
    cases h
    obtain ⟨name, -, rfl⟩ := List.mem_map.mp ha
    rfl
  · cases h
    cases ha

lemma diagnostics_of_mem_attributeInsertions {actions : List CodeAction}
    (h : attributeInsertions d x = .ok actions) (ha : a ∈ actions) : a.diagnostics = some [x] := by
  rw [attributeInsertions] at h
  split at h
  · cases h
    cases ha
  · obtain ⟨found, -, h⟩ := exists_of_bind_ok h
    split at h
    · cases h
      cases ha
    · split_ifs at h
      · cases h
        cases ha
      · obtain ⟨position, -, h⟩ := exists_of_bind_ok h
        obtain ⟨edit, -, h⟩ := exists_of_bind_ok h
        cases h
        rw [List.mem_singleton.mp ha]
        rfl

/-- Every action that is listed is about the diagnostic that it is listed for. -/
lemma diagnostics_of_mem_listedWith (ha : a ∈ cx.listedWith gs x) : a.diagnostics = some [x] := by
  rw [ActionContext.listedWith] at ha
  split at ha
  · cases ha
  · rcases List.mem_append.mp ha with ha | ha
    · split_ifs at ha
      · obtain ⟨actions, h, ha⟩ := mem_of_mem_getD ha
        exact diagnostics_of_mem_insertions h ha
      · cases ha
    · split_ifs at ha
      · obtain ⟨actions, h, ha⟩ := mem_of_mem_getD ha
        exact diagnostics_of_mem_attributeInsertions h ha
      · cases ha

end Edits

/-! ## Resolving once or twice -/

section Resolving

variable {cx : ActionContext} {a listed : CodeAction}

/-- An action that is resolved again has the edit that it had. -/
lemma resolvedWith_of_listed {problem : ProblemCode} (hfirst : listed.firstDiagnostic? = some x)
    (hproblem : x.problem? = some problem) (hmissing : problem ∈ missingElementProblems)
    {edit? : Option WorkspaceEdit} (hedit : cx.insertionEdit gs listed = .ok edit?)
    (hnone : listed.edit = none) (ha : a = listed ∨ a = cx.resolvedWith gs listed) :
    cx.resolvedWith gs a = { a with edit := edit? } := by
  have honce := resolvedWith_eq hfirst hproblem hmissing hedit
  rw [hnone, Option.or_none] at honce
  rcases ha with rfl | rfl
  · exact honce
  · have hfirst' : (cx.resolvedWith gs listed).firstDiagnostic? = some x := by
      rw [CodeAction.firstDiagnostic?, resolvedWith_diagnostics]
      exact hfirst
    -- neither payload nor diagnostics are new, so the edit is worked out as before
    have htwice := resolvedWith_eq hfirst' hproblem hmissing
      (insertionEdit_resolvedWith.trans hedit)
    rw [htwice, honce, Option.or_self]

/-- What an action comes to that is listed for a report, whether or not it has been resolved
before. -/
lemma exists_resolvedWith (hd : cx.document.toTree.Nests)
    (huri : isIdentifier cx.document.url.text = true) (hg : g ∈ gs) (hv : v ∈ g.visited cx.document)
    (hx : g.IsReport cx.document v x) {problem : ProblemCode} (hproblem : x.problem? = some problem)
    (hmissing : problem ∈ missingElementProblems) (hlisted : listed ∈ cx.listedWith gs x)
    (ha : a = listed ∨ a = cx.resolvedWith gs listed) : ∃ payload edit?,
      a.payload = .ok payload ∧ cx.resolvedWith gs a = { a with edit := edit? } ∧
      (edit?.isSome ↔
        v.element.element.startTagClose.isSome ∧ v.element.element.endTagOpen.isSome) ∧
      ∀ edit ∈ edit?, cx.Inserts gs v.element payload.elementLocalName edit := by
  have hv' := element?_of_mem_visited hv
  obtain ⟨isOnly, name, rfl, hhas⟩ := mem_listedWith hd hv hx hg hproblem hmissing hlisted
  let payload : ActionPayload :=
    ⟨problem.name, cx.document.url.text, v.element.element.localName, name⟩
  have hpayload : (insertElementAction cx.document.url.text v.element.element.localName problem x
      isOnly name).payload = .ok payload := rfl
  have hplace := insertionPlace_eq hpayload rfl rfl (hx.elementOf hd hv') rfl
  obtain ⟨edit?, hedit, hiff, hinserts⟩ := exists_insertionEdit hd huri hv' hplace hhas
  refine ⟨payload, edit?, ?_, resolvedWith_of_listed rfl hproblem hmissing hedit rfl ha, hiff,
    hinserts⟩
  rcases ha with rfl | rfl
  · exact hpayload
  · rw [resolvedWith_payload]
    exact hpayload

end Resolving

/-! ## Requests -/

/-- An action that is given for diagnostics is listed for the one it is about, or is such an action
resolved. -/
lemma exists_listed_of_mem_actionsWith {advisor : Advisor} {xs : List Diagnostic} {a : CodeAction}
    (ha : a ∈ advisor.actionsWith d gs xs) (hfirst : a.firstDiagnostic? = some x) :
    ∃ listed ∈ (advisor.context d).listedWith gs x,
      a = listed ∨ a = (advisor.context d).resolvedWith gs listed := by
  have habout : ∀ {y : Diagnostic} {listed : CodeAction},
      listed ∈ (advisor.context d).listedWith gs y →
      a.diagnostics = listed.diagnostics → y = x := by
    intro y listed hlisted hsame
    rw [CodeAction.firstDiagnostic?, hsame, diagnostics_of_mem_listedWith hlisted] at hfirst
    exact Option.some.inj hfirst
  rw [Advisor.actionsWith] at ha
  split_ifs at ha
  · obtain ⟨y, -, hlisted⟩ := List.mem_flatMap.mp ha
    rw [habout hlisted rfl] at hlisted
    exact ⟨a, hlisted, .inl rfl⟩
  · obtain ⟨listed, hmem, rfl⟩ := List.mem_map.mp ha
    obtain ⟨y, -, hlisted⟩ := List.mem_flatMap.mp hmem
    rw [habout hlisted (resolvedWith_diagnostics listed)] at hlisted
    exact ⟨listed, hlisted, .inr rfl⟩

/-- **Every action that is listed for a missing element can be resolved**: it gets an edit if the
element has both its tags, and this edit puts the alternative from the first or the last grammar
that has it between them. -/
theorem resolveAction_insertion (url : Url) (version : Int) (unit : ColumnUnit) (text : List Char)
    (d : Document) (hd : d = Document.parse url version unit text)
    (huri : isIdentifier url.text = true) (settings : Settings) (b : Bindings)
    (hquiet : b.supply.interruptedAt = none) (gs : List Grammar) (s₀ s₁ s₂ : GrammarStore)
    (h₀ : b.Offers d gs s₀) (h₁ : b.Offers d gs s₁) (h₂ : b.Offers d gs s₂)
    (ds : List Diagnostic) (after : RequestState)
    (hds : ((Advisor.builtIn settings b).diagnostics d).runFrom ⟨s₀, .never⟩ = (.ok ds, after))
    (xs : List Diagnostic) (actions : List CodeAction) (after' : RequestState)
    (hactions : ((Advisor.builtIn settings b).codeActions d xs).runFrom ⟨s₁, .never⟩ =
      (.ok actions, after'))
    (a : CodeAction) (ha : a ∈ actions) (x : Diagnostic) (hx : x ∈ ds)
    (hfirst : a.firstDiagnostic? = some x) (problem : ProblemCode)
    (hproblem : x.problem? = some problem) (hmissing : problem ∈ missingElementProblems) :
    b.Offers d gs after.store ∧ b.Offers d gs after'.store ∧
    ∃ e payload edit? s₃,
      d.elementOf x = .ok (some e) ∧ a.payload = .ok payload ∧
      ((Advisor.builtIn settings b).resolveAction d a).runFrom ⟨s₂, .never⟩ =
        (.ok { a with edit := edit? }, ⟨s₃, .never⟩) ∧
      (edit?.isSome ↔ e.element.startTagClose.isSome ∧ e.element.endTagOpen.isSome) ∧
      ∀ edit ∈ edit?, ((Advisor.builtIn settings b).context d).Inserts gs e
        payload.elementLocalName edit := by
  have hnests := nests_of_eq_parse hd
  have hshaped : d.toTree.Shaped := hd ▸ Tree.parse_shaped text
  have happlicable := reads_applicable hquiet hnests gs
  obtain ⟨hvalue, hafter⟩ := diagnosticsWith_of_runFrom hquiet hnests h₀ hds
  obtain ⟨s, hrun, hs⟩ := Advisor.reads_codeActions happlicable settings xs s₁ h₁
  rw [hrun, Prod.mk.injEq, Except.ok.injEq] at hactions
  obtain ⟨rfl, rfl⟩ := hactions
  have hincomplete := isIncompleteness_of_missing hproblem hmissing
  obtain ⟨g, hg, v, hv, -, hreport⟩ := Document.exists_isReport_of_mem hshaped hvalue hx hincomplete
  obtain ⟨listed, hlisted, hcases⟩ := exists_listed_of_mem_actionsWith ha hfirst
  obtain ⟨payload, edit?, hpayload, hresolved, hiff, hinserts⟩ :=
    exists_resolvedWith hnests (hd ▸ huri) hg hv hreport hproblem hmissing hlisted hcases
  obtain ⟨s₃, hresolve, -⟩ := Advisor.reads_resolveAction happlicable settings a s₂ h₂
  rw [hresolved] at hresolve
  exact ⟨hafter, hs, v.element, payload, edit?, s₃,
    hreport.elementOf hnests (element?_of_mem_visited hv), hpayload, hresolve, hiff, hinserts⟩

/-- Settings by which the last grammar with an alternative is preferred. -/
def lastMatchSettings : Settings :=
  { codeAction := { duplicateAlternative := .lastMatch } }

/-- The actions for what is reported about the document with two choices. -/
def choiceActions : List CodeAction :=
  choiceReports.flatMap
    (((Advisor.builtIn lastMatchSettings choiceBindings).context choiceDocument).listedWith
      choiceGrammars)

lemma runFrom_choiceActions :
    ∃ after, ((Advisor.builtIn lastMatchSettings choiceBindings).codeActions choiceDocument
      choiceReports).runFrom ⟨choiceStore, .never⟩ = (.ok choiceActions, after) := by
  have happlicable := reads_applicable (b := choiceBindings) rfl
    (nests_of_eq_parse choiceDocument.eq_1) choiceGrammars
  obtain ⟨s, hrun, -⟩ := Advisor.reads_codeActions happlicable lastMatchSettings choiceReports
    choiceStore offers_choice
  refine ⟨⟨s, .never⟩, ?_⟩
  rw [hrun, choiceActions, Advisor.actionsWith]
  rfl

/-- An action for a name that both schemas have is resolved by the last of them. -/
theorem resolveAction_insertion_choice :
    isIdentifier (fileAtTop "a.xml").text = true ∧ choiceBindings.supply.interruptedAt = none ∧
    choiceBindings.Offers choiceDocument choiceGrammars choiceStore ∧
    (∃ after, ((Advisor.builtIn lastMatchSettings choiceBindings).diagnostics
      choiceDocument).runFrom ⟨choiceStore, .never⟩ = (.ok choiceReports, after)) ∧
    (∃ after, ((Advisor.builtIn lastMatchSettings choiceBindings).codeActions choiceDocument
      choiceReports).runFrom ⟨choiceStore, .never⟩ = (.ok choiceActions, after)) ∧
    ∃ a ∈ choiceActions, ∃ x ∈ choiceReports, a.firstDiagnostic? = some x ∧
      x.problem? = some .requiredElementsMissing ∧
      ∃ e payload edit s₃, a.payload = .ok payload ∧ payload.elementLocalName = "b" ∧
        ((Advisor.builtIn lastMatchSettings choiceBindings).resolveAction choiceDocument a).runFrom
          ⟨choiceStore, .never⟩ = (.ok { a with edit := some edit }, ⟨s₃, .never⟩) ∧
        ((Advisor.builtIn lastMatchSettings choiceBindings).context choiceDocument).Inserts
          choiceGrammars e payload.elementLocalName edit := by
  have huri : isIdentifier (fileAtTop "a.xml").text = true := by decide +kernel
  obtain ⟨after, hdiagnostics⟩ := runFrom_choiceReports lastMatchSettings rfl
  obtain ⟨after', hactions⟩ := runFrom_choiceActions
  obtain ⟨a, ha, hname⟩ : ∃ a ∈ choiceActions,
      a.payload.toOption.map ActionPayload.elementLocalName = some "b" := by decide +kernel
  have hreports : ∀ x ∈ choiceReports, x.problem? = some .requiredElementsMissing ∧
      (choiceDocument.elementOf x).toOption.any
        (·.any fun e => e.element.startTagClose.isSome && e.element.endTagOpen.isSome) := by
    decide +kernel
  obtain ⟨x, hx, hlisted⟩ := List.mem_flatMap.mp ha
  obtain ⟨hproblem, htagged⟩ := hreports x hx
  have hfirst : a.firstDiagnostic? = some x := by
    rw [CodeAction.firstDiagnostic?, diagnostics_of_mem_listedWith hlisted]
    rfl
  obtain ⟨-, -, e, payload, edit?, s₃, he, hpayload, hresolve, hiff, hinserts⟩ :=
    resolveAction_insertion (fileAtTop "a.xml") 1 .utf16 _ choiceDocument rfl huri lastMatchSettings
      choiceBindings rfl choiceGrammars choiceStore choiceStore choiceStore offers_choice
      offers_choice offers_choice choiceReports after hdiagnostics choiceReports
        choiceActions after'
      hactions a ha x hx hfirst .requiredElementsMissing hproblem (by decide)
  rw [he] at htagged
  obtain ⟨edit, rfl⟩ := Option.isSome_iff_exists.mp
    (hiff.mpr (Bool.and_eq_true_iff.mp htagged))
  rw [hpayload] at hname
  exact ⟨huri, rfl, offers_choice, ⟨after, hdiagnostics⟩, ⟨after', hactions⟩, a, ha, x, hx, hfirst,
    hproblem, e, payload, edit, s₃, hpayload, Option.some.inj hname, hresolve, hinserts edit rfl⟩

end XmlAdvisor
