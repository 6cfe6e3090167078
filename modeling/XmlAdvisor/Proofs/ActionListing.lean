import XmlAdvisor.Proofs.ActionRequests
import XmlAdvisor.Proofs.Alternatives
import XmlAdvisor.Proofs.IncompleteReports

/-!
# The actions for incomplete content

What is reported about incomplete content carries enough for the actions that repair it.

**Where to insert.**  The report leads back to its element (`IsReport.elementOf`), and there to the
declaration that the validation had (`alternativesIn_of_mem_visited`).

**What to insert.**  A report of one alternative names it, a report of several names the grammar.
If the grammars are at different locations, the actions are for the alternatives of just that
grammar (`listedWith_several`); in any case some grammar has the alternative of each action
(`mem_listedWith`).

* **`codeActions_of_several`** — one action is listed for each alternative of the grammar that
  reports.
-/

namespace XmlAdvisor

open Grammar

variable {d : Document} {g : Grammar} {v : Visit} {gs : List Grammar} {x : Diagnostic}

/-! ## Alternatives -/

/-- Whether a grammar has an alternative with a name in an element. -/
def Grammar.HasAlternative (g : Grammar) (t : Tree) (e : ElementNode) (name : String) : Prop :=
  name ∈ (g.alternativesIn t e).map Declaration.localName

lemma alternativesIn_of_mem_visited (hd : d.toTree.Nests) (hv : v ∈ g.visited d) :
    g.alternativesIn d.toTree v.element = v.alternatives d.toTree := by
  rw [alternativesIn, declarationOf?_of_mem_visited hd hv]
  rfl

/-- Of grammars at different locations, a location leaves one. -/
lemma flatMap_atLocation {β : Type} (hapart : gs.Pairwise fun g h => g.uri.text ≠ h.uri.text)
    (hg : g ∈ gs) (f : Grammar → List β) :
    (gs.flatMap fun h => if (some g.uri.text).all (· = h.uri.text) then f h else []) = f g := by
  induction gs with
  | nil => cases hg
  | cons h more ih =>
      obtain ⟨hhead, htail⟩ := List.pairwise_cons.mp hapart
      rw [List.flatMap_cons]
      rcases List.mem_cons.mp hg with rfl | hg
      · have hnone : (more.flatMap fun h =>
            if (some g.uri.text).all (· = h.uri.text) then f h else []) = [] := by
          refine List.flatMap_eq_nil_iff.mpr fun h hh => if_neg ?_
          simpa using hhead h hh
        rw [hnone, List.append_nil, if_pos (by simp)]
      · have hother : h.uri.text ≠ g.uri.text := hhead g hg
        rw [ih htail hg, if_neg (by simpa using hother.symm), List.nil_append]

/-! ## What is listed for a report -/

/-- Problems that inserting an element repairs are about incomplete content. -/
lemma isIncompleteness_of_missing {problem : ProblemCode} (hproblem : x.problem? = some problem)
    (hmissing : problem ∈ missingElementProblems) : x.isIncompleteness = true := by
  rw [Diagnostic.isIncompleteness, hproblem]
  rcases List.mem_cons.mp hmissing with rfl | hsingle
  · rfl
  · rw [List.mem_singleton.mp hsingle]
    rfl

section Listed

variable {cx : ActionContext}

/-- What is listed for a missing element are the actions that insert the names for it. -/
lemma listedWith_eq {problem : ProblemCode} (hproblem : x.problem? = some problem)
    (hmissing : problem ∈ missingElementProblems) {parent : String}
    (hparent : x.dataText? "parentLocalName" = some parent) {names : List String}
    (hnames : cx.namesWith gs x parent = .ok names) :
    cx.listedWith gs x = names.map
      (insertElementAction cx.document.url.text parent problem x (names.length == 1)) := by
  have hinsertions : cx.insertionsWith gs x = .ok (names.map
      (insertElementAction cx.document.url.text parent problem x (names.length == 1))) := by
    rw [ActionContext.insertionsWith, hproblem, hparent]
    dsimp only
    rw [hnames]
    rfl
  have helement : insertElementParticipant.problems.contains problem = true :=
    List.contains_iff_mem.mpr hmissing
  have hattribute : insertAttributeParticipant.problems.contains problem = false := by
    rcases List.mem_cons.mp hmissing with rfl | hmissing
    · rfl
    · rw [List.mem_singleton.mp hmissing]
      rfl
  rw [ActionContext.listedWith, hproblem]
  dsimp only
  rw [if_pos helement, hattribute, hinsertions]
  exact List.append_nil _

section

variable (hd : cx.document.toTree.Nests) (hv : v ∈ g.visited cx.document)
  (hx : g.IsReport cx.document v x)
include hx

lemma namesWith_single (gs : List Grammar) (hproblem : x.problem? = some .requiredElementMissing) :
    ∃ only, v.alternatives cx.document.toTree = [only] ∧
      cx.namesWith gs x v.element.element.localName = .ok [only.localName] := by
  obtain ⟨only, honly, -, hname⟩ := hx.dataText?_single hproblem
  refine ⟨only, honly, ?_⟩
  rw [ActionContext.namesWith, hname]

include hd hv

lemma namesWith_several (hproblem : x.problem? = some .requiredElementsMissing) :
    cx.namesWith gs x v.element.element.localName =
      .ok (cx.alternativeNamesWith gs v.element (some g.uri.text)) := by
  obtain ⟨-, huri, hname, -⟩ := hx.dataText?_several hproblem
  rw [ActionContext.namesWith, hname]
  dsimp only
  rw [hx.elementOf hd (element?_of_mem_visited hv), huri]
  exact if_pos rfl

/-- Each action for a report inserts into its element an alternative that some grammar has there. -/
lemma mem_listedWith {problem : ProblemCode} (hg : g ∈ gs) (hproblem : x.problem? = some problem)
    (hmissing : problem ∈ missingElementProblems) {a : CodeAction} (ha : a ∈ cx.listedWith gs x) :
    ∃ isOnly name, a = insertElementAction cx.document.url.text
      v.element.element.localName problem x
        isOnly name ∧
      ∃ h ∈ gs, h.HasAlternative cx.document.toTree v.element name := by
  rcases List.mem_cons.mp hmissing with rfl | hsingle
  · obtain ⟨hparent, -, -, -⟩ := hx.dataText?_several hproblem
    rw [listedWith_eq hproblem hmissing hparent (namesWith_several hd hv hx hproblem)] at ha
    obtain ⟨name, hname, rfl⟩ := List.mem_map.mp ha
    obtain ⟨h, hh, hname⟩ := List.mem_flatMap.mp (mem_of_mem_distinctBy hname)
    split_ifs at hname
    · exact ⟨_, name, rfl, h, hh, hname⟩
    · cases hname
  · rw [List.mem_singleton.mp hsingle] at hproblem hmissing ⊢
    obtain ⟨-, -, hparent, -⟩ := hx.dataText?_single hproblem
    obtain ⟨only, honly, hnames⟩ := namesWith_single hx gs hproblem
    rw [listedWith_eq hproblem hmissing hparent hnames] at ha
    obtain ⟨name, hname, rfl⟩ := List.mem_map.mp ha
    refine ⟨_, name, rfl, g, hg, ?_⟩
    rw [HasAlternative, alternativesIn_of_mem_visited hd hv, honly]
    exact hname

end

/-- For a report of several alternatives, grammars at other locations than the one that reports have
no part in what is listed. -/
lemma listedWith_several (hd : cx.document.toTree.Nests) (hv : v ∈ g.visited cx.document)
    (hx : g.IsReport cx.document v x) (hproblem : x.problem? = some .requiredElementsMissing)
    (hapart : gs.Pairwise fun g h => g.uri.text ≠ h.uri.text) (hg : g ∈ gs) :
    ∃ isOnly, cx.listedWith gs x =
      ((v.alternatives cx.document.toTree).map Declaration.localName).eraseDups.map
        (insertElementAction cx.document.url.text v.element.element.localName
          .requiredElementsMissing x isOnly) := by
  have hnames : cx.alternativeNamesWith gs v.element (some g.uri.text) =
      ((v.alternatives cx.document.toTree).map Declaration.localName).eraseDups := by
    rw [ActionContext.alternativeNamesWith, distinctBy_id, flatMap_atLocation hapart hg,
      alternativesIn_of_mem_visited hd hv]
  obtain ⟨hparent, -, -, -⟩ := hx.dataText?_several hproblem
  have hwith : cx.namesWith gs x v.element.element.localName = _ :=
    namesWith_several hd hv hx hproblem
  rw [hnames] at hwith
  exact ⟨_, listedWith_eq hproblem (List.mem_cons_self ..) hparent hwith⟩

end Listed

/-! ## Resolved actions -/

section Resolved

variable {cx : ActionContext}

lemma resolvedWith_diagnostics (a : CodeAction) :
    (cx.resolvedWith gs a).diagnostics = a.diagnostics := by
  rw [ActionContext.resolvedWith]
  split_ifs
  · split <;> rfl
  · rfl

lemma resolvedWith_data (a : CodeAction) : (cx.resolvedWith gs a).data = a.data := by
  rw [ActionContext.resolvedWith]
  split_ifs
  · split <;> rfl
  · rfl

/-- Resolving an action leaves its payload. -/
lemma resolvedWith_payload (a : CodeAction) : (cx.resolvedWith gs a).payload = a.payload := by
  rw [CodeAction.payload, resolvedWith_data]
  rfl

end Resolved

/-! ## Requests -/

lemma nests_of_eq_parse {url : Url} {version : Int} {unit : ColumnUnit} {text : List Char}
    (hd : d = Document.parse url version unit text) : d.toTree.Nests :=
  hd ▸ Tree.parse_nests text

/-- Whether an editor asks for edits later or gets them at once, each action for a diagnostic
carries the diagnostic, and what resolving needs to know. -/
lemma forall₂_actionsWith {a : Advisor} {names : List String} {parent : String}
    {problem : ProblemCode} {isOnly : Bool} (hlisted : (a.context d).listedWith gs x =
      names.map (insertElementAction d.url.text parent problem x isOnly)) :
    List.Forall₂ (fun name action => action.diagnostics = some [x] ∧
      action.payload = .ok ⟨problem.name, d.url.text, parent, name⟩) names
      (a.actionsWith d gs [x]) := by
  rw [Advisor.actionsWith, List.flatMap_singleton, hlisted]
  split_ifs
  · rw [List.forall₂_map_right_iff]
    exact List.forall₂_same.mpr fun name _ => ⟨rfl, rfl⟩
  · rw [List.map_map, List.forall₂_map_right_iff]
    refine List.forall₂_same.mpr fun name _ => ?_
    rw [Function.comp_apply, resolvedWith_diagnostics, resolvedWith_payload]
    exact ⟨rfl, rfl⟩

/-- The diagnostics of a document, with the grammars that a store offers. -/
lemma diagnosticsWith_of_runFrom {b : Bindings} (hquiet : b.supply.interruptedAt = none)
    (hd : d.toTree.Nests) {settings : Settings} {s : GrammarStore} (hs : b.Offers d gs s)
    {ds : List Diagnostic} {after : RequestState}
    (h : ((Advisor.builtIn settings b).diagnostics d).runFrom ⟨s, .never⟩ = (.ok ds, after)) :
    d.diagnosticsWith settings.validation gs = .ok ds ∧ b.Offers d gs after.store := by
  obtain ⟨s', hrun, hs'⟩ := Advisor.reads_diagnostics settings hquiet hd s hs
  rw [hrun, Prod.mk.injEq] at h
  obtain ⟨hvalue, rfl⟩ := h
  exact ⟨hvalue, hs'⟩

/-- **One action is listed for each alternative of the grammar that reports**, for none of another
grammar, and each element is reported at most once by a grammar: exactly if its content ends too
early. -/
theorem codeActions_of_several (url : Url) (version : Int) (unit : ColumnUnit) (text : List Char)
    (d : Document) (hd : d = Document.parse url version unit text) (settings : Settings)
    (b : Bindings) (hquiet : b.supply.interruptedAt = none) (gs : List Grammar)
    (hapart : gs.Pairwise fun g h => g.uri.text ≠ h.uri.text) (s₀ s₁ : GrammarStore)
    (h₀ : b.Offers d gs s₀) (h₁ : b.Offers d gs s₁) (ds : List Diagnostic) (after : RequestState)
    (hds : ((Advisor.builtIn settings b).diagnostics d).runFrom ⟨s₀, .never⟩ = (.ok ds, after)) :
    b.Offers d gs after.store ∧
    (∀ x ∈ ds, x.problem? = some .requiredElementsMissing →
      (∃ g ∈ gs, ∃ v ∈ g.visited d, x ∈ v.diagnostics g d) ∧
      ∀ g ∈ gs, ∀ v ∈ g.visited d, x ∈ v.diagnostics g d →
        g.declarationOf? d.toTree v.element = some v.declaration ∧
        ∃ actions s₂,
          ((Advisor.builtIn settings b).codeActions d [x]).runFrom ⟨s₁, .never⟩ =
            (.ok actions, ⟨s₂, .never⟩) ∧
          actions ≠ [] ∧
          List.Forall₂ (fun name a => a.diagnostics = some [x] ∧
              a.payload = .ok ⟨ProblemCode.requiredElementsMissing.name, url.text,
                v.element.element.localName, name⟩)
            ((v.declaration.alternatives (d.toTree.childElements v.element)).map
              Declaration.localName).eraseDups actions) ∧
    ∀ (g : Grammar) (s : GrammarStore), ∃ found,
      (g.validate d).runFrom ⟨s, .never⟩ = (.ok found, ⟨s, .never⟩) ∧
      (∀ x ∈ found, x.isIncompleteness → ∃ v ∈ g.visited d, d.isReportedOn v.element x) ∧
      ∀ v ∈ g.visited d,
        found.countP (fun x => d.isReportedOn v.element x && x.isIncompleteness) =
          if (v.declaration.checkContent (d.toTree.childElements v.element)).incomplete then 1
          else 0 := by
  have hnests := nests_of_eq_parse hd
  have hshaped : d.toTree.Shaped := hd ▸ Tree.parse_shaped text
  obtain ⟨hvalue, hafter⟩ := diagnosticsWith_of_runFrom hquiet hnests h₀ hds
  refine ⟨hafter, fun x hx hproblem => ?_, fun g s => ?_⟩
  · have hincomplete := isIncompleteness_of_missing hproblem (List.mem_cons_self ..)
    obtain ⟨g, hg, v, hv, hfound, -⟩ :=
      Document.exists_isReport_of_mem hshaped hvalue hx hincomplete
    refine ⟨⟨g, hg, v, hv, hfound⟩, fun g hg v hv hfound => ?_⟩
    have hreport := isReport_of_mem hshaped (element?_of_mem_visited hv) hfound hincomplete
    obtain ⟨-, -, -, hsome⟩ := hreport.dataText?_several hproblem
    have hlisted : ∃ isOnly, ((Advisor.builtIn settings b).context d).listedWith gs x = _ :=
      listedWith_several hnests hv hreport hproblem hapart hg
    obtain ⟨isOnly, hlisted⟩ := hlisted
    have hactions := forall₂_actionsWith hlisted
    have hnames : ((v.alternatives d.toTree).map Declaration.localName).eraseDups ≠ [] := by
      obtain ⟨only, honly⟩ := List.exists_mem_of_ne_nil _ hsome
      exact List.ne_nil_of_mem (List.mem_eraseDups.mpr (List.mem_map_of_mem honly))
    obtain ⟨s₂, hrun, -⟩ := Advisor.reads_codeActions (reads_applicable hquiet hnests gs)
      settings [x]
      s₁ h₁
    refine ⟨declarationOf?_of_mem_visited hnests hv, _, s₂, hrun, fun hnone => ?_, hd ▸ hactions⟩
    rw [hnone, List.forall₂_nil_right_iff] at hactions
    exact hnames hactions
  · obtain ⟨_, hrun, rfl⟩ := reads_validate g s rfl (P := (· = s))
    refine ⟨g.findings d, hrun, fun x hx hincomplete => ?_, fun v hv => ?_⟩
    · obtain ⟨v, hv, -, hreport⟩ := exists_visited_of_mem_findings hshaped hx hincomplete
      exact ⟨v, hv, decide_eq_true (hreport.elementOf hnests (element?_of_mem_visited hv))⟩
    · exact countP_findings hnests hshaped hv

/-- A schema for an element that needs a child with one of two names. -/
def Schema.choiceOf (first second : String) : Schema where
  patterns := #[.empty, .element (.name "" first) 0 none, .empty, .element (.name "" second) 2 none,
    .choice [1, 3], .element (.name "" "a") 4 none]
  definitions := #[]
  start := 5

/-- Two schemas that share one of their choices. -/
def choiceGrammars : List Grammar :=
  [.relaxNg (fileAtTop "a.rng") (.choiceOf "b" "c"),
    .relaxNg (fileAtTop "b.rng") (.choiceOf "d" "b")]

/-- A store that keeps the two schemas. -/
def choiceStore : GrammarStore :=
  ⟨choiceGrammars.map fun g => ⟨⟨g.uri, none⟩, "1", g⟩, 0⟩

/-- Bindings with a supply that tells the fingerprints under which the schemas are kept. -/
def choiceBindings : Bindings :=
  ⟨{ fetch := fun uri => .error (.unknownLocation uri), told := fun _ => some "1" }, []⟩

/-- A document that is bound to both schemas and has nothing in its document element. -/
def choiceDocument : Document :=
  .parse (fileAtTop "a.xml") 1 .utf16
    "<?xml-model href='a.rng'?><?xml-model href='b.rng'?><a></a>".toList

/-- What the schemas report about the document. -/
def choiceReports : List Diagnostic :=
  (choiceDocument.diagnosticsWith {} choiceGrammars).toOption.getD []

lemma offers_choice : choiceBindings.Offers choiceDocument choiceGrammars choiceStore :=
  rfl

lemma runFrom_choiceReports (settings : Settings) (h : settings.validation = {}) :
    ∃ after, ((Advisor.builtIn settings choiceBindings).diagnostics choiceDocument).runFrom
      ⟨choiceStore, .never⟩ = (.ok choiceReports, after) := by
  obtain ⟨s, hrun, -⟩ := Advisor.reads_diagnostics settings rfl
    (nests_of_eq_parse choiceDocument.eq_1) choiceStore offers_choice
  have hsome : (choiceDocument.diagnosticsWith {} choiceGrammars).toOption.isSome := by
    decide +kernel
  refine ⟨⟨s, .never⟩, ?_⟩
  rw [hrun, h, choiceReports]
  cases hfound : choiceDocument.diagnosticsWith {} choiceGrammars with
  | error e =>
      rw [hfound] at hsome
      cases hsome
  | ok ds => rfl

theorem codeActions_of_several_choice :
    choiceBindings.supply.interruptedAt = none ∧
    (choiceGrammars.Pairwise fun g h => g.uri.text ≠ h.uri.text) ∧
    choiceBindings.Offers choiceDocument choiceGrammars choiceStore ∧
    (∃ after, ((Advisor.builtIn {} choiceBindings).diagnostics choiceDocument).runFrom
      ⟨choiceStore, .never⟩ = (.ok choiceReports, after)) ∧
    choiceReports.map Diagnostic.problem? =
      [some .requiredElementsMissing, some .requiredElementsMissing] ∧
    ∀ x ∈ choiceReports, ∃ g ∈ choiceGrammars, ∃ v ∈ g.visited choiceDocument,
      x ∈ v.diagnostics g choiceDocument ∧ ∃ actions s₂,
        ((Advisor.builtIn {} choiceBindings).codeActions choiceDocument [x]).runFrom
          ⟨choiceStore, .never⟩ = (.ok actions, ⟨s₂, .never⟩) ∧
        actions ≠ [] ∧
        List.Forall₂ (fun name a => a.diagnostics = some [x] ∧
            a.payload = .ok ⟨ProblemCode.requiredElementsMissing.name, (fileAtTop "a.xml").text,
              v.element.element.localName, name⟩)
          ((v.declaration.alternatives (choiceDocument.toTree.childElements v.element)).map
            Declaration.localName).eraseDups actions := by
  have hapart : choiceGrammars.Pairwise fun g h => g.uri.text ≠ h.uri.text := by decide +kernel
  have hproblems : choiceReports.map Diagnostic.problem? =
      [some .requiredElementsMissing, some .requiredElementsMissing] := by decide +kernel
  obtain ⟨after, hrun⟩ := runFrom_choiceReports {} rfl
  refine ⟨rfl, hapart, offers_choice, ⟨after, hrun⟩, hproblems, fun x hx => ?_⟩
  obtain ⟨-, hlisting, -⟩ :=
    codeActions_of_several (fileAtTop "a.xml") 1 .utf16 _ choiceDocument rfl {}
    choiceBindings rfl choiceGrammars hapart choiceStore choiceStore offers_choice offers_choice
    choiceReports after hrun
  have hproblem : x.problem? = some .requiredElementsMissing := by
    have hmem := List.mem_map_of_mem (f := Diagnostic.problem?) hx
    rw [hproblems] at hmem
    simpa using hmem
  obtain ⟨⟨g, hg, v, hv, hfound⟩, hall⟩ := hlisting x hx hproblem
  exact ⟨g, hg, v, hv, hfound, (hall g hg v hv hfound).2⟩

end XmlAdvisor
