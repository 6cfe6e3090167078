import XmlAdvisor.Advice.Advisor
import XmlAdvisor.Proofs.OfferedGrammars

/-!
# What is listed and resolved

Listing and resolving actions are requests, since both ask for the grammars of the document.  With
the grammars given, what is listed for a diagnostic and what edit an action gets are values of their
own, and the requests give just these from any store that offers the grammars.

What fails in between, other than by being given up, leaves an action out or as it was.

* `ActionContext.insertionsWith`, `listedWith` — what is listed for a diagnostic.
* `DuplicatePolicy.preferred`, `ActionContext.insertionEdit` — the edit of an action.
* `Advisor.builtIn` — the advisor with the built-in participants and resolvers.
* **`reads_codeActions`**, **`reads_resolveAction`** — the requests give these values.
-/

namespace XmlAdvisor

/-! ## Failures that are not cancellations -/

section Recoverable

variable {α β : Type}

lemma recoverable_ok (a : α) : Recoverable (.ok a) := by
  rintro ⟨⟩

lemma recoverable_error {e : RequestError} (h : e ≠ .cancelled) :
    Recoverable (.error e : Except RequestError α) := by
  rintro ⟨⟩
  exact h rfl

lemma Recoverable.bind {v : Except RequestError α} {f : α → Except RequestError β}
    (hv : Recoverable v) (hf : ∀ a, Recoverable (f a)) : Recoverable (v >>= f) := by
  cases v with
  | error e =>
      refine recoverable_error ?_
      rintro rfl
      exact hv rfl
  | ok a => exact hf a

lemma recoverable_orBadLocation (v : Except PlaceError α) : Recoverable (orBadLocation v) := by
  cases v with
  | error e => exact recoverable_error (by rintro ⟨⟩)
  | ok a => exact recoverable_ok _

lemma recoverable_elementOf (d : Document) (x : Diagnostic) : Recoverable (d.elementOf x) :=
  (recoverable_orBadLocation _).bind fun _ => recoverable_ok _

lemma recoverable_replacing (d : Document) (range : Range) (text : String) :
    Recoverable (d.replacing range text) := by
  rw [Document.replacing]
  split_ifs
  · exact recoverable_ok _
  · exact recoverable_error (by rintro ⟨⟩)

lemma recoverable_payload (a : CodeAction) : Recoverable a.payload := by
  rw [CodeAction.payload]
  split
  · exact recoverable_error (by rintro ⟨⟩)
  · split
    · exact recoverable_ok _
    · exact recoverable_error (by rintro ⟨⟩)

lemma recoverable_attributeInsertions (d : Document) (x : Diagnostic) :
    Recoverable (attributeInsertions d x) := by
  rw [attributeInsertions]
  split
  · exact recoverable_ok _
  · refine (recoverable_elementOf d x).bind fun found => ?_
    cases found with
    | none => exact recoverable_ok _
    | some e =>
        dsimp only
        split_ifs
        · exact recoverable_ok _
        · exact (recoverable_orBadLocation _).bind fun _ =>
            (recoverable_replacing _ _ _).bind fun _ => recoverable_ok _

lemma recoverable_insertionPlace (d : Document) (a : CodeAction) :
    Recoverable (insertionPlace d a) := by
  refine (recoverable_payload a).bind fun payload => ?_
  split
  · exact recoverable_error (by rintro ⟨⟩)
  · split_ifs
    · exact recoverable_ok _
    · refine (recoverable_elementOf d _).bind fun found => ?_
      cases found with
      | none => exact recoverable_ok _
      | some e =>
          dsimp only
          split_ifs
          · exact recoverable_ok _
          · exact recoverable_ok _

end Recoverable

/-! ## Listing with the grammars given -/

namespace ActionContext

variable (cx : ActionContext) (gs : List Grammar)

/-- The names of the alternatives in an element, from the grammars at a location or from all. -/
def alternativeNamesWith (e : ElementNode) (grammarUri : Option String) : List String :=
  distinctBy id (gs.flatMap fun g =>
    if grammarUri.all (· = g.uri.text) then
      (g.alternativesIn cx.document.toTree e).map Declaration.localName
    else [])

/-- The names that actions for a diagnostic insert. -/
def namesWith (x : Diagnostic) (parent : String) : Except RequestError (List String) :=
  match x.dataText? "elementLocalName" with
  | some name => .ok [name]
  | none => do
    match ← cx.document.elementOf x with
    | none => return []
    | some e =>
      if e.element.localName = parent then
        return cx.alternativeNamesWith gs e (x.dataText? "grammarUri")
      else return []

/-- The insertions of missing elements for a diagnostic. -/
def insertionsWith (x : Diagnostic) : Except RequestError (List CodeAction) :=
  match x.problem?, x.dataText? "parentLocalName" with
  | some problem, some parent => do
    let names ← cx.namesWith gs x parent
    return names.map
      (insertElementAction cx.document.url.text parent problem x (names.length == 1))
  | _, _ => .ok []

/-- What the built-in participants list for a diagnostic. -/
def listedWith (x : Diagnostic) : List CodeAction :=
  match x.problem? with
  | none => []
  | some problem =>
    (if insertElementParticipant.problems.contains problem then
      (cx.insertionsWith gs x).toOption.getD []
    else []) ++
    if insertAttributeParticipant.problems.contains problem then
      (attributeInsertions cx.document x).toOption.getD []
    else []

end ActionContext

section Listing

variable {P : GrammarStore → Prop} {cx : ActionContext} {gs : List Grammar}

lemma recoverable_namesWith (x : Diagnostic) (parent : String) :
    Recoverable (cx.namesWith gs x parent) := by
  rw [ActionContext.namesWith]
  split
  · exact recoverable_ok _
  · refine (recoverable_elementOf _ x).bind fun found => ?_
    cases found with
    | none => exact recoverable_ok _
    | some e =>
        dsimp only
        split_ifs
        · exact recoverable_ok _
        · exact recoverable_ok _

lemma recoverable_insertionsWith (x : Diagnostic) : Recoverable (cx.insertionsWith gs x) := by
  rw [ActionContext.insertionsWith]
  split
  · exact (recoverable_namesWith x _).bind fun _ => recoverable_ok _
  · exact recoverable_ok _

/-- A participant lists what its list gives, and nothing where that fails. -/
lemma reads_offer (p : Participant) (problem : ProblemCode) {x : Diagnostic}
    {v : Except RequestError (List CodeAction)} (hlist : Reads P (p.list cx x) v)
    (hv : Recoverable v) : Reads P (p.offer cx problem x)
      (.ok (if p.problems.contains problem then v.toOption.getD [] else [])) := by
  rw [Participant.offer]
  split_ifs
  · exact .orElseValue _ hlist hv
  · exact .pure _

variable (happlicable : Reads P (cx.bindings.applicable cx.document) (.ok gs))
include happlicable

lemma reads_alternativeNames (e : ElementNode) (grammarUri : Option String) :
    Reads P (alternativeNames cx e grammarUri) (.ok (cx.alternativeNamesWith gs e grammarUri)) := by
  refine .andThen happlicable (.andThen (.flatMapM fun g _ => ?_) (.pure _))
  refine .andThen .check ?_
  split_ifs
  · exact .pure _
  · exact .pure _

lemma reads_namesToInsert (x : Diagnostic) (parent : String) :
    Reads P (namesToInsert cx x parent) (cx.namesWith gs x parent) := by
  rw [namesToInsert, ActionContext.namesWith]
  cases x.dataText? "elementLocalName" with
  | some name => exact .pure _
  | none =>
      refine .alongside (.ofExcept _) fun found => ?_
      cases found with
      | none => exact .pure _
      | some e =>
          dsimp only
          split_ifs
          · exact reads_alternativeNames happlicable e _
          · exact .pure _

lemma reads_listInsertions (x : Diagnostic) :
    Reads P (listInsertions cx x) (cx.insertionsWith gs x) := by
  rw [listInsertions, ActionContext.insertionsWith]
  cases x.problem? with
  | none => exact .pure _
  | some problem =>
      cases x.dataText? "parentLocalName" with
      | none => exact .pure _
      | some parent =>
          exact .alongside (reads_namesToInsert happlicable x parent) fun names => .pure _

/-- What is listed for one diagnostic. -/
lemma reads_offers {problem : ProblemCode} {x : Diagnostic} (hproblem : x.problem? = some problem) :
    Reads P (Request.flatMapM (·.offer cx problem x) Advisor.defaultParticipants)
      (.ok (cx.listedWith gs x)) := by
  have helement := reads_offer insertElementParticipant problem
    (reads_listInsertions happlicable x) (recoverable_insertionsWith x)
  have hattribute : Reads P (insertAttributeParticipant.offer cx problem x) _ :=
    reads_offer insertAttributeParticipant problem (.ofExcept (attributeInsertions cx.document x))
      (recoverable_attributeInsertions cx.document x)
  have hboth : Reads P (Request.flatMapM (·.offer cx problem x) Advisor.defaultParticipants) _ :=
    .andThen helement (.andThen (.andThen hattribute (.andThen (.pure []) (.pure _))) (.pure _))
  rw [List.append_nil] at hboth
  rw [ActionContext.listedWith, hproblem]
  exact hboth

lemma reads_listActions (xs : List Diagnostic) :
    Reads P (listActions Advisor.defaultParticipants cx xs)
      (.ok (xs.flatMap (cx.listedWith gs))) := by
  refine .flatMapM fun x _ => .andThen .check ?_
  cases hproblem : x.problem? with
  | some problem => exact reads_offers happlicable hproblem
  | none =>
      rw [ActionContext.listedWith, hproblem]
      exact .pure _

end Listing

/-! ## Edits with the grammars given -/

/-- The alternative with a name from the grammar that the policy prefers. -/
def DuplicatePolicy.preferred (policy : DuplicatePolicy) (gs : List Grammar) (t : Tree)
    (e : ElementNode) (name : String) : Option Declaration :=
  match policy with
  | .firstMatch => gs.findSome? fun g => g.alternativeNamed? t e name
  | .lastMatch => gs.reverse.findSome? fun g => g.alternativeNamed? t e name

namespace ActionContext

variable (cx : ActionContext) (gs : List Grammar)

/-- The edit that inserts a missing element. -/
def insertionEdit (a : CodeAction) : Except RequestError (Option WorkspaceEdit) := do
  match ← insertionPlace cx.document a with
  | none => return none
  | some (e, span, payload) =>
    let range ← orBadLocation (cx.document.rangeAt span)
    match cx.settings.codeAction.duplicateAlternative.preferred gs cx.document.toTree e
        payload.elementLocalName with
    | none => return none
    | some decl =>
      let text := decl.insertion cx.settings.layout {} 1 none cx.settings.codeAction.snippetEdits
      some <$> cx.document.replacing range text

/-- The action with the edit of the built-in resolvers. -/
def resolvedWith (a : CodeAction) : CodeAction :=
  if a.problem?.any missingElementProblems.contains then
    match (cx.insertionEdit gs a).toOption.getD none with
    | some edit => { a with edit := some edit }
    | none => a
  else a

end ActionContext

section Resolving

variable {P : GrammarStore → Prop} {cx : ActionContext} {gs : List Grammar}

lemma recoverable_insertionEdit (a : CodeAction) : Recoverable (cx.insertionEdit gs a) := by
  refine (recoverable_insertionPlace _ a).bind fun found => ?_
  cases found with
  | none => exact recoverable_ok _
  | some place =>
      refine (recoverable_orBadLocation _).bind fun range => ?_
      split
      · exact recoverable_ok _
      · rw [map_eq_pure_bind]
        exact (recoverable_replacing _ _ _).bind fun _ => recoverable_ok _

/-- The choice among grammars prefers the first or the last one with the name; what was found before
them stands in for none. -/
lemma reads_chooseAlternative (policy : DuplicatePolicy) (t : Tree) (e : ElementNode)
    (name : String)
    (found : Option Declaration) :
    Reads P (chooseAlternative policy t e name found gs)
      (.ok ((policy.preferred gs t e name).or found)) := by
  induction gs generalizing found with
  | nil => cases policy <;> exact .pure _
  | cons g more ih =>
      refine .andThen .check ?_
      cases hg : g.alternativeNamed? t e name with
      | none =>
          have hsame : policy.preferred (g :: more) t e name = policy.preferred more t e name := by
            cases policy <;> simp [DuplicatePolicy.preferred, hg]
          rw [hsame]
          exact ih found
      | some decl =>
          cases policy with
          | firstMatch =>
              rw [DuplicatePolicy.preferred, List.findSome?_cons, hg]
              exact .pure _
          | lastMatch =>
              -- what is found goes along, and gives way to what a later grammar has
              have hlast : (DuplicatePolicy.lastMatch.preferred (g :: more) t e name).or found =
                  (DuplicatePolicy.lastMatch.preferred more t e name).or (some decl) := by
                simp [DuplicatePolicy.preferred, hg]
              rw [hlast]
              exact ih (some decl)

/-- The built-in resolvers are for missing elements. -/
lemma lookup_defaultRegistry (problem : ProblemCode) :
    List.lookup problem Advisor.defaultRegistry =
      if missingElementProblems.contains problem then some resolveInsertion else none := by
  cases problem <;> rfl

variable (happlicable : Reads P (cx.bindings.applicable cx.document) (.ok gs))
include happlicable

lemma reads_resolveInsertion (a : CodeAction) :
    Reads P (resolveInsertion cx a) (cx.insertionEdit gs a) := by
  refine .alongside (.ofExcept _) fun found => ?_
  cases found with
  | none => exact .pure _
  | some place =>
      refine .alongside (.ofExcept _) fun range => .andThen happlicable ?_
      refine .andThen (reads_chooseAlternative _ _ _ _ none) ?_
      rw [Option.or_none]
      cases cx.settings.codeAction.duplicateAlternative.preferred gs cx.document.toTree place.1
          place.2.2.elementLocalName with
      | none => exact .pure _
      | some decl =>
          refine .andThen .check ?_
          dsimp only
          rw [map_eq_pure_bind, map_eq_pure_bind]
          exact .alongside (.ofExcept _) fun edit => .pure _

lemma reads_resolve (a : CodeAction) :
    Reads P (Registry.resolve Advisor.defaultRegistry cx a) (.ok (cx.resolvedWith gs a)) := by
  rw [Registry.resolve, ActionContext.resolvedWith]
  cases a.problem? with
  | none => exact .pure _
  | some problem =>
      rw [Option.bind_some, lookup_defaultRegistry, Option.any_some]
      split_ifs
      · refine .andThen (.orElseValue _ (reads_resolveInsertion happlicable a)
          (recoverable_insertionEdit a)) ?_
        cases (cx.insertionEdit gs a).toOption.getD none with
        | none => exact .pure _
        | some edit => exact .pure _
      · exact .pure _

end Resolving

/-! ## The advisor -/

namespace Advisor

/-- The advisor with the built-in participants and resolvers. -/
def builtIn (settings : Settings) (bindings : Bindings) : Advisor :=
  ⟨settings, bindings, defaultParticipants, defaultRegistry⟩

variable {P : GrammarStore → Prop} {b : Bindings} {d : Document} {gs : List Grammar}

/-- The actions for diagnostics, with the grammars given. -/
def actionsWith (a : Advisor) (d : Document) (gs : List Grammar) (xs : List Diagnostic) :
    List CodeAction :=
  let listed := xs.flatMap ((a.context d).listedWith gs)
  if a.settings.codeAction.resolveSupport then listed
  else listed.map ((a.context d).resolvedWith gs)

lemma reads_diagnostics (settings : Settings) (hquiet : b.supply.interruptedAt = none)
    (hd : d.toTree.Nests) : Reads (b.Offers d gs) ((builtIn settings b).diagnostics d)
      (d.diagnosticsWith settings.validation gs) :=
  XmlAdvisor.reads_diagnostics hquiet hd settings.validation gs

section

variable (happlicable : Reads P (b.applicable d) (.ok gs))
include happlicable

/-- What is worked out in the context of a document reads the grammars of the document. -/
lemma reads_context (settings : Settings) : Reads P
    (((builtIn settings b).context d).bindings.applicable
      ((builtIn settings b).context d).document) (.ok gs) :=
  happlicable

/-- **An action is resolved as the grammars tell.** -/
theorem reads_resolveAction (settings : Settings) (a : CodeAction) :
    Reads P ((builtIn settings b).resolveAction d a)
      (.ok (((builtIn settings b).context d).resolvedWith gs a)) :=
  reads_resolve (reads_context happlicable settings) a

/-- **Actions are listed as the grammars tell**, and resolved if the editor cannot ask for that. -/
theorem reads_codeActions (settings : Settings) (xs : List Diagnostic) :
    Reads P ((builtIn settings b).codeActions d xs)
      (.ok ((builtIn settings b).actionsWith d gs xs)) := by
  refine .andThen (reads_listActions (reads_context happlicable settings) xs) ?_
  rw [actionsWith]
  split_ifs
  · exact .pure _
  · exact .mapM fun a _ => reads_resolveAction happlicable settings a

end

end Advisor

end XmlAdvisor
