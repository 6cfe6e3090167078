import XmlAdvisor.Advice.Fix
import XmlAdvisor.Advice.Hover
import XmlAdvisor.Proofs.ActionRequests

/-!
# Requests that are given up

A request that is given up gives nothing at all.  However many of its looks for a cancellation pass,
and wherever loading a grammar gives it up, what it gives is what it would have given undisturbed,
or it fails as given up.

**Two runs** from the same store are compared, one that may be given up at any time and one that is
not.  Up to the look at which the first one ends, both do the same.  Failures are passed over in
many places, but never that of a request that is given up.

* `Bindings.quiet` — bindings with a supply that gives no request up.
* `AllOrNothing` — the relation between the two runs, with one rule for each way to put requests
  together.
* **`requests_allOrNothing`** — every request to an advisor gives all or nothing.
-/

namespace XmlAdvisor

/-- The bindings without a location whose loading gives a request up. -/
def Bindings.quiet (b : Bindings) : Bindings :=
  { b with supply := { b.supply with interruptedAt := none } }

/-! ## Requests that fail as given up -/

namespace Request

variable {α β : Type} {r : Request α} {s : RequestState}

lemma runFrom_bind_cancelled (f : α → Request β) (h : (r.runFrom s).1 = .error .cancelled) :
    ((r >>= f).runFrom s).1 = .error .cancelled := by
  rw [runFrom_bind]
  generalize r.runFrom s = result at h ⊢
  obtain ⟨v, s'⟩ := result
  dsimp only at h
  rw [h]

/-- Nothing stands in for a request that was given up. -/
lemma runFrom_orElseValue_cancelled (value : α) (h : (r.runFrom s).1 = .error .cancelled) :
    ((r.orElseValue value).runFrom s).1 = .error .cancelled := by
  simp only [runFrom, ExceptT.run, StateT.run] at h
  simp only [orElseValue, runFrom, ExceptT.run, StateT.run, tryCatch, tryCatchThe,
    MonadExceptOf.tryCatch, ExceptT.tryCatch, ExceptT.mk, bind, StateT.bind]
  generalize r s = result at h ⊢
  obtain ⟨v, s'⟩ := result
  dsimp only at h ⊢
  rw [h]
  rfl

end Request

/-! ## All or nothing -/

/-- Whether a request that may be given up at any time fails as given up, or does what another
request does that is not given up. -/
def AllOrNothing {α : Type} (m calm : Request α) : Prop :=
  ∀ s : GrammarStore, ∃ (v : Except RequestError α) (s' : GrammarStore), Recoverable v ∧
    calm.runFrom ⟨s, .never⟩ = (v, ⟨s', .never⟩) ∧
    ∀ c : Cancellation, (m.runFrom ⟨s, c⟩).1 = .error .cancelled ∨
      ∃ c', m.runFrom ⟨s, c⟩ = (v, ⟨s', c'⟩)

namespace AllOrNothing

variable {α β : Type} {m calm : Request α}

lemma pure (a : α) : AllOrNothing (Pure.pure a) (Pure.pure a) :=
  fun s => ⟨.ok a, s, recoverable_ok a, rfl, fun c => .inr ⟨c, rfl⟩⟩

lemma ofExcept {v : Except RequestError α} (hv : Recoverable v) :
    AllOrNothing (Request.ofExcept v) (Request.ofExcept v) := by
  intro s
  refine ⟨v, s, hv, ?_, fun c => .inr ⟨c, ?_⟩⟩
  · cases v <;> rfl
  · cases v <;> rfl

lemma ofPlace (v : Except PlaceError α) :
    AllOrNothing (Request.ofPlace v) (Request.ofPlace v) :=
  .ofExcept (recoverable_orBadLocation v)

/-- A look either passes or ends the request. -/
lemma check : AllOrNothing Request.check Request.check := by
  intro s
  refine ⟨.ok (), s, recoverable_ok (), rfl, fun c => ?_⟩
  obtain ⟨passes⟩ := c
  cases passes with
  | none => exact .inr ⟨⟨none⟩, rfl⟩
  | some n =>
      cases n with
      | zero => exact .inl rfl
      | succ n => exact .inr ⟨⟨some n⟩, rfl⟩

/-- Loading a grammar is not cut short; if it gives the request up, that is noticed later. -/
lemma load (b : Bindings) (r : GrammarReference) : AllOrNothing (b.load r) (b.quiet.load r) := by
  intro s
  exact ⟨.ok (s.load b.supply r).result, (s.load b.supply r).store, recoverable_ok _,
    runFrom_load rfl r s, fun c => .inr ⟨_, rfl⟩⟩

/-- What a request goes on with is the same in both runs. -/
lemma bind {f calmf : α → Request β} (hm : AllOrNothing m calm)
    (hf : ∀ a, AllOrNothing (f a) (calmf a)) : AllOrNothing (m >>= f) (calm >>= calmf) := by
  intro s
  obtain ⟨v, s', hv, hcalm, hrun⟩ := hm s
  cases v with
  | error e =>
      have hne : e ≠ .cancelled := fun he => hv (congrArg Except.error he)
      refine ⟨.error e, s', recoverable_error hne, by rw [Request.runFrom_bind, hcalm], fun c => ?_⟩
      rcases hrun c with hcut | ⟨c', hrun⟩
      · exact .inl (Request.runFrom_bind_cancelled f hcut)
      · exact .inr ⟨c', by rw [Request.runFrom_bind, hrun]⟩
  | ok a =>
      obtain ⟨w, s'', hw, hcalm', hrun'⟩ := hf a s'
      refine ⟨w, s'', hw, by rw [Request.runFrom_bind, hcalm]; exact hcalm', fun c => ?_⟩
      rcases hrun c with hcut | ⟨c', hrun⟩
      · exact .inl (Request.runFrom_bind_cancelled f hcut)
      · rw [Request.runFrom_bind, hrun]
        exact hrun' c'

lemma map (f : α → β) (hm : AllOrNothing m calm) : AllOrNothing (f <$> m) (f <$> calm) := by
  rw [map_eq_pure_bind, map_eq_pure_bind]
  exact hm.bind fun a => .pure (f a)

/-- A value stands in for the same failures in both runs. -/
lemma orElseValue (value : α) (hm : AllOrNothing m calm) :
    AllOrNothing (m.orElseValue value) (calm.orElseValue value) := by
  intro s
  obtain ⟨v, s', hv, hcalm, hrun⟩ := hm s
  refine ⟨_, s', recoverable_ok (v.toOption.getD value),
    Request.runFrom_orElseValue value hcalm hv, fun c => ?_⟩
  rcases hrun c with hcut | ⟨c', hrun⟩
  · exact .inl (Request.runFrom_orElseValue_cancelled value hcut)
  · exact .inr ⟨c', Request.runFrom_orElseValue value hrun hv⟩

lemma ite {p : Prop} [Decidable p] {m' calm' : Request α} (hm : AllOrNothing m calm)
    (hm' : AllOrNothing m' calm') :
    AllOrNothing (if p then m else m') (if p then calm else calm') := by
  split_ifs
  · exact hm
  · exact hm'

lemma flatMapM {f calmf : α → Request (List β)} (hf : ∀ a, AllOrNothing (f a) (calmf a))
    (items : List α) : AllOrNothing (Request.flatMapM f items) (Request.flatMapM calmf items) := by
  induction items with
  | nil => exact .pure []
  | cons a items ih => exact (hf a).bind fun first => ih.bind fun rest => .pure _

lemma mapM {f calmf : α → Request β} (hf : ∀ a, AllOrNothing (f a) (calmf a)) (items : List α) :
    AllOrNothing (items.mapM f) (items.mapM calmf) := by
  induction items with
  | nil => exact .pure []
  | cons a items ih =>
      rw [List.mapM_cons, List.mapM_cons]
      exact (hf a).bind fun first => ih.bind fun rest => .pure _

end AllOrNothing

/-! ## Failures of edits and reports -/

section Recoverable

variable {α β : Type}

lemma recoverable_mapM {f : α → Except RequestError β} (hf : ∀ a, Recoverable (f a))
    (items : List α) : Recoverable (items.mapM f) := by
  induction items with
  | nil => exact recoverable_ok []
  | cons a items ih =>
      rw [List.mapM_cons]
      exact (hf a).bind fun first => ih.bind fun rest => recoverable_ok _

lemma recoverable_applyEdits (d : Document) (edits : List TextEdit) :
    Recoverable (d.applyEdits edits) := by
  refine (recoverable_mapM (fun e => ?_) edits).bind fun splices => ?_
  · exact (recoverable_orBadLocation _).bind fun span => recoverable_ok _
  · dsimp only
    split
    · exact recoverable_error (by rintro ⟨⟩)
    · exact recoverable_ok _

lemma recoverable_noGrammarDiagnostics (d : Document) (choice : NoGrammarSeverity) :
    Recoverable (d.noGrammarDiagnostics choice) := by
  rw [Document.noGrammarDiagnostics]
  split
  · exact (recoverable_orBadLocation _).bind fun range => recoverable_ok _
  · exact recoverable_ok _

end Recoverable

/-! ## The requests -/

section Requests

variable (b : Bindings) (d : Document)

lemma allOrNothing_loadAll (refs : List GrammarReference) :
    AllOrNothing (b.loadAll refs) (b.quiet.loadAll refs) :=
  .flatMapM (fun r => .bind .check fun _ => .bind (.load b r) fun _ => .pure _) refs

lemma allOrNothing_applicable : AllOrNothing (b.applicable d) (b.quiet.applicable d) :=
  .bind (allOrNothing_loadAll b _) fun _ => .bind .check fun _ => .pure _

lemma allOrNothing_validate (g : Grammar) : AllOrNothing (g.validate d) (g.validate d) := by
  rw [Grammar.validate]
  split
  · exact .pure _
  · split
    · exact .pure _
    · exact .flatMapM (fun v => .bind .check fun _ => .pure _) _

lemma allOrNothing_diagnostics (settings : ValidationSettings) :
    AllOrNothing (b.diagnostics settings d) (b.quiet.diagnostics settings d) := by
  refine .ite (.pure _) (.bind (allOrNothing_applicable b d) fun grammars => .ite ?_ ?_)
  · exact .bind (.ofExcept (recoverable_noGrammarDiagnostics d _)) fun _ => .pure _
  · exact .bind (.flatMapM (allOrNothing_validate d) grammars) fun _ => .pure _

lemma allOrNothing_hover (p : Position) : AllOrNothing (b.hover d p) (b.quiet.hover d p) := by
  refine .bind (.ofPlace _) fun offset => ?_
  split
  · exact .pure _
  · split
    · exact .pure _
    · refine .bind (allOrNothing_applicable b d) fun grammars => ?_
      refine .bind (.flatMapM (fun g => .bind .check fun _ => .pure _) grammars) fun sections => ?_
      exact .ite (.pure _) (.bind (.ofPlace _) fun _ => .pure _)

variable (settings : Settings)

lemma allOrNothing_completions (p : Position) :
    AllOrNothing (b.completions settings d p) (b.quiet.completions settings d p) := by
  refine .bind (.ofPlace _) fun offset => ?_
  split
  · exact .pure _
  · refine .bind (allOrNothing_applicable b d) fun grammars => ?_
    exact .bind (.flatMapM (fun g => .bind .check fun _ => .pure _) grammars) fun _ => .pure _

/-! ### Listing actions -/

lemma allOrNothing_alternativeNames (e : ElementNode) (grammarUri : Option String) :
    AllOrNothing (alternativeNames ⟨d, b, settings⟩ e grammarUri)
      (alternativeNames ⟨d, b.quiet, settings⟩ e grammarUri) := by
  refine .bind (allOrNothing_applicable b d) fun grammars => ?_
  exact .bind (.flatMapM (fun g => .bind .check fun _ => .ite (.pure _) (.pure _)) grammars)
    fun _ => .pure _

lemma allOrNothing_namesToInsert (x : Diagnostic) (parent : String) :
    AllOrNothing (namesToInsert ⟨d, b, settings⟩ x parent)
      (namesToInsert ⟨d, b.quiet, settings⟩ x parent) := by
  rw [namesToInsert, namesToInsert]
  split
  · exact .pure _
  · refine .bind (.ofExcept (recoverable_elementOf d x)) fun found => ?_
    split
    · exact .pure _
    · exact .ite (allOrNothing_alternativeNames b d settings _ _) (.pure _)

lemma allOrNothing_listInsertions (x : Diagnostic) :
    AllOrNothing (listInsertions ⟨d, b, settings⟩ x) (listInsertions ⟨d, b.quiet, settings⟩ x) := by
  rw [listInsertions, listInsertions]
  split
  · exact .bind (allOrNothing_namesToInsert b d settings x _) fun _ => .pure _
  · exact .pure _

lemma allOrNothing_offer {p : Participant} {x : Diagnostic}
    (hlist : AllOrNothing (p.list ⟨d, b, settings⟩ x) (p.list ⟨d, b.quiet, settings⟩ x))
    (problem : ProblemCode) :
    AllOrNothing (p.offer ⟨d, b, settings⟩ problem x) (p.offer ⟨d, b.quiet, settings⟩ problem x) :=
  .ite (hlist.orElseValue []) (.pure _)

lemma allOrNothing_listActions (xs : List Diagnostic) :
    AllOrNothing (listActions Advisor.defaultParticipants ⟨d, b, settings⟩ xs)
      (listActions Advisor.defaultParticipants ⟨d, b.quiet, settings⟩ xs) := by
  refine .flatMapM (fun x => .bind .check fun _ => ?_) xs
  split
  · have helement := allOrNothing_offer b d settings (p := insertElementParticipant)
      (allOrNothing_listInsertions b d settings x)
    have hattribute := allOrNothing_offer b d settings (p := insertAttributeParticipant) (x := x)
      (.ofExcept (recoverable_attributeInsertions d x))
    refine .bind (helement _) fun _ => .bind ?_ fun _ => .pure _
    exact .bind (hattribute _) fun _ => .bind (.pure []) fun _ => .pure _
  · exact .pure _

/-! ### Resolving actions -/

lemma allOrNothing_chooseAlternative (policy : DuplicatePolicy) (e : ElementNode) (name : String)
    (gs : List Grammar) (found : Option Declaration) :
    AllOrNothing (chooseAlternative policy d.toTree e name found gs)
      (chooseAlternative policy d.toTree e name found gs) := by
  induction gs generalizing found with
  | nil => exact .pure _
  | cons g more ih =>
      refine .bind .check fun _ => ?_
      split
      · exact ih found
      · cases policy with
        | firstMatch => exact .pure _
        | lastMatch => exact ih _

lemma allOrNothing_resolveInsertion (a : CodeAction) :
    AllOrNothing (resolveInsertion ⟨d, b, settings⟩ a)
      (resolveInsertion ⟨d, b.quiet, settings⟩ a) := by
  refine .bind (.ofExcept (recoverable_insertionPlace d a)) fun found => ?_
  split
  · exact .pure _
  · refine .bind (.ofPlace _) fun range => .bind (allOrNothing_applicable b d) fun grammars => ?_
    refine .bind (allOrNothing_chooseAlternative d _ _ _ grammars none) fun found => ?_
    split
    · exact .pure _
    · exact .bind .check fun _ => .map some (.ofExcept (recoverable_replacing d range _))

lemma allOrNothing_resolveAction (a : CodeAction) :
    AllOrNothing ((Advisor.builtIn settings b).resolveAction d a)
      ((Advisor.builtIn settings b.quiet).resolveAction d a) := by
  show AllOrNothing (Registry.resolve Advisor.defaultRegistry ⟨d, b, settings⟩ a)
    (Registry.resolve Advisor.defaultRegistry ⟨d, b.quiet, settings⟩ a)
  rw [Registry.resolve, Registry.resolve]
  cases a.problem? with
  | none => exact .pure _
  | some problem =>
      rw [Option.bind_some, lookup_defaultRegistry]
      split_ifs
      · refine .bind (.orElseValue none (allOrNothing_resolveInsertion b d settings a))
          fun edit => ?_
        split
        · exact .pure _
        · exact .pure _
      · exact .pure _

lemma allOrNothing_codeActions (xs : List Diagnostic) :
    AllOrNothing ((Advisor.builtIn settings b).codeActions d xs)
      ((Advisor.builtIn settings b.quiet).codeActions d xs) := by
  refine .bind (allOrNothing_listActions b d settings xs) fun actions => ?_
  exact .ite (.pure _) (.mapM (allOrNothing_resolveAction b d settings) actions)

lemma allOrNothing_fix (element : Option String) :
    AllOrNothing ((Advisor.builtIn settings b).fix d element)
      ((Advisor.builtIn settings b.quiet).fix d element) := by
  refine .bind (allOrNothing_diagnostics b d settings.validation) fun xs => ?_
  refine .bind (allOrNothing_codeActions b d settings xs) fun actions => ?_
  refine .bind (.flatMapM (fun x => ?_) xs) fun edits => ?_
  · rw [Advisor.fixEdits, Advisor.fixEdits]
    split
    · exact .pure _
    · exact .bind (allOrNothing_resolveAction b d settings _) fun _ => .pure _
  · split
    · exact .pure _
    · exact .map some (.ofExcept (recoverable_applyEdits d _))

end Requests

/-- **Giving a request up loses all of it or nothing.**  From any store and with any cancellation,
each request to an advisor fails as given up, or gives the value or the failure that it gives when
it is not given up, and leaves the same store. -/
theorem requests_allOrNothing (settings : Settings) (b : Bindings) (d : Document) :
    let advisor := Advisor.builtIn settings b
    let calm := Advisor.builtIn settings b.quiet
    AllOrNothing (advisor.diagnostics d) (calm.diagnostics d) ∧
    (∀ xs, AllOrNothing (advisor.codeActions d xs) (calm.codeActions d xs)) ∧
    (∀ a, AllOrNothing (advisor.resolveAction d a) (calm.resolveAction d a)) ∧
    (∀ p, AllOrNothing (advisor.hover d p) (calm.hover d p)) ∧
    (∀ p, AllOrNothing (advisor.completions d p) (calm.completions d p)) ∧
    ∀ element, AllOrNothing (advisor.fix d element) (calm.fix d element) :=
  ⟨allOrNothing_diagnostics b d settings.validation, allOrNothing_codeActions b d settings,
    allOrNothing_resolveAction b d settings, allOrNothing_hover b d,
    allOrNothing_completions b d settings, allOrNothing_fix b d settings⟩

end XmlAdvisor
