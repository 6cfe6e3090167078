import XmlAdvisor.Proofs.SchemaContent

/-!
# Bodies that are combined

Several starts, or several definitions of one name, are joined one after the other, each as it says
itself.  When all are combined by choice, or all but the first are interleaved, they mean the choice
or the interleaving of all their bodies.  Then they can stand in any order.

What comes first is not asked how it is combined.  So a definition that says nothing is joined by
choice if it stands behind one that is interleaved (`Schema.compile_interleaved_first`).

* `SourcePart.Reordered` — the same parts in another order.
* **`Schema.compile_combines`** — what combined bodies mean, in any order.
-/

namespace XmlAdvisor

open scoped Computability

/-! ## Another order -/

lemma Combine.joined_perm (v : Combine) {ls ms : List NameLanguage} (h : ls.Perm ms) :
    v.joined ls = v.joined ms := by
  cases v with
  | choice => exact h.sum_eq
  | interleave => exact foldl_shuffle_perm h 1

namespace SourcePart

variable {parts parts' : List SourcePart} {target : Option String} {v : Combine}

/-- Whether grammars have the same parts, in the same order but for starts or definitions of one
name that are combined in one way. -/
structure Reordered (parts parts' : List SourcePart) : Prop where
  perm : parts.Perm parts'
  alike : ∀ target, partsOf parts target = partsOf parts' target ∨
    ∃ v, CombinedAs v ((partsOf parts target).map combine) ∧
      CombinedAs v ((partsOf parts' target).map combine)

/-- What the parts with a target say that are combined in one way. -/
lemma defined_of_combinedAs (hne : partsOf parts target ≠ [])
    (h : CombinedAs v ((partsOf parts target).map combine)) (names : String → NameLanguage) :
    defined parts names target =
      v.joined ((partsOf parts target).map fun part => (part.language names).2) := by
  rw [defined, joinInOrder_of_combinedAs (v := v) (mt List.map_eq_nil_iff.mp hne), List.map_map]
  · rfl
  · rw [List.map_map]
    exact h

/-- Parts that are reordered say the same. -/
lemma Reordered.defined_eq (h : Reordered parts parts') (names : String → NameLanguage)
    (target : Option String) : defined parts names target = defined parts' names target := by
  rcases h.alike target with hsame | ⟨v, hv, hv'⟩
  · rw [defined, defined, hsame]
  · have hperm : (partsOf parts target).Perm (partsOf parts' target) := h.perm.filter _
    by_cases hnil : partsOf parts target = []
    · rw [hnil] at hperm
      rw [defined, defined, hnil, hperm.nil_eq]
    · have hnil' : partsOf parts' target ≠ [] := fun h => hnil (h ▸ hperm).eq_nil
      rw [defined_of_combinedAs hnil hv, defined_of_combinedAs hnil' hv']
      exact v.joined_perm (hperm.map _)

end SourcePart

namespace Schema

variable {s s' : Schema} {parts parts' : List SourcePart}

/-- The names of schemas with the same parts in another order mean the same. -/
lemma Realizes.nameMeaning_eq (h : s.Realizes parts) (h' : s'.Realizes parts')
    (hparts : SourcePart.Reordered parts parts') : s.nameMeaning = s'.nameMeaning := by
  refine NameSystem.named_eq h.names fun names x hx => ?_
  rw [h'.names names x hx]
  funext name
  exact (hparts.defined_eq names (some name)).symm

/-- Schemas with the same parts in another order declare the same. -/
lemma Realizes.declares_iff (h : s.Realizes parts) (h' : s'.Realizes parts')
    (hparts : SourcePart.Reordered parts parts') (d : Declared) : s.Declares d ↔ s'.Declares d := by
  rw [h.declares, h'.declares, h.nameMeaning_eq h' hparts]
  simp only [hparts.perm.mem_iff]

lemma Realizes.start_eq (h : s.Realizes parts) (h' : s'.Realizes parts')
    (hparts : SourcePart.Reordered parts parts') :
    s.childNames s.start = s'.childNames s'.start := by
  rw [h.body none s.start rfl, h'.body none s'.start rfl, h.nameMeaning_eq h' hparts]
  exact hparts.defined_eq _ none

lemma realizes_of_compile {text : List Char} (h : Schema.compile text = .ok s)
    (hread : (Tree.parse text).readSchema = .ok (.grammar parts)) : s.Realizes parts := by
  obtain ⟨source, hsource, hcompile⟩ := ok_of_bind h
  rw [hread, Except.ok.injEq] at hsource
  exact SourceSchema.compile_realizes (hsource ▸ hcompile)

/-- **Combined bodies in any order.**  Starts, or definitions of one name, that are combined in one
way mean the choice or the interleaving of all their bodies; and a schema document with the same of
them in another order declares the same elements with the same children. -/
theorem compile_combines {text : List Char} {s : Schema} (h : Schema.compile text = .ok s) :
    (∀ target v, (Tree.parse text).partElementsOf target ≠ [] →
      CombinedAs v ((Tree.parse text).combinesOf target) →
      ∃ m, s.builder.HasBody m target ∧
        s.childNames m = v.joined ((Tree.parse text).bodyLanguages target)) ∧
    ∀ text' s' parts parts', Schema.compile text' = .ok s' →
      (Tree.parse text).readSchema = .ok (.grammar parts) →
      (Tree.parse text').readSchema = .ok (.grammar parts') →
      SourcePart.Reordered parts parts' →
      (∀ d, s.Declares d ↔ s'.Declares d) ∧ s.childNames s.start = s'.childNames s'.start := by
  constructor
  · intro target v hne hv
    obtain ⟨source, hread, hcompile⟩ := ok_of_bind h
    obtain ⟨m, hm, hchildren⟩ := body_of_partElementsOf (Tree.parse_shaped text)
      (Tree.parse_nests text) hread hcompile hne
    refine ⟨m, hm, ?_⟩
    rw [hchildren, joinInOrder_of_combinedAs (v := v) (mt List.map_eq_nil_iff.mp hne)]
    · rw [List.map_map]
      rfl
    · rw [List.map_map]
      exact hv
  · intro text' s' parts parts' h' hread hread' hparts
    have hrealizes := realizes_of_compile h hread
    have hrealizes' := realizes_of_compile h' hread'
    exact ⟨hrealizes.declares_iff hrealizes' hparts, hrealizes.start_eq hrealizes' hparts⟩

/-! ## Two definitions in both orders -/

lemma readSchema_plainLast :
    (Tree.parse (twiceDefined choiceDefinition plainDefinition)).readSchema
      = .ok (.grammar (twiceParts (some .choice, "b") (none, "a"))) := by
  have hparse : Tree.parse (twiceDefined choiceDefinition plainDefinition) =
      (writtenTwice ([("name", "x"), ("combine", "choice")], "b") ([("name", "x")], "a")).tree :=
    parse_twiceDefined (by decide +kernel) (by decide +kernel) (by decide +kernel)
      (by decide +kernel)
  rw [hparse]
  rfl

/-- Two definitions that are not interleaved can be exchanged. -/
lemma reordered_twiceParts :
    SourcePart.Reordered (twiceParts (none, "a") (some .choice, "b"))
      (twiceParts (some .choice, "b") (none, "a")) := by
  refine ⟨(List.Perm.swap _ _ _).cons _, fun target => ?_⟩
  by_cases hx : target = some "x"
  · rw [hx]
    exact .inr ⟨.choice, by decide, by decide⟩
  · have hne : some "x" ≠ target := Ne.symm hx
    left
    simp [SourcePart.partsOf, twiceParts, SourcePart.target, List.filter_cons, hne]

/-- A definition that says nothing, in front of one that is combined by choice and behind it. -/
theorem compile_combines_twice :
    ∃ s s', Schema.compile (twiceDefined plainDefinition choiceDefinition) = .ok s ∧
      Schema.compile (twiceDefined choiceDefinition plainDefinition) = .ok s' ∧
      (∃ m, s.builder.HasBody m (some "x") ∧ s.childNames m = Combine.choice.joined
        ((Tree.parse (twiceDefined plainDefinition choiceDefinition)).bodyLanguages (some "x"))) ∧
      (∀ d, s.Declares d ↔ s'.Declares d) ∧ s.childNames s.start = s'.childNames s'.start := by
  have hcompile := compile_of_readSchema readSchema_plainFirst (compile_twiceParts _ _)
  have hcompile' := compile_of_readSchema readSchema_plainLast (compile_twiceParts _ _)
  obtain ⟨hbodies, horder⟩ := compile_combines hcompile
  refine ⟨_, _, hcompile, hcompile', hbodies (some "x") .choice ?_ (combinedAs_plainFirst _),
    horder _ _ _ _ hcompile' readSchema_plainFirst readSchema_plainLast reordered_twiceParts⟩
  cases Tree.readsSchema (Tree.parse_shaped _) (Tree.parse_nests _) readSchema_plainFirst with
  | grammar _ hparts =>
      intro hnil
      have hcombines := Tree.combines_of_readsParts hparts (some "x")
      rw [Tree.combinesOf, hnil] at hcombines
      simp [SourcePart.partsOf, twiceParts, SourcePart.target] at hcombines

/-- **An interleaved definition that comes first is not interleaved** with one behind it that says
nothing: the children of that one may stand alone. -/
theorem compile_interleaved_first :
    ∃ s, Schema.compile (twiceDefined interleavedDefinition plainDefinition) = .ok s ∧
      (Tree.parse (twiceDefined interleavedDefinition plainDefinition)).combinesOf (some "x")
        = [some .interleave, none] ∧
      ¬ ∃ m, s.builder.HasBody m (some "x") ∧ s.childNames m = Combine.interleave.joined
        ((Tree.parse (twiceDefined interleavedDefinition plainDefinition)).bodyLanguages
          (some "x")) := by
  have hcompile := compile_of_readSchema readSchema_interleavedFirst (compile_twiceParts _ _)
  have ht := Tree.parse_nests (twiceDefined interleavedDefinition plainDefinition)
  have hbodies := bodies_interleavedFirst (solves_patternLanguage ht
    (Tree.readsSchema (Tree.parse_shaped _) ht readSchema_interleavedFirst)
      (compile_twiceParts _ _))
  refine ⟨_, hcompile, ?_, ?_⟩
  · have hfirst := congrArg (List.map Prod.fst) hbodies
    rw [List.map_map] at hfirst
    exact hfirst
  · rintro ⟨m, hm, heq⟩
    have hsecond := congrArg (List.map Prod.snd) hbodies
    rw [List.map_map] at hsecond
    have hjoined := heq.trans (congrArg Combine.interleave.joined hsecond)
    have hrealizes :=
      SourceSchema.compile_realizes (compile_twiceParts (some .interleave, "b") (none, "a"))
    rw [hrealizes.body _ m hm, SourcePart.defined, partsOf_interleavedFirst] at hjoined
    exact joinInOrder_interleavedBodies hjoined

end Schema

end XmlAdvisor
