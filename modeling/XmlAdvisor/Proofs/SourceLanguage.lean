import XmlAdvisor.Proofs.ContentLanguage
import XmlAdvisor.Schema.Source

/-!
# What a written schema means

The patterns of a schema document denote languages before anything is compiled: the sequences of
names that the children of an element may have.  References are open, so each pattern has its
meaning for every way of understanding them.

**Bodies.**  A name that is defined several times means its bodies, each joined to those before it
as its `combine` attribute says, or else by choice (`joinInOrder`).  When all of them are combined
in one way (`CombinedAs`), they mean what they mean in any order (`joinTogether`).

**Circles.**  Definitions may refer to each other, so the names that are defined mean the least
solution of one equation per name.  A table of patterns and a tree of elements both lead to such
equations, and then their solutions agree if the equations do (`NameSystem.named_eq`).

* `SourcePattern.language` — what a pattern means, given what the names mean.
* `SourcePart.defined` — what the parts of a grammar say of a name.
* `Declared` — what is declared of an element, and `SourcePattern.elements` the patterns that
  declare.
-/

namespace XmlAdvisor

open scoped Computability

/-- Sequences of expanded names. -/
abbrev NameLanguage := Language (String × String)

/-- The sequences of one name of a class. -/
def NameClass.names (c : NameClass) : NameLanguage :=
  {w | ∃ n : String × String, c.contains n.1 n.2 = true ∧ w = [n]}

/-! ## Patterns -/

namespace SourcePattern

mutual
/-- What a pattern means, given what the names mean that it may refer to. -/
def language (names : String → NameLanguage) : SourcePattern → NameLanguage
  | .element name _ _ => name.names
  | .attribute .. | .empty | .text | .data .. | .value .. | .list _ => 1
  | .notAllowed => 0
  | .group members | .mixed members => (languages names members).prod
  | .interleave members => (languages names members).foldl shuffle 1
  | .choice members => (languages names members).sum
  | .optional body => (languages names body).prod + 1
  | .zeroOrMore body => (languages names body).prod∗
  | .oneOrMore body => (languages names body).prod * (languages names body).prod∗
  | .ref name => names name

/-- What each of several patterns means. -/
def languages (names : String → NameLanguage) : List SourcePattern → List NameLanguage
  | [] => []
  | p :: ps => language names p :: languages names ps
end

lemma languages_eq_map (names : String → NameLanguage) (ps : List SourcePattern) :
    languages names ps = ps.map (language names) := by
  induction ps with
  | nil => rfl
  | cons p ps ih => rw [languages, ih, List.map_cons]

/-- An element pattern: its names, its documentation and its content. -/
abbrev WrittenElement := NameClass × Option String × List SourcePattern

mutual
/-- The element patterns that a pattern is written with. -/
def elements : SourcePattern → List WrittenElement
  | .element name content documentation => elementsIn content ++ [(name, documentation, content)]
  | .attribute _ content _ _ => elementsIn content
  | .list ps | .group ps | .interleave ps | .choice ps | .optional ps | .zeroOrMore ps
  | .oneOrMore ps | .mixed ps => elementsIn ps
  | .empty | .text | .notAllowed | .data .. | .value .. | .ref _ => []

/-- The element patterns that several patterns are written with. -/
def elementsIn : List SourcePattern → List WrittenElement
  | [] => []
  | p :: ps => elements p ++ elementsIn ps
end

end SourcePattern

/-! ## Bodies -/

/-- What a body means together with those before it. -/
def joinTo (before : NameLanguage) (combine : Option Combine) (l : NameLanguage) : NameLanguage :=
  match combine with
  | some .interleave => shuffle before l
  | _ => before + l

/-- What more bodies mean together with those before them. -/
def joinMore (before : NameLanguage) (bodies : List (Option Combine × NameLanguage)) :
    NameLanguage :=
  bodies.foldl (fun l body => joinTo l body.1 body.2) before

/-- What several bodies mean when each is joined to those before it. -/
def joinInOrder : List (Option Combine × NameLanguage) → NameLanguage
  | [] => 0
  | (_, l) :: more => joinMore l more

section Joining

variable {l m : NameLanguage} {combine : Option Combine}
  {bodies bodies' : List (Option Combine × NameLanguage)}

lemma joinTo_of_ne (h : combine ≠ some .interleave) : joinTo l combine m = l + m := by
  rw [joinTo]
  exact h

lemma joinTo_mono {combine' : Option Combine} {k k' : NameLanguage} (hle : l ≤ m)
    (hcombine : combine = combine') (hk : k ≤ k') : joinTo l combine k ≤ joinTo m combine' k' := by
  rw [← hcombine]
  unfold joinTo
  split
  · exact shuffle_mono hle hk
  · exact add_le_add hle hk

lemma joinMore_of_choice (h : ∀ body ∈ bodies, body.1 ≠ some .interleave) :
    joinMore l bodies = l + (bodies.map (·.2)).sum := by
  induction bodies generalizing l with
  | nil => rw [List.map_nil, List.sum_nil, add_zero, joinMore, List.foldl_nil]
  | cons body bodies ih =>
      obtain ⟨hbody, hbodies⟩ := List.forall_mem_cons.mp h
      rw [joinMore, List.foldl_cons, joinTo_of_ne hbody, ← joinMore, ih hbodies, List.map_cons,
        List.sum_cons, add_assoc]

lemma joinMore_of_interleave (h : ∀ body ∈ bodies, body.1 = some .interleave) :
    joinMore l bodies = (bodies.map (·.2)).foldl shuffle l := by
  induction bodies generalizing l with
  | nil => rfl
  | cons body bodies ih =>
      obtain ⟨hbody, hbodies⟩ := List.forall_mem_cons.mp h
      rw [joinMore, List.foldl_cons, hbody, ← joinMore, ih hbodies, List.map_cons, List.foldl_cons,
        joinTo]

lemma joinMore_mono
    (h : List.Forall₂ (fun body body' => body.1 = body'.1 ∧ body.2 ≤ body'.2) bodies bodies')
    (hle : l ≤ m) : joinMore l bodies ≤ joinMore m bodies' := by
  induction h generalizing l m with
  | nil => exact hle
  | cons hbody _ ih =>
      exact ih (joinTo_mono hle hbody.1 hbody.2)

lemma joinInOrder_concat (hne : bodies ≠ []) (body : Option Combine × NameLanguage) :
    joinInOrder (bodies ++ [body]) = joinTo (joinInOrder bodies) body.1 body.2 := by
  cases bodies with
  | nil => exact absurd rfl hne
  | cons first more =>
      rw [List.cons_append, joinInOrder, joinMore, List.foldl_append]
      rfl

/-- Bodies of which none behind the first is interleaved. -/
lemma joinInOrder_of_choice (h : ∀ body ∈ bodies.tail, body.1 ≠ some .interleave) :
    joinInOrder bodies = (bodies.map (·.2)).sum := by
  cases bodies with
  | nil => rfl
  | cons first more =>
      rw [List.tail_cons] at h
      rw [joinInOrder, joinMore_of_choice h, List.map_cons, List.sum_cons]

/-- Bodies of which all behind the first are interleaved. -/
lemma joinInOrder_of_interleave (hne : bodies ≠ [])
    (h : ∀ body ∈ bodies.tail, body.1 = some .interleave) :
    joinInOrder bodies = (bodies.map (·.2)).foldl shuffle 1 := by
  cases bodies with
  | nil => exact absurd rfl hne
  | cons first more =>
      rw [List.tail_cons] at h
      rw [joinInOrder, joinMore_of_interleave h, List.map_cons, List.foldl_cons, one_shuffle]

/-- Larger bodies are larger when each is joined to those before it. -/
lemma joinInOrder_mono
    (h : List.Forall₂ (fun body body' => body.1 = body'.1 ∧ body.2 ≤ body'.2) bodies bodies') :
    joinInOrder bodies ≤ joinInOrder bodies' := by
  cases h with
  | nil => exact le_refl _
  | cons hfirst hmore => exact joinMore_mono hmore hfirst.2

/-- Whether bodies are all combined in one way, but for one that may say nothing; when they are
interleaved, that one comes first. -/
def CombinedAs (v : Combine) (combines : List (Option Combine)) : Prop :=
  (∀ c ∈ combines, c = none ∨ c = some v) ∧ (v = .interleave → ∀ c ∈ combines.tail, c ≠ none)

instance (v : Combine) (combines : List (Option Combine)) : Decidable (CombinedAs v combines) :=
  inferInstanceAs (Decidable (_ ∧ _))

/-- What languages mean that are all combined in one way. -/
def Combine.joined : Combine → List NameLanguage → NameLanguage
  | .choice, ls => ls.sum
  | .interleave, ls => ls.foldl shuffle 1

lemma CombinedAs.tail_eq {combines : List (Option Combine)} (h : CombinedAs .interleave combines) :
    ∀ c ∈ combines.tail, c = some .interleave := fun c hc =>
  (h.1 c (List.mem_of_mem_tail hc)).resolve_left (h.2 rfl c hc)

/-- Bodies that are combined in one way. -/
lemma joinInOrder_of_combinedAs {v : Combine} (hne : bodies ≠ [])
    (h : CombinedAs v (bodies.map (·.1))) :
    joinInOrder bodies = v.joined (bodies.map (·.2)) := by
  cases v with
  | choice =>
      refine joinInOrder_of_choice fun body hbody => ?_
      have hmem := List.mem_map_of_mem (f := (·.1)) (List.mem_of_mem_tail hbody)
      rcases h.1 _ hmem with hnone | hchoice
      · rw [hnone]
        simp
      · rw [hchoice]
        simp
  | interleave =>
      refine joinInOrder_of_interleave hne fun body hbody => ?_
      have htail := h.tail_eq
      rw [← List.map_tail] at htail
      exact htail _ (List.mem_map_of_mem (f := (·.1)) hbody)

/-- What several bodies mean in any order: all of them interleaved if one says so, or else any one
of them. -/
def joinTogether (bodies : List (Option Combine × NameLanguage)) : NameLanguage :=
  if ∃ body ∈ bodies, body.1 = some .interleave then (bodies.map (·.2)).foldl shuffle 1
  else (bodies.map (·.2)).sum

lemma sum_map_mono
    (h : List.Forall₂ (fun body body' => body.1 = body'.1 ∧ body.2 ≤ body'.2) bodies bodies') :
    (bodies.map (·.2)).sum ≤ (bodies'.map (·.2)).sum := by
  induction h with
  | nil => exact le_refl _
  | cons hbody _ ih =>
      rw [List.map_cons, List.sum_cons, List.map_cons, List.sum_cons]
      exact add_le_add hbody.2 ih

lemma foldl_shuffle_map_mono
    (h : List.Forall₂ (fun body body' => body.1 = body'.1 ∧ body.2 ≤ body'.2) bodies bodies')
    (hle : l ≤ m) :
    (bodies.map (·.2)).foldl shuffle l ≤ (bodies'.map (·.2)).foldl shuffle m := by
  induction h generalizing l m with
  | nil => exact hle
  | cons hbody _ ih => exact ih (shuffle_mono hle hbody.2)

/-- Larger bodies are larger in any order. -/
lemma joinTogether_mono
    (h : List.Forall₂ (fun body body' => body.1 = body'.1 ∧ body.2 ≤ body'.2) bodies bodies') :
    joinTogether bodies ≤ joinTogether bodies' := by
  have hsame : (∃ body ∈ bodies, body.1 = some .interleave) ↔
      ∃ body ∈ bodies', body.1 = some .interleave := by
    induction h with
    | nil => exact Iff.rfl
    | cons hbody _ ih => rw [List.exists_mem_cons_iff, List.exists_mem_cons_iff, hbody.1, ih]
  unfold joinTogether
  simp only [hsame]
  split_ifs
  · exact foldl_shuffle_map_mono h (le_refl _)
  · exact sum_map_mono h

/-- For bodies that are combined in one way, the order does not matter. -/
lemma joinTogether_eq_joinInOrder {v : Combine} (h : CombinedAs v (bodies.map (·.1))) :
    joinTogether bodies = joinInOrder bodies := by
  by_cases hne : bodies = []
  · rw [hne]
    rfl
  rw [joinInOrder_of_combinedAs hne h, joinTogether]
  split_ifs with hany
  · obtain ⟨body, hbody, hinterleave⟩ := hany
    have hv := h.1 _ (List.mem_map_of_mem (f := (·.1)) hbody)
    rw [hinterleave] at hv
    cases v with
    | choice => simp at hv
    | interleave => rfl
  · cases v with
    | choice => rfl
    | interleave =>
        -- nothing is left behind the first body, which would be interleaved
        cases bodies with
        | nil => exact absurd rfl hne
        | cons first more =>
            cases more with
            | nil => simp [Combine.joined]
            | cons second more =>
                have hsecond := h.tail_eq second.1 (by simp)
                exact absurd ⟨second, by simp, hsecond⟩ hany

end Joining

/-! ## Parts of a grammar -/

namespace SourcePart

/-- The name that a part defines, or none for a start. -/
def target : SourcePart → Option String
  | .start .. => none
  | .define name .. => some name

/-- How a part is joined to the one before. -/
def combine : SourcePart → Option Combine
  | .start combine _ | .define _ combine _ => combine

/-- The patterns in a part. -/
def body : SourcePart → List SourcePattern
  | .start _ body | .define _ _ body => body

/-- What the body of a part means, and how it is joined to the one before. -/
def language (names : String → NameLanguage) (part : SourcePart) : Option Combine × NameLanguage :=
  (part.combine, (SourcePattern.languages names part.body).prod)

/-- The parts with a target, in the order in which they are written. -/
def partsOf (parts : List SourcePart) (target : Option String) : List SourcePart :=
  parts.filter (·.target = target)

/-- What the parts of a grammar say that a target means. -/
def defined (parts : List SourcePart) (names : String → NameLanguage) (target : Option String) :
    NameLanguage :=
  joinInOrder ((partsOf parts target).map (language names))

lemma partsOf_append (parts more : List SourcePart) (target : Option String) :
    partsOf (parts ++ more) target = partsOf parts target ++ partsOf more target :=
  List.filter_append ..

lemma partsOf_singleton (part : SourcePart) (target : Option String) :
    partsOf [part] target = if part.target = target then [part] else [] := by
  simp [partsOf, List.filter_cons]

section Adding

variable {parts : List SourcePart} {part : SourcePart} {target : Option String}

lemma partsOf_concat_of_ne (h : part.target ≠ target) :
    partsOf (parts ++ [part]) target = partsOf parts target := by
  rw [partsOf_append, partsOf_singleton, if_neg h, List.append_nil]

/-- The first part with a target says what the target means. -/
lemma defined_concat_of_nil (h : partsOf parts part.target = []) (names : String → NameLanguage) :
    defined (parts ++ [part]) names part.target = (part.language names).2 := by
  rw [defined, partsOf_append, partsOf_singleton, if_pos rfl, h]
  rfl

/-- A further part with a target is joined to those before it. -/
lemma defined_concat (h : partsOf parts part.target ≠ []) (names : String → NameLanguage) :
    defined (parts ++ [part]) names part.target =
      joinTo (defined parts names part.target) part.combine (part.language names).2 := by
  rw [defined, partsOf_append, partsOf_singleton, if_pos rfl, List.map_append, List.map_singleton,
    joinInOrder_concat (mt List.map_eq_nil_iff.mp h)]
  rfl

end Adding

end SourcePart

/-! ## Declarations -/

/-- What is declared of an element: its names, its documentation, and the names of its children. -/
structure Declared where
  name : NameClass
  documentation : Option String
  childNames : NameLanguage

/-- What an element pattern declares. -/
def SourcePattern.WrittenElement.declared (names : String → NameLanguage) (e : WrittenElement) :
    Declared :=
  ⟨e.1, e.2.1, (languages names e.2.2).prod⟩

/-! ## Names that are defined in circles -/

/-- Equations for the members of a system, some of which have names.  Members refer to each other by
name, so what they mean depends on what the names mean. -/
structure NameSystem (ι α : Type) [CompleteLattice α] where
  step : (String → α) → (ι → α) → ι → α
  named : (ι → α) → String → α
  step_mono : ∀ {f g : String → α} {x y : ι → α}, f ≤ g → x ≤ y → step f x ≤ step g y
  named_mono : Monotone named

namespace NameSystem

variable {ι κ α : Type} [CompleteLattice α] (S : NameSystem ι α) (T : NameSystem κ α)

/-- What the members mean: the least solution in which names mean what they name. -/
def meaning : ι → α :=
  OrderHom.lfp ⟨fun x => S.step (S.named x) x, fun _ _ h => S.step_mono (S.named_mono h) h⟩

lemma meaning_eq : S.step (S.named S.meaning) S.meaning = S.meaning :=
  OrderHom.map_lfp (⟨fun x => S.step (S.named x) x,
    fun _ _ h => S.step_mono (S.named_mono h) h⟩ : (ι → α) →o (ι → α))

lemma meaning_le {x : ι → α} (h : S.step (S.named x) x ≤ x) : S.meaning ≤ x :=
  OrderHom.lfp_le (⟨fun x => S.step (S.named x) x,
    fun _ _ h => S.step_mono (S.named_mono h) h⟩ : (ι → α) →o (ι → α)) h

/-- Whether the names of all solutions mean what some equations say. -/
def Obeys (equations : (String → α) → String → α) : Prop :=
  ∀ names x, S.step names x = x → S.named x = equations names

variable {S T} {equations : (String → α) → String → α}

/-- What the names of a system mean lies below every solution of their equations: where the names
mean this, the members mean no less than they do in the system. -/
lemma Obeys.named_le (h : S.Obeys equations) {names : String → α}
    (hnames : equations names ≤ names) :
    S.named S.meaning ≤ names := by
  let open_ : (ι → α) →o (ι → α) := ⟨S.step names, fun _ _ hx => S.step_mono (le_refl names) hx⟩
  have hfixed : S.step names (OrderHom.lfp open_) = OrderHom.lfp open_ := OrderHom.map_lfp open_
  have hnamed : S.named (OrderHom.lfp open_) ≤ names := by
    rw [h names _ hfixed]
    exact hnames
  have hle : S.meaning ≤ OrderHom.lfp open_ := by
    apply S.meaning_le
    calc S.step (S.named (OrderHom.lfp open_)) (OrderHom.lfp open_)
        ≤ S.step names (OrderHom.lfp open_) := S.step_mono hnamed (le_refl _)
      _ = OrderHom.lfp open_ := hfixed
  exact (S.named_mono hle).trans hnamed

lemma Obeys.named_eq (h : S.Obeys equations) :
    equations (S.named S.meaning) = S.named S.meaning :=
  (h _ _ S.meaning_eq).symm

/-- Systems with the same equations for names give them the same meanings. -/
theorem named_eq (h : S.Obeys equations) (h' : T.Obeys equations) :
    S.named S.meaning = T.named T.meaning :=
  le_antisymm (h.named_le (le_of_eq h'.named_eq)) (h'.named_le (le_of_eq h.named_eq))

end NameSystem

end XmlAdvisor
