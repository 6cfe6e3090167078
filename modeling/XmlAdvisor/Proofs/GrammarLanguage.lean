import XmlAdvisor.Proofs.CompiledSchema
import XmlAdvisor.Proofs.LoweredLanguage

/-!
# What a compiled grammar means

**Bodies.**  The parts of a grammar are added one by one, and a body is joined to the one that its
target has already.  So the body that a target ends up with means what all its parts say together,
in the order in which they are written (`SchemaBuilder.Holds`).

**Names.**  In a finished schema, the names of definitions mean what their bodies mean.  This is one
of the systems of equations that names can be given a meaning by (`Schema.nameSystem`), and its
equations are those that the parts of the grammar state.

* `Schema.nameMeaning` — what the names of definitions mean in a schema.
* `Schema.Declares` — what a schema declares of elements.
* **`SourceSchema.compile_realizes`** — the bodies, the names and the declarations of a compiled
  grammar are those that are written.
-/

namespace XmlAdvisor

open scoped Computability

namespace SchemaBuilder

variable {b b' b₁ b₂ : SchemaBuilder} {s : Schema} {ids : List Nat} {m n : Nat}
  {target : Option String}

/-! ## Targets -/

/-- Whether a target has a given body: the start, or the definition of a name. -/
def HasBody (b : SchemaBuilder) (m : Nat) : Option String → Prop
  | none => b.start = some m
  | some name => ∃ (i : Nat) (d : Definition),
      b.definitions[i]? = some d ∧ d.name = name ∧ d.body = some m

/-- Lowering gives no target a body. -/
lemma Lowers.hasBody_iff (h : b.Lowers b') : b'.HasBody m target ↔ b.HasBody m target := by
  cases target with
  | none => rw [HasBody, HasBody, h.start]
  | some name =>
      constructor
      · rintro ⟨i, d, hi, hname, hm⟩
        rcases h.unbodied i d hi with hi | hnone
        · exact ⟨i, d, hi, hname, hm⟩
        · rw [hnone] at hm
          cases hm
      · rintro ⟨i, d, hi, hd⟩
        exact ⟨i, d, h.definitions i d hi, hd⟩

/-- What giving a target a body changes. -/
structure Gives (b b' : SchemaBuilder) (target : Option String) (m : Nat) : Prop where
  patterns : b'.patterns = b.patterns
  names : ∀ (i : Nat) (d : Definition), b.definitions[i]? = some d →
    ∃ e, b'.definitions[i]? = some e ∧ e.name = d.name
  distinct : b.Distinct → b'.Distinct
  body : b.Distinct → ∀ n, b'.HasBody n target ↔ n = m
  others : ∀ other, other ≠ target → ∀ n, b'.HasBody n other ↔ b.HasBody n other

lemma gives_start (b : SchemaBuilder) (m : Nat) : b.Gives { b with start := some m } none m := by
  refine ⟨rfl, fun i d hd => ⟨d, hd, rfl⟩, fun h => h, fun _ n => ?_, fun other hne n => ?_⟩
  · rw [HasBody, Option.some.injEq, eq_comm]
  · cases other with
    | none => exact absurd rfl hne
    | some name => rfl

/-- A builder in which a definition has been given a body. -/
def setBody (b : SchemaBuilder) (i m : Nat) : SchemaBuilder :=
  { b with definitions := b.definitions.modify i fun old => { old with body := some m } }

section SetBody

variable {i : Nat} {d : Definition} (hi : b.definitions[i]? = some d)
include hi

lemma getElem?_setBody (m j : Nat) :
    (b.setBody i m).definitions[j]? =
      if i = j then some { d with body := some m } else b.definitions[j]? := by
  rw [setBody, Array.getElem?_modify]
  split_ifs with hij
  · rw [← hij, hi]
    rfl
  · rfl

/-- Definitions keep their places and their names. -/
lemma names_setBody (m j : Nat) (e : Definition) :
    (∃ e', (b.setBody i m).definitions[j]? = some e' ∧ e'.name = e.name) ↔
      ∃ e', b.definitions[j]? = some e' ∧ e'.name = e.name := by
  rw [getElem?_setBody hi]
  split_ifs with hij
  · simp [← hij, hi]
  · rfl

lemma Distinct.setBody (hb : b.Distinct) (m : Nat) : (b.setBody i m).Distinct := by
  intro j k e f he hf hsame
  obtain ⟨e', he', hename⟩ := (names_setBody hi m j e).mp ⟨e, he, rfl⟩
  obtain ⟨f', hf', hfname⟩ := (names_setBody hi m k f).mp ⟨f, hf, rfl⟩
  exact hb j k e' f' he' hf' (hename.trans (hsame.trans hfname.symm))

lemma hasBody_setBody_self (hb : b.Distinct) (m : Nat) :
    (b.setBody i m).HasBody n (some d.name) ↔ n = m := by
  constructor
  · rintro ⟨j, e, he, hename, hn⟩
    rw [getElem?_setBody hi] at he
    split_ifs at he with hij
    · cases he
      exact (Option.some.inj hn).symm
    · exact absurd (hb i j d e hi he hename.symm) hij
  · rintro rfl
    exact ⟨i, _, (getElem?_setBody hi n i).trans (if_pos rfl), rfl, rfl⟩

lemma hasBody_setBody_other (m : Nat) {other : Option String} (hne : other ≠ some d.name) :
    (b.setBody i m).HasBody n other ↔ b.HasBody n other := by
  cases other with
  | none => rfl
  | some other =>
      have hother : d.name ≠ other := fun h => hne (congrArg some h.symm)
      constructor
      · rintro ⟨j, e, he, hename, hn⟩
        rw [getElem?_setBody hi] at he
        split_ifs at he
        · cases he
          exact absurd hename hother
        · exact ⟨j, e, he, hename, hn⟩
      · rintro ⟨j, e, he, hename, hn⟩
        refine ⟨j, e, ?_, hename, hn⟩
        rw [getElem?_setBody hi]
        split_ifs with hij
        · rw [← hij, hi, Option.some.injEq] at he
          exact absurd (he ▸ hename) hother
        · exact he

lemma gives_setBody (m : Nat) : b.Gives (b.setBody i m) (some d.name) m :=
  ⟨rfl, fun j e he => (names_setBody hi m j e).mpr ⟨e, he, rfl⟩, fun hb => hb.setBody hi m,
    fun hb _ => hasBody_setBody_self hi hb m, fun _ hne _ => hasBody_setBody_other hi m hne⟩

end SetBody

lemma Gives.reaches (h : b.Gives b' target m) (hs : b'.Reaches s) : b.Reaches s := by
  refine ⟨fun i p hp => hs.patterns i p (by rw [h.patterns, hp]), fun i d hd => ?_⟩
  obtain ⟨e, he, hename⟩ := h.names i d hd
  obtain ⟨f, hf, hfname⟩ := hs.names i e he
  exact ⟨f, hf, hfname.trans hename⟩

/-! ## Joined bodies -/

/-- Whether a pattern means something in all that a builder can grow into. -/
def Means (b : SchemaBuilder) (m : Nat) (l : (String → NameLanguage) → NameLanguage) : Prop :=
  ∀ s names x, b.Reaches s → s.Solves names x → x m = l names

lemma lowers_join (b : SchemaBuilder) (before : Option Nat) (body : Nat)
    (combine : Option Combine) : b.Lowers (b.join before body combine).2 := by
  unfold SchemaBuilder.join
  split
  · exact lowers_refl b
  · exact lowers_push b _
  · exact lowers_push b _

/-- The first body of a target. -/
lemma Denotes.join_none {l : (String → NameLanguage) → NameLanguage}
    {es : List SourcePattern.WrittenElement} (h : b.Denotes b₁ [m] (fun names => [l names]) es)
    (combine : Option Combine) :
    b.Denotes (b₁.join none m combine).2 [(b₁.join none m combine).1] (fun names => [l names]) es :=
  h

/-- A further body of a target. -/
lemma Denotes.join_some {l k : (String → NameLanguage) → NameLanguage}
    {es : List SourcePattern.WrittenElement} (h : b.Denotes b₁ [m] (fun names => [l names]) es)
    {p : Nat} (hp : b.Means p k) (combine : Option Combine) :
    b.Denotes (b₁.join (some p) m combine).2 [(b₁.join (some p) m combine).1]
      (fun names => [joinTo (k names) combine (l names)]) es := by
  have hold : b.Denotes b [p] (fun names => [k names]) [] :=
    ⟨lowers_refl b, fun s names x hs hx => by rw [List.map_singleton, hp s names x hs hx],
      fun _ _ _ _ _ _ => by simp⟩
  have hboth : b.Denotes b₁ [p, m] (fun names => [k names, l names]) es := hold.trans h
  unfold SchemaBuilder.join
  split
  case h_1 hnone => cases hnone
  case h_2 hq =>
    cases hq
    refine hboth.push rfl fun s names x id hid hmeans => ?_
    rw [s.namedStep_eq hid, Schema.meaningOf, hmeans, joinTo, List.foldl_cons, List.foldl_cons,
      List.foldl_nil, one_shuffle]
  case h_3 hq hne =>
    cases hq
    refine hboth.push rfl fun s names x id hid hmeans => ?_
    rw [s.namedStep_eq hid, Schema.meaningOf, hmeans, joinTo_of_ne hne, List.sum_cons,
      List.sum_singleton]

/-! ## Parts -/

/-- What adding a part does: its body is lowered, joined to the one that the target has, and given
to the target. -/
lemma addPart_gives (b : SchemaBuilder) (part : SourcePart) :
    ∃ (b₁ : SchemaBuilder) (m : Nat) (before : Option Nat),
      (lowerBody part.body b).2.Lowers b₁ ∧
      b.Denotes b₁ [m] (fun names => [(part.language names).2])
        (SourcePattern.elementsIn part.body) ∧
      (b.Distinct → ∀ p, before = some p ↔ b.HasBody p part.target) ∧
      (b₁.join before m part.combine).2.Gives (b.addPart part) part.target
        (b₁.join before m part.combine).1 := by
  cases part with
  | start combine body =>
      have hbody := denotes_lowerBody body b
      refine ⟨(lowerBody body b).2, (lowerBody body b).1, (lowerBody body b).2.start, lowers_refl _,
        hbody, fun _ p => ?_, ?_⟩
      · change (lowerBody body b).2.HasBody p none ↔ b.HasBody p none
        exact hbody.lowers.hasBody_iff
      · rw [addPart]
        exact gives_start _ _
  | define name combine body =>
      obtain ⟨hlowers, d, hd, hname⟩ := lowers_definition (lowerBody body b).2 name
      have hnamed := (denotes_lowerBody body b).definition name
      rw [addPart, SourcePart.body]
      generalize lowerBody body b = lowered at hlowers hd hnamed ⊢
      obtain ⟨m, b₁⟩ := lowered
      dsimp only at hlowers hd hnamed ⊢
      generalize b₁.definition name = named at hlowers hd hnamed ⊢
      obtain ⟨i, b₂⟩ := named
      dsimp only at hlowers hd hnamed
      refine ⟨b₂, m, b₂.definitions[i]?.bind Definition.body, hlowers, hnamed, fun hb p => ?_, ?_⟩
      · rw [hd, Option.bind_some, ← hnamed.lowers.hasBody_iff]
        constructor
        · exact fun hp => ⟨i, d, hd, hname, hp⟩
        · rintro ⟨j, e, hj, hename, hp⟩
          have hsame := hnamed.lowers.distinct hb i j d e hd hj (hname.trans hename.symm)
          rw [← hsame, hd, Option.some.injEq] at hj
          rw [hj, hp]
      · have hkept := (lowers_join b₂ (b₂.definitions[i]?.bind Definition.body) m
          combine).definitions i d hd
        rw [SourcePart.target, ← hname]
        exact gives_setBody hkept _

/-- What adding some parts makes of a builder. -/
structure Holds (b : SchemaBuilder) (parts : List SourcePart) : Prop where
  distinct : b.Distinct
  body : ∀ target m, b.HasBody m target → SourcePart.partsOf parts target ≠ [] ∧
    b.Means m fun names => SourcePart.defined parts names target
  exists_body : ∀ target, SourcePart.partsOf parts target ≠ [] → ∃ m, b.HasBody m target
  declares : ∀ s names x, b.Reaches s → s.Solves names x → ∀ d,
    b.Declares x d ↔
      ∃ part ∈ parts, ∃ e ∈ SourcePattern.elementsIn part.body, e.declared names = d

lemma holds_empty : empty.Holds [] := by
  refine ⟨fun i j d e hd => ?_, fun target m h => ?_, fun target h => ?_, fun s names x _ _ d => ?_⟩
  · simp [empty] at hd
  · cases target <;> simp [HasBody, empty] at h
  · simp [SourcePart.partsOf] at h
  · simp [Declares, empty]

/-- A body joined to what the parts before say of its target. -/
lemma denotes_join {parts : List SourcePart} (h : b.Holds parts) (part : SourcePart)
    {before : Option Nat} {es : List SourcePattern.WrittenElement}
    (hbody : b.Denotes b₁ [m] (fun names => [(part.language names).2]) es)
    (hbefore : ∀ p, before = some p ↔ b.HasBody p part.target) :
    b.Denotes (b₁.join before m part.combine).2 [(b₁.join before m part.combine).1]
      (fun names => [SourcePart.defined (parts ++ [part]) names part.target]) es := by
  cases before with
  | none =>
      have hnone : SourcePart.partsOf parts part.target = [] := by
        by_contra hne
        obtain ⟨p, hp⟩ := h.exists_body _ hne
        cases (hbefore p).mpr hp
      simp only [SourcePart.defined_concat_of_nil hnone]
      exact hbody.join_none part.combine
  | some p =>
      obtain ⟨hne, hmeans⟩ := h.body _ p ((hbefore p).mp rfl)
      simp only [SourcePart.defined_concat hne]
      exact hbody.join_some hmeans part.combine

/-- Adding a part keeps what the targets mean in step with what is written. -/
lemma Holds.addPart {parts : List SourcePart} (h : b.Holds parts) (part : SourcePart) :
    (b.addPart part).Holds (parts ++ [part]) := by
  obtain ⟨b₁, m, before, -, hbody, hbefore, hgives⟩ := addPart_gives b part
  have hjoin := denotes_join h part hbody (hbefore h.distinct)
  have hdistinct := hjoin.lowers.distinct h.distinct
  refine ⟨hgives.distinct hdistinct, fun target n hn => ?_, fun target hne => ?_,
    fun s names x hs hx d => ?_⟩
  · by_cases htarget : part.target = target
    · rw [← htarget, hgives.body hdistinct] at hn
      rw [← htarget, hn]
      refine ⟨by simp [SourcePart.partsOf], fun s names x hs hx => ?_⟩
      exact (List.cons_eq_cons.mp (hjoin.means s names x (hgives.reaches hs) hx)).1
    · rw [hgives.others target (Ne.symm htarget), hjoin.lowers.hasBody_iff] at hn
      obtain ⟨hne, hmeans⟩ := h.body target n hn
      simp only [SourcePart.defined, SourcePart.partsOf_concat_of_ne htarget]
      exact ⟨hne, fun s names x hs hx =>
        hmeans s names x (hjoin.lowers.reaches (hgives.reaches hs)) hx⟩
  · by_cases htarget : part.target = target
    · exact ⟨_, htarget ▸ (hgives.body hdistinct _).mpr rfl⟩
    · rw [SourcePart.partsOf_concat_of_ne htarget] at hne
      obtain ⟨n, hn⟩ := h.exists_body target hne
      exact ⟨n, (hgives.others target (Ne.symm htarget) n).mpr (hjoin.lowers.hasBody_iff.mpr hn)⟩
  · have hreaches := hgives.reaches hs
    have hsame : (b.addPart part).Declares x d ↔
        (b₁.join before m part.combine).2.Declares x d := by
      rw [Declares, hgives.patterns, Declares]
    rw [hsame, hjoin.declares s names x hreaches hx,
      h.declares s names x (hjoin.lowers.reaches hreaches) hx]
    simp only [List.mem_append, List.mem_singleton, or_and_right, exists_or, exists_eq_left]

/-- What a part has become reaches what the body of the part was lowered to. -/
lemma reaches_addPart {part : SourcePart} (hs : (b.addPart part).Reaches s) :
    (lowerBody part.body b).2.Reaches s := by
  obtain ⟨b₁, m, before, hlowers, -, -, hgives⟩ := addPart_gives b part
  exact (hlowers.trans (lowers_join _ _ _ _)).reaches (hgives.reaches hs)

lemma reaches_foldl_addPart {parts : List SourcePart}
    (hs : (parts.foldl SchemaBuilder.addPart b).Reaches s) : b.Reaches s := by
  induction parts generalizing b with
  | nil => exact hs
  | cons part parts ih =>
      exact (denotes_lowerBody part.body b).lowers.reaches (reaches_addPart (ih hs))

lemma holds_foldl_addPart {before : List SourcePart} (h : b.Holds before)
    (parts : List SourcePart) : (parts.foldl SchemaBuilder.addPart b).Holds (before ++ parts) := by
  induction parts generalizing b before with
  | nil => rwa [List.append_nil]
  | cons part parts ih =>
      rw [List.foldl_cons, ← List.singleton_append, ← List.append_assoc]
      exact ih (h.addPart part)

/-- Where no name is defined twice, a definition is found by its name. -/
lemma find?_definition (hb : b.Distinct) {i : Nat} {d : Definition}
    (hi : b.definitions[i]? = some d) : b.definitions.find? (·.name == d.name) = some d := by
  cases hfind : b.definitions.find? (·.name == d.name) with
  | none =>
      have hne := Array.find?_eq_none.mp hfind d (Array.mem_of_getElem? hi)
      exact absurd (beq_self_eq_true d.name) hne
  | some e =>
      have hname := Array.find?_some hfind
      obtain ⟨j, hj⟩ := Array.getElem?_of_mem (Array.mem_of_find?_eq_some hfind)
      have hij := hb i j d e hi hj (beq_iff_eq.mp hname).symm
      rw [← hij, hi] at hj
      exact hj.symm

lemma hasBody_iff_find? (hb : b.Distinct) {name : String} :
    b.HasBody m (some name) ↔
      (b.definitions.find? (·.name == name)).bind Definition.body = some m := by
  constructor
  · rintro ⟨i, d, hi, rfl, hm⟩
    rw [find?_definition hb hi, Option.bind_some, hm]
  · intro h
    obtain ⟨e, hfind, hm⟩ := Option.bind_eq_some_iff.mp h
    have hname := Array.find?_some hfind
    obtain ⟨j, hj⟩ := Array.getElem?_of_mem (Array.mem_of_find?_eq_some hfind)
    exact ⟨j, e, hj, beq_iff_eq.mp hname, hm⟩

end SchemaBuilder

namespace Schema

variable (s : Schema)

/-! ## Names in a finished schema -/

/-- The builder that a schema was finished from. -/
def builder : SchemaBuilder :=
  ⟨s.patterns, s.definitions, some s.start⟩

lemma builder_reaches : s.builder.Reaches s :=
  ⟨fun _ _ h => h, fun _ d h => ⟨d, h, rfl⟩⟩

lemma namedStep_mono {f g : String → NameLanguage} {x y : Nat → NameLanguage} (hnames : f ≤ g)
    (h : x ≤ y) : s.namedStep f x ≤ s.namedStep g y := by
  intro id
  unfold namedStep meaningOf
  cases s.pattern id with
  | choice members => exact sum_mono h members
  | group members => exact prod_mono h members
  | interleave members => exact foldl_shuffle_mono h members (le_refl _)
  | oneOrMore body => exact mul_le_mul' (h body) (kstar_mono (h body))
  | ref d =>
      dsimp only
      cases s.definitions[d]? with
      | none => exact le_refl _
      | some definition => exact hnames definition.name
  | _ => exact le_refl _

/-- What a name means, given the languages of all patterns. -/
def bodyMeaning (x : Nat → NameLanguage) (name : String) : NameLanguage :=
  match (s.definitions.find? (·.name == name)).bind Definition.body with
  | some body => x body
  | none => 0

lemma bodyMeaning_mono : Monotone s.bodyMeaning := by
  intro x y h name
  unfold bodyMeaning
  split
  · exact h _
  · exact le_refl _

/-- The patterns of a schema, some of which are the bodies of definitions. -/
def nameSystem : NameSystem Nat NameLanguage where
  step := s.namedStep
  named := s.bodyMeaning
  step_mono hnames h := s.namedStep_mono hnames h
  named_mono := s.bodyMeaning_mono

/-- What the names of definitions mean. -/
def nameMeaning : String → NameLanguage :=
  s.nameSystem.named s.nameSystem.meaning

variable {s}

/-- Where no name is defined twice, a reference means what the name means. -/
lemma contentStep_eq_namedStep (hdistinct : s.builder.Distinct) (x : Nat → NameLanguage) :
    s.contentStep (fun id => {w | ∃ n, s.admits id n = true ∧ w = [n]}) x
      = s.namedStep (s.bodyMeaning x) x := by
  funext id
  unfold contentStep namedStep meaningOf
  cases hid : s.pattern id with
  | element name content documentation =>
      simp only [admits, elementName?, hid, Option.any_some]
      rfl
  | ref d =>
      dsimp only
      rw [body?]
      cases hd : s.definitions[d]? with
      | none => rfl
      | some definition =>
          have hfind : s.definitions.find? (·.name == definition.name) = some definition :=
            SchemaBuilder.find?_definition hdistinct hd
          cases hbody : definition.body with
          | none => simp [bodyMeaning, hfind, hbody]
          | some m => simp [bodyMeaning, hfind, hbody]
  | _ => rfl

/-- Without names that are defined twice, the names of children solve the equations with names. -/
lemma childNames_eq_meaning (hdistinct : s.builder.Distinct) :
    s.childNames = s.nameSystem.meaning :=
  congrArg OrderHom.lfp (OrderHom.ext _ _ (funext (contentStep_eq_namedStep hdistinct)))

lemma solves_childNames (hdistinct : s.builder.Distinct) :
    s.Solves s.nameMeaning s.childNames := by
  rw [childNames_eq_meaning hdistinct]
  exact s.nameSystem.meaning_eq

/-- Whether a schema declares something of an element. -/
def Declares (s : Schema) (d : Declared) : Prop :=
  s.builder.Declares s.childNames d

/-- Whether a schema says what the parts of a grammar say. -/
structure Realizes (s : Schema) (parts : List SourcePart) : Prop where
  distinct : s.builder.Distinct
  exists_body : ∀ target, SourcePart.partsOf parts target ≠ [] → ∃ m, s.builder.HasBody m target
  body : ∀ target m, s.builder.HasBody m target →
    s.childNames m = SourcePart.defined parts s.nameMeaning target
  names : s.nameSystem.Obeys fun names name => SourcePart.defined parts names (some name)
  declares : ∀ d, s.Declares d ↔
    ∃ part ∈ parts, ∃ e ∈ SourcePattern.elementsIn part.body, e.declared s.nameMeaning = d

/-- The names of a schema whose builder holds some parts. -/
lemma obeys_of_holds {parts : List SourcePart} (h : s.builder.Holds parts) :
    s.nameSystem.Obeys fun names name => SourcePart.defined parts names (some name) := by
  intro names x hx
  funext name
  change s.bodyMeaning x name = _
  rw [bodyMeaning]
  split
  · rename_i m hm
    obtain ⟨-, hmeans⟩ := h.body _ m ((SchemaBuilder.hasBody_iff_find? h.distinct).mpr hm)
    exact hmeans s names x s.builder_reaches hx
  · rename_i hnone
    have hnil : SourcePart.partsOf parts (some name) = [] := by
      by_contra hne
      obtain ⟨m, hm⟩ := h.exists_body _ hne
      have hsome := (SchemaBuilder.hasBody_iff_find? h.distinct).mp hm
      exact absurd (hnone.symm.trans hsome) (by simp)
    simp only [SourcePart.defined, hnil]
    rfl

end Schema

/-- A compiled grammar is what adding its parts leads to. -/
lemma Schema.builder_of_compile {parts : List SourcePart} {s : Schema}
    (h : (SourceSchema.grammar parts).compile = .ok s) :
    s.builder = parts.foldl SchemaBuilder.addPart .empty := by
  simp only [SourceSchema.compile] at h
  split at h
  · rename_i start hstart
    rw [SchemaBuilder.finish_ok h, Schema.builder, ← hstart]
  · cases h

/-- **Compiled grammars mean what is written.**  The body of a target is what its parts say
together, each joined to those before it, and the elements that are declared are those of the
parts. -/
theorem SourceSchema.compile_realizes {parts : List SourcePart} {s : Schema}
    (h : (SourceSchema.grammar parts).compile = .ok s) : s.Realizes parts := by
  have hholds : s.builder.Holds parts := by
    rw [Schema.builder_of_compile h]
    exact SchemaBuilder.holds_foldl_addPart SchemaBuilder.holds_empty parts
  have hsolves := s.solves_childNames hholds.distinct
  exact ⟨hholds.distinct, hholds.exists_body,
    fun target m hm => (hholds.body target m hm).2 s _ _ s.builder_reaches hsolves,
    s.obeys_of_holds hholds, hholds.declares s _ _ s.builder_reaches hsolves⟩

end XmlAdvisor
