import XmlAdvisor.Proofs.CompiledSchema
import XmlAdvisor.Proofs.SourceLanguage

/-!
# Compiling keeps meanings

The pattern that a written pattern is compiled to means what the written one does.  While patterns
are added, the names that they refer to may not be defined yet, so this is said of every solution of
the equations of the finished table in which names are left open (`Schema.Solves`).

* `SchemaBuilder.Lowers` — what lowering leaves as it is.
* `SchemaBuilder.Denotes` — what it adds: patterns with given meanings, and elements that are
  declared.
* **`SchemaBuilder.denotes_lower`** — a lowered pattern means what the written one does.
-/

namespace XmlAdvisor

open scoped Computability

/-- Whether a pattern is an element. -/
def Pattern.isElement : Pattern → Bool
  | .element .. => true
  | _ => false

/-! ## Solutions with open names -/

namespace Schema

/-- The language of a pattern, given those of the patterns it is written with and what the names of
definitions mean. -/
def meaningOf (s : Schema) (names : String → NameLanguage) (x : Nat → NameLanguage) :
    Pattern → NameLanguage
  | .element name _ _ => name.names
  | .empty | .text | .data _ | .value _ | .list _ | .attribute .. => 1
  | .notAllowed => 0
  | .choice members => (members.map x).sum
  | .group members => (members.map x).prod
  | .interleave members => (members.map x).foldl shuffle 1
  | .oneOrMore body => x body * (x body)∗
  | .ref d =>
    match s.definitions[d]? with
    | some definition => names definition.name
    | none => 0

/-- The language of each pattern, given those of all patterns and what the names mean. -/
def namedStep (s : Schema) (names : String → NameLanguage) (x : Nat → NameLanguage) (id : Nat) :
    NameLanguage :=
  s.meaningOf names x (s.pattern id)

lemma namedStep_eq {s : Schema} {id : Nat} {p : Pattern} (h : s.pattern id = p)
    (names : String → NameLanguage) (x : Nat → NameLanguage) :
    s.namedStep names x id = s.meaningOf names x p := by
  rw [namedStep, h]

/-- Whether languages of patterns solve the equations when the names mean the given languages. -/
def Solves (s : Schema) (names : String → NameLanguage) (x : Nat → NameLanguage) : Prop :=
  s.namedStep names x = x

end Schema

namespace SchemaBuilder

/-! ## Builders that grow -/

/-- Whether no two definitions have the same name. -/
def Distinct (b : SchemaBuilder) : Prop :=
  ∀ (i j : Nat) (d e : Definition), b.definitions[i]? = some d → b.definitions[j]? = some e →
    d.name = e.name → i = j

/-- What lowering does to a builder: it adds patterns and names without bodies. -/
structure Lowers (b b' : SchemaBuilder) : Prop where
  patterns : ∀ (i : Nat) (p : Pattern), b.patterns[i]? = some p → b'.patterns[i]? = some p
  definitions : ∀ (i : Nat) (d : Definition), b.definitions[i]? = some d →
    b'.definitions[i]? = some d
  unbodied : ∀ (i : Nat) (d : Definition), b'.definitions[i]? = some d →
    b.definitions[i]? = some d ∨ d.body = none
  start : b'.start = b.start
  distinct : b.Distinct → b'.Distinct

/-- Whether a builder can grow into a schema. -/
structure Reaches (b : SchemaBuilder) (s : Schema) : Prop where
  patterns : ∀ (i : Nat) (p : Pattern), b.patterns[i]? = some p → s.patterns[i]? = some p
  names : ∀ (i : Nat) (d : Definition), b.definitions[i]? = some d →
    ∃ e, s.definitions[i]? = some e ∧ e.name = d.name

variable {b b₁ b₂ : SchemaBuilder} {s : Schema} {ids ids₁ ids₂ : List Nat}

lemma lowers_refl (b : SchemaBuilder) : b.Lowers b :=
  ⟨fun _ _ h => h, fun _ _ h => h, fun _ _ h => .inl h, rfl, fun h => h⟩

lemma Lowers.trans (h₁ : b.Lowers b₁) (h₂ : b₁.Lowers b₂) : b.Lowers b₂ where
  patterns i p hp := h₂.patterns i p (h₁.patterns i p hp)
  definitions i d hd := h₂.definitions i d (h₁.definitions i d hd)
  unbodied i d hd := (h₂.unbodied i d hd).elim (h₁.unbodied i d) .inr
  start := h₂.start.trans h₁.start
  distinct h := h₂.distinct (h₁.distinct h)

lemma Lowers.reaches (h : b.Lowers b₁) (hs : b₁.Reaches s) : b.Reaches s where
  patterns i p hp := hs.patterns i p (h.patterns i p hp)
  names i d hd := hs.names i d (h.definitions i d hd)

lemma lowers_push (b : SchemaBuilder) (p : Pattern) : b.Lowers (b.push p).2 := by
  refine ⟨fun i q hq => ?_, fun _ _ h => h, fun _ _ h => .inl h, rfl, fun h => h⟩
  have hi := (Array.getElem?_eq_some_iff.mp hq).1
  simp only [SchemaBuilder.push, Array.getElem?_push]
  rw [if_neg (Nat.ne_of_lt hi), hq]

lemma getElem?_push_self (b : SchemaBuilder) (p : Pattern) :
    (b.push p).2.patterns[(b.push p).1]? = some p := by
  simp [SchemaBuilder.push]

/-- The definition of a name, which is new if there was none. -/
lemma lowers_definition (b : SchemaBuilder) (name : String) :
    b.Lowers (b.definition name).2 ∧
      ∃ d, (b.definition name).2.definitions[(b.definition name).1]? = some d ∧ d.name = name := by
  rw [SchemaBuilder.definition]
  cases hfind : b.definitions.findIdx? (·.name == name) with
  | some i =>
      obtain ⟨hi, hname, -⟩ := Array.findIdx?_eq_some_iff_getElem.mp hfind
      refine ⟨lowers_refl b, b.definitions[i], Array.getElem?_eq_getElem hi, ?_⟩
      exact beq_iff_eq.mp hname
  | none =>
      rw [Array.findIdx?_eq_none_iff] at hfind
      have hnew {i : Nat} {d : Definition} (hd : b.definitions[i]? = some d) : d.name ≠ name := by
        have hne := hfind d (Array.mem_of_getElem? hd)
        exact fun h => by simp [h] at hne
      refine ⟨⟨fun _ _ h => h, fun i d hd => ?_, fun i d hd => ?_, rfl, ?_⟩, ⟨name, none⟩, ?_, rfl⟩
      · have hi := (Array.getElem?_eq_some_iff.mp hd).1
        rw [Array.getElem?_push, if_neg (Nat.ne_of_lt hi), hd]
      · rw [Array.getElem?_push] at hd
        split_ifs at hd
        · cases hd
          exact .inr rfl
        · exact .inl hd
      · intro hdistinct i j d e hd he hname
        rw [Array.getElem?_push] at hd he
        split_ifs at hd he with hi hj hj
        · rw [hi, hj]
        · cases hd
          exact absurd hname.symm (hnew he)
        · cases he
          exact absurd hname (hnew hd)
        · exact hdistinct i j d e hd he hname
      · rw [Array.getElem?_push, if_pos rfl]

/-! ## What is added -/

/-- Whether one of the patterns of a builder declares something, when patterns mean given
languages. -/
def Declares (b : SchemaBuilder) (x : Nat → NameLanguage) (d : Declared) : Prop :=
  ∃ id content : Nat, b.patterns[id]? = some (.element d.name content d.documentation) ∧
    x content = d.childNames

/-- What is added to a builder: patterns with the given numbers and meanings, and elements. -/
structure Denotes (b b' : SchemaBuilder) (ids : List Nat)
    (languages : (String → NameLanguage) → List NameLanguage)
    (elements : List SourcePattern.WrittenElement) : Prop where
  lowers : b.Lowers b'
  means : ∀ s names x, b'.Reaches s → s.Solves names x → ids.map x = languages names
  declares : ∀ s names x, b'.Reaches s → s.Solves names x → ∀ d,
    b'.Declares x d ↔ b.Declares x d ∨ ∃ e ∈ elements, e.declared names = d

variable {ls ls₁ ls₂ : (String → NameLanguage) → List NameLanguage}
  {es es₁ es₂ : List SourcePattern.WrittenElement}

lemma denotes_nil (b : SchemaBuilder) : b.Denotes b [] (fun _ => []) [] :=
  ⟨lowers_refl b, fun _ _ _ _ _ => rfl, fun _ _ _ _ _ _ => by simp⟩

lemma Denotes.trans (h₁ : b.Denotes b₁ ids₁ ls₁ es₁) (h₂ : b₁.Denotes b₂ ids₂ ls₂ es₂) :
    b.Denotes b₂ (ids₁ ++ ids₂) (fun names => ls₁ names ++ ls₂ names) (es₁ ++ es₂) := by
  refine ⟨h₁.lowers.trans h₂.lowers, fun s names x hs hx => ?_, fun s names x hs hx d => ?_⟩
  · rw [List.map_append, h₁.means s names x (h₂.lowers.reaches hs) hx, h₂.means s names x hs hx]
  · rw [h₂.declares s names x hs hx, h₁.declares s names x (h₂.lowers.reaches hs) hx]
    simp only [List.mem_append, or_and_right, exists_or, or_assoc]

/-- The equation of a pattern that was added. -/
lemma Reaches.solves_push {p : Pattern} (hs : (b.push p).2.Reaches s)
    {names : String → NameLanguage} {x : Nat → NameLanguage} (hx : s.Solves names x) :
    s.pattern (b.push p).1 = p ∧ x (b.push p).1 = s.namedStep names x (b.push p).1 := by
  have hp := hs.patterns _ p (b.getElem?_push_self p)
  have hlt := (Array.getElem?_eq_some_iff.mp hp).1
  refine ⟨?_, (congrFun hx _).symm⟩
  rw [Schema.mem_patterns_of_lt hlt, Option.some.injEq] at hp
  exact hp

/-- An added pattern that is no element declares nothing. -/
lemma declares_push {p : Pattern} (hp : p.isElement = false) (x : Nat → NameLanguage)
    (d : Declared) : (b.push p).2.Declares x d ↔ b.Declares x d := by
  constructor
  · rintro ⟨id, content, hid, hx⟩
    simp only [SchemaBuilder.push, Array.getElem?_push] at hid
    split_ifs at hid
    · cases hid
      cases hp
    · exact ⟨id, content, hid, hx⟩
  · rintro ⟨id, content, hid, hx⟩
    exact ⟨id, content, (lowers_push b p).patterns _ _ hid, hx⟩

/-- A pattern over those that were added last. -/
lemma Denotes.push (h : b.Denotes b₁ ids ls es) {p : Pattern} (hp : p.isElement = false)
    {l : (String → NameLanguage) → NameLanguage}
    (hl : ∀ (s : Schema) names x id, s.pattern id = p → ids.map x = ls names →
      s.namedStep names x id = l names) :
    b.Denotes (b₁.push p).2 [(b₁.push p).1] (fun names => [l names]) es := by
  refine ⟨h.lowers.trans (lowers_push b₁ p), fun s names x hs hx => ?_, fun s names x hs hx d => ?_⟩
  · obtain ⟨hid, heq⟩ := hs.solves_push hx
    have hmeans := h.means s names x ((lowers_push b₁ p).reaches hs) hx
    rw [List.map_singleton, heq, hl s names x _ hid hmeans]
  · rw [declares_push hp, h.declares s names x ((lowers_push b₁ p).reaches hs) hx]

/-- A pattern over none. -/
lemma denotes_leaf (b : SchemaBuilder) {p : Pattern} (hp : p.isElement = false) {l : NameLanguage}
    (hl : ∀ (s : Schema) names x id, s.pattern id = p → s.namedStep names x id = l) :
    b.Denotes (b.push p).2 [(b.push p).1] (fun _ => [l]) [] :=
  (denotes_nil b).push hp fun s names x id hid _ => hl s names x id hid

/-- A pattern over one that was added last and one over none. -/
lemma Denotes.pushOver {body : Nat} {l r : (String → NameLanguage) → NameLanguage}
    (h : b.Denotes b₁ [body] (fun names => [l names]) es) (leaf : Pattern)
    (hleaf : leaf.isElement = false) {k : NameLanguage}
    (hk : ∀ (s : Schema) names x id, s.pattern id = leaf → s.namedStep names x id = k)
    {p : Pattern} (hp : p.isElement = false)
    (hl : ∀ (s : Schema) names x id, s.pattern id = p → x body = l names →
      x (b₁.push leaf).1 = k → s.namedStep names x id = r names) :
    b.Denotes ((b₁.push leaf).2.push p).2 [((b₁.push leaf).2.push p).1] (fun names => [r names])
      es := by
  have hboth := h.trans (denotes_leaf b₁ hleaf hk)
  rw [List.append_nil] at hboth
  refine hboth.push hp fun s names x id hid hmeans => ?_
  obtain ⟨hbody, hnothing⟩ := List.cons_eq_cons.mp hmeans
  exact hl s names x id hid hbody (List.cons_eq_cons.mp hnothing).1

/-- Several patterns in one place. -/
lemma Denotes.group (h : b.Denotes b₁ ids ls es) :
    b.Denotes (b₁.group ids).2 [(b₁.group ids).1] (fun names => [(ls names).prod]) es := by
  unfold SchemaBuilder.group
  split
  · refine h.push rfl fun s names x id hid hmeans => ?_
    rw [← hmeans, s.namedStep_eq hid, Schema.meaningOf, List.map_nil, List.prod_nil]
  · refine ⟨h.lowers, fun s names x hs hx => ?_, h.declares⟩
    rw [← h.means s names x hs hx, List.map_singleton, List.prod_singleton]
  · refine h.push rfl fun s names x id hid hmeans => ?_
    rw [← hmeans, s.namedStep_eq hid, Schema.meaningOf]

/-- An element over its content. -/
lemma Denotes.pushElement {content : List SourcePattern} {body : Nat}
    (h : b.Denotes b₁ [body] (fun names => [(SourcePattern.languages names content).prod]) es)
    (name : NameClass) (documentation : Option String) :
    b.Denotes (b₁.push (.element name body documentation)).2
      [(b₁.push (.element name body documentation)).1] (fun _ => [name.names])
      (es ++ [(name, documentation, content)]) := by
  have hpush := lowers_push b₁ (.element name body documentation)
  refine ⟨h.lowers.trans hpush, fun s names x hs hx => ?_, fun s names x hs hx d => ?_⟩
  · obtain ⟨hid, heq⟩ := hs.solves_push hx
    rw [List.map_singleton, heq, s.namedStep_eq hid, Schema.meaningOf]
  · have hmeans := h.means s names x (hpush.reaches hs) hx
    rw [List.map_singleton, List.cons_eq_cons] at hmeans
    have hdeclares := h.declares s names x (hpush.reaches hs) hx d
    constructor
    · rintro ⟨id, content, hid, hcontent⟩
      simp only [SchemaBuilder.push, Array.getElem?_push] at hid
      split_ifs at hid
      · cases hid
        exact .inr ⟨_, List.mem_append_right _ (List.mem_singleton_self _), by
          rw [SourcePattern.WrittenElement.declared, ← hmeans.1, hcontent]⟩
      · rcases hdeclares.mp ⟨id, content, hid, hcontent⟩ with hold | ⟨e, he, hd⟩
        · exact .inl hold
        · exact .inr ⟨e, List.mem_append_left _ he, hd⟩
    · intro hd
      have hold (hd : b₁.Declares x d) :
          (b₁.push (.element name body documentation)).2.Declares x d := by
        obtain ⟨id, content, hid, hcontent⟩ := hd
        exact ⟨id, content, hpush.patterns _ _ hid, hcontent⟩
      rcases hd with hd | ⟨e, he, rfl⟩
      · exact hold (hdeclares.mpr (.inl hd))
      · rcases List.mem_append.mp he with he | he
        · exact hold (hdeclares.mpr (.inr ⟨e, he, rfl⟩))
        · rw [List.mem_singleton.mp he]
          exact ⟨_, body, b₁.getElem?_push_self _, hmeans.1⟩

lemma patterns_definition (b : SchemaBuilder) (name : String) :
    (b.definition name).2.patterns = b.patterns := by
  rw [SchemaBuilder.definition]
  split <;> rfl

/-- A name that is added declares nothing. -/
lemma Denotes.definition (h : b.Denotes b₁ ids ls es) (name : String) :
    b.Denotes (b₁.definition name).2 ids ls es := by
  obtain ⟨hlowers, -⟩ := lowers_definition b₁ name
  refine ⟨h.lowers.trans hlowers, fun s names x hs hx => h.means s names x (hlowers.reaches hs) hx,
    fun s names x hs hx d => ?_⟩
  rw [← h.declares s names x (hlowers.reaches hs) hx d, Declares, patterns_definition, Declares]

/-- A reference to a name. -/
lemma denotes_ref (b : SchemaBuilder) (name : String) :
    b.Denotes ((b.definition name).2.push (.ref (b.definition name).1)).2
      [((b.definition name).2.push (.ref (b.definition name).1)).1] (fun names => [names name])
      [] := by
  obtain ⟨-, d, hd, hname⟩ := lowers_definition b name
  have hnamed := (denotes_nil b).definition name
  have hpush := lowers_push (b.definition name).2 (.ref (b.definition name).1)
  refine ⟨hnamed.lowers.trans hpush, fun s names x hs hx => ?_, fun s names x hs hx d => ?_⟩
  · obtain ⟨hid, heq⟩ := hs.solves_push hx
    obtain ⟨e, he, hsame⟩ := (hpush.reaches hs).names _ d hd
    rw [List.map_singleton, heq, s.namedStep_eq hid, Schema.meaningOf, he]
    dsimp only
    rw [hsame, hname]
  · rw [declares_push rfl, hnamed.declares s names x (hpush.reaches hs) hx]

/-! ## Lowering -/

mutual
lemma denotes_lower : ∀ (p : SourcePattern) (b : SchemaBuilder),
    b.Denotes (lower p b).2 [(lower p b).1] (fun names => [p.language names]) p.elements
  | .element name content documentation, b => by
      rw [lower]
      exact (denotes_lowerBody content b).pushElement name documentation
  | .attribute name value documentation default, b => by
      rw [lower]
      have hvalue : b.Denotes (if value.isEmpty then b.push .text else lowerBody value b).2
          [(if value.isEmpty then b.push .text else lowerBody value b).1]
          (fun names => [(SourcePattern.languages names value).prod])
          (SourcePattern.elementsIn value) := by
        split_ifs with hempty
        · rw [List.isEmpty_iff.mp hempty]
          exact denotes_leaf b rfl fun s names x id hid => s.namedStep_eq hid names x
        · exact denotes_lowerBody value b
      exact hvalue.push rfl fun s names x id hid _ => s.namedStep_eq hid names x
  | .empty, b => by
      rw [lower]
      exact denotes_leaf b rfl fun s names x id hid => s.namedStep_eq hid names x
  | .text, b => by
      rw [lower]
      exact denotes_leaf b rfl fun s names x id hid => s.namedStep_eq hid names x
  | .notAllowed, b => by
      rw [lower]
      exact denotes_leaf b rfl fun s names x id hid => s.namedStep_eq hid names x
  | .data datatype, b => by
      rw [lower]
      exact denotes_leaf b rfl fun s names x id hid => s.namedStep_eq hid names x
  | .value literal, b => by
      rw [lower]
      exact denotes_leaf b rfl fun s names x id hid => s.namedStep_eq hid names x
  | .list body, b => by
      rw [lower]
      exact (denotes_lowerBody body b).push rfl fun s names x id hid _ => s.namedStep_eq hid names x
  | .group members, b => by
      rw [lower]
      exact denotes_lowerBody members b
  | .interleave members, b => by
      rw [lower]
      refine (denotes_lowerAll members b).push rfl fun s names x id hid hmeans => ?_
      rw [s.namedStep_eq hid, Schema.meaningOf, hmeans, SourcePattern.language]
  | .choice members, b => by
      rw [lower]
      refine (denotes_lowerAll members b).push rfl fun s names x id hid hmeans => ?_
      rw [s.namedStep_eq hid, Schema.meaningOf, hmeans, SourcePattern.language]
  | .optional body, b => by
      rw [lower]
      refine (denotes_lowerBody body b).pushOver .empty rfl (k := 1)
        (fun s names x id hid => s.namedStep_eq hid names x) rfl
        fun s names x id hid hbody hnothing => ?_
      rw [s.namedStep_eq hid, SourcePattern.language, ← hbody, ← hnothing]
      simp only [Schema.meaningOf, SchemaBuilder.push, List.map_cons, List.map_nil, List.sum_cons,
        List.sum_nil, add_zero]
  | .zeroOrMore body, b => by
      rw [lower]
      have hmany := (denotes_lowerBody body b).push (p := .oneOrMore (lowerBody body b).1)
        (l := fun names => (SourcePattern.languages names body).prod *
          (SourcePattern.languages names body).prod∗) rfl fun s names x id hid hmeans => by
        rw [s.namedStep_eq hid, Schema.meaningOf, (List.cons_eq_cons.mp hmeans).1]
      refine hmany.pushOver .empty rfl (k := 1)
        (fun s names x id hid => s.namedStep_eq hid names x) rfl
        fun s names x id hid hmany hnothing => ?_
      rw [s.namedStep_eq hid, SourcePattern.language, ← Language.one_add_self_mul_kstar_eq_kstar,
        ← hmany, ← hnothing, add_comm]
      simp only [Schema.meaningOf, SchemaBuilder.push, List.map_cons, List.map_nil, List.sum_cons,
        List.sum_nil, add_zero]
  | .oneOrMore body, b => by
      rw [lower]
      refine (denotes_lowerBody body b).push rfl fun s names x id hid hmeans => ?_
      rw [s.namedStep_eq hid, Schema.meaningOf, (List.cons_eq_cons.mp hmeans).1,
        SourcePattern.language]
  | .mixed body, b => by
      rw [lower]
      refine (denotes_lowerBody body b).pushOver .text rfl (k := 1)
        (fun s names x id hid => s.namedStep_eq hid names x) rfl
        fun s names x id hid hbody htext => ?_
      rw [s.namedStep_eq hid, SourcePattern.language, ← hbody]
      simp only [Schema.meaningOf, List.map_cons, List.map_nil, List.foldl_cons, List.foldl_nil,
        one_shuffle]
      exact (congrArg (shuffle _) htext).trans shuffle_one
  | .ref name, b => by
      rw [lower]
      exact denotes_ref b name

lemma denotes_lowerAll : ∀ (ps : List SourcePattern) (b : SchemaBuilder),
    b.Denotes (lowerAll ps b).2 (lowerAll ps b).1 (fun names => SourcePattern.languages names ps)
      (SourcePattern.elementsIn ps)
  | [], b => by
      rw [lowerAll]
      exact denotes_nil b
  | p :: more, b => by
      rw [lowerAll]
      exact (denotes_lower p b).trans (denotes_lowerAll more (lower p b).2)

lemma denotes_lowerBody : ∀ (ps : List SourcePattern) (b : SchemaBuilder),
    b.Denotes (lowerBody ps b).2 [(lowerBody ps b).1]
      (fun names => [(SourcePattern.languages names ps).prod]) (SourcePattern.elementsIn ps)
  | ps, b => by
      rw [lowerBody]
      exact (denotes_lowerAll ps b).group
end

end SchemaBuilder

end XmlAdvisor
