import XmlAdvisor.Proofs.AttributePresence
import XmlAdvisor.Proofs.SchemaContent

/-!
# Values that are admitted are not reported

The value of an attribute is compared with the literals of one attribute pattern: the first that is
listed under the name of the attribute.  A value is trimmed for that, and a literal is not.

* `collapsed` — a value with its white space normalized as the schema language has it.
* `Schema.Admits` — the values that a pattern admits; literals are equal up to white space.
* `exists_literal_of_admits` — a value that is admitted is one of the literals, if there are any.
* `Schema.consulted?` — the attribute pattern whose literals are looked at.
* **`admitted_not_reported`** — a value that some attribute pattern admits is not reported if no
  other pattern is looked at that does not, and if no white space is in the way.
* `admitted_reported_spaced`, `admitted_reported_second` — values that are reported: one with the
  white space of its literal, and one of a pattern that is listed behind another.
-/

namespace XmlAdvisor

/-- A value with its words divided by single spaces. -/
def collapsed (v : String) : String :=
  String.ofList ([' '].intercalate
    ((v.toList.splitOnP isXmlSpace).filter fun word => !word.isEmpty))

namespace Schema

variable {s : Schema} {id p q content : Nat} {v : String}

/-! ## What a pattern admits -/

/-- Whether a pattern admits a value: a literal those that are equal to it up to white space, text
and data any, a choice those of its members, and a reference those of the definition. -/
inductive Admits (s : Schema) : Nat → String → Prop
  | literal {id : Nat} {l v : String} (hp : s.pattern id = .value l)
      (h : collapsed l = collapsed v) :
      Admits s id v
  | text {id : Nat} {v : String} (hp : s.pattern id = .text) : Admits s id v
  | data {id : Nat} {datatype v : String} (hp : s.pattern id = .data datatype) : Admits s id v
  | choice {id m : Nat} {members : List Nat} {v : String} (hp : s.pattern id = .choice members)
      (hm : m ∈ members) (h : Admits s m v) : Admits s id v
  | ref {id d body : Nat} {v : String} (hp : s.pattern id = .ref d) (hb : s.body? d = some body)
      (h : Admits s body v) : Admits s id v

/-- The literals of a choice are those of its members. -/
lemma valuesWithin_choice {depth hops : Nat} {members : List Nat} {literals : List String}
    (hp : s.pattern id = .choice members)
    (h : s.valuesWithin (depth + 1) hops id = some literals) {m : Nat} (hm : m ∈ members) :
    ∃ own ⊆ literals, s.valuesWithin depth hops m = some own := by
  rw [valuesWithin, hp] at h
  obtain ⟨lists, hlists, rfl⟩ := Option.map_eq_some_iff.mp h
  clear h hp
  induction members generalizing lists with
  | nil => cases hm
  | cons first members ih =>
      simp only [List.mapM_cons, Option.bind_eq_bind, Option.bind_eq_some_iff,
        Option.pure_def, Option.some.injEq] at hlists
      obtain ⟨own, hown, more, hmore, rfl⟩ := hlists
      rw [List.flatten_cons]
      rcases List.mem_cons.mp hm with rfl | hm
      · exact ⟨own, List.subset_append_left .., hown⟩
      · obtain ⟨later, hlater, hm⟩ := ih hm more hmore
        exact ⟨later, List.subset_append_of_subset_right _ hlater, hm⟩

/-- If a pattern is a choice of literals, a value that it admits is one of them up to white
space. -/
lemma exists_literal_of_admits {depth hops : Nat} {literals : List String}
    (h : s.valuesWithin depth hops id = some literals) (hv : s.Admits id v) :
    ∃ l ∈ literals, collapsed l = collapsed v := by
  induction depth generalizing hops id literals with
  | zero => cases h
  | succ depth ih =>
      cases hv with
      | literal hp hl =>
          rw [valuesWithin, hp] at h
          cases h
          exact ⟨_, List.mem_singleton_self _, hl⟩
      | text hp | data hp =>
          rw [valuesWithin, hp] at h
          cases h
      | choice hp hm hv =>
          obtain ⟨own, hown, h⟩ := valuesWithin_choice hp h hm
          obtain ⟨l, hl, hcollapsed⟩ := ih h hv
          exact ⟨l, hown hl, hcollapsed⟩
      | ref hp hb hv =>
          rw [valuesWithin, hp] at h
          dsimp only at h
          rw [hb] at h
          cases hops with
          | zero => cases h
          | succ hops => exact ih h hv

lemma exists_enumerated_of_admits (hne : s.enumeratedValues id ≠ []) (hv : s.Admits id v) :
    ∃ l ∈ s.enumeratedValues id, collapsed l = collapsed v := by
  rw [enumeratedValues] at hne ⊢
  cases h : s.valuesWithin ((s.definitions.size + 1 + 1) * (s.patterns.size + 1))
      (s.definitions.size + 1) id with
  | none => simp [h] at hne
  | some literals => exact exists_literal_of_admits h hv

/-! ## The pattern that is looked at -/

/-- The declaration of an attribute pattern that is written with one name. -/
def attributeDeclaration? (s : Schema) (x : Nat × Bool) : Option AttributeDeclaration :=
  match s.pattern x.1 with
  | .attribute name value documentation default =>
    name.simple?.map fun n =>
      ⟨n.2, x.2, default, s.enumeratedValues value, documentation⟩
  | _ => none

lemma attributeDeclarations_eq :
    s.attributeDeclarations content = (s.attributePatterns content).filterMap
    s.attributeDeclaration? :=
  rfl

/-- The first attribute pattern that is listed under a name. -/
def listedAs? (s : Schema) (content : Nat) (name : String) : Option Nat :=
  ((s.attributePatterns content).find? fun x =>
    ((s.attributeName? x.1).bind NameClass.simple?).any fun n => n.2 = name).map Prod.fst

/-- The attribute pattern whose literals the value of an attribute is compared with. -/
def consulted? (s : Schema) (content : Nat) (a : Attribute) : Option Nat :=
  (s.listedAs? content a.name).or (s.listedAs? content a.localName)

/-- Whether an attribute pattern admits a value. -/
def AttributeAdmits (s : Schema) (p : Nat) (v : String) : Prop :=
  ∃ name value documentation default,
    s.pattern p = .attribute name value documentation default ∧ s.Admits value v

/-- Whether the literals of an attribute pattern are written without further white space. -/
def LiteralsPlain (s : Schema) (p : Nat) : Prop :=
  ∀ name value documentation default, s.pattern p = .attribute name value documentation default →
    ∀ l ∈ s.enumeratedValues value, collapsed l = l

/-- Whether a content model leads to an attribute pattern that takes a name and admits a value. -/
structure AdmitsAt (s : Schema) (content p : Nat) (n : String × String) (v : String) : Prop where
  led : s.Leads true content p
  named : ∃ name, s.attributeName? p = some name ∧ name.contains n.1 n.2 = true
  admits : s.AttributeAdmits p v

/-- The attribute patterns that are listed under a name are those that are declared by it. -/
lemma listedAs?_eq (name : String) : s.listedAs? content name =
    ((s.attributePatterns content).find? fun x =>
      (s.attributeDeclaration? x).any (·.name = name)).map Prod.fst := by
  rw [listedAs?]
  congr 2
  funext x
  rw [attributeName?, attributeDeclaration?]
  cases s.pattern x.1 with
  | «attribute» nc value documentation default =>
      dsimp only
      cases hn : nc.simple? <;> simp [hn]
  | _ => rfl

/-- A declaration that is found by name is that of the first pattern listed under it. -/
lemma exists_listedAs?_of_find? {name : String} {d : AttributeDeclaration}
    (h : (s.attributeDeclarations content).find? (·.name = name) = some d) :
    ∃ q nc value documentation default, s.listedAs? content name = some q ∧
      s.pattern q = .attribute nc value documentation default ∧
      d.values = s.enumeratedValues value := by
  rw [attributeDeclarations_eq, List.find?_filterMap] at h
  obtain ⟨⟨q, required⟩, hfind, hd⟩ := Option.bind_eq_some_iff.mp h
  rw [attributeDeclaration?] at hd
  split at hd
  · rename_i nc value documentation default hp
    obtain ⟨n, -, rfl⟩ := Option.map_eq_some_iff.mp hd
    refine ⟨q, nc, value, documentation, default, ?_, hp, rfl⟩
    rw [listedAs?_eq, hfind, Option.map_some]
  · cases hd

lemma listedAs?_eq_none_of_find? {name : String}
    (h : (s.attributeDeclarations content).find? (·.name = name) = none) :
    s.listedAs? content name = none := by
  rw [attributeDeclarations_eq, List.find?_filterMap] at h
  rw [listedAs?_eq, Option.map_eq_none_iff]
  cases hfind : (s.attributePatterns content).find? fun x =>
      (s.attributeDeclaration? x).any (·.name = name) with
  | none => rfl
  | some x =>
      have hsome := List.find?_some hfind
      rw [hfind, Option.bind_some] at h
      rw [h] at hsome
      cases hsome

end Schema

/-! ## What is reported -/

section Reported

variable {s : Schema} {id p content : Nat} {e : ElementNode} {a : Attribute} {ns : String}

/-- The declaration of an attribute that is there is that of the pattern that is looked at. -/
lemma exists_consulted?_of_attributeFor? (hc : s.elementContent? id = some content)
    {d : AttributeDeclaration} (h : (Declaration.pattern s id).attributeFor? a = some d) :
    ∃ q nc value documentation default, s.consulted? content a = some q ∧
      s.pattern q = .attribute nc value documentation default ∧
      d.values = s.enumeratedValues value := by
  simp only [Declaration.attributeFor?, Declaration.attribute?, Declaration.attributes, hc] at h
  rcases Option.or_eq_some_iff.mp h with h | ⟨hnone, h⟩
  · obtain ⟨q, nc, value, documentation, default, hq, hp, hvalues⟩ :=
      Schema.exists_listedAs?_of_find? h
    refine ⟨q, nc, value, documentation, default, ?_, hp, hvalues⟩
    rw [Schema.consulted?, hq, Option.some_or]
  · obtain ⟨q, nc, value, documentation, default, hq, hp, hvalues⟩ :=
      Schema.exists_listedAs?_of_find? h
    refine ⟨q, nc, value, documentation, default, ?_, hp, hvalues⟩
    rw [Schema.consulted?, Schema.listedAs?_eq_none_of_find? hnone, hq, Option.none_or]

/-- **A value that is admitted is not reported**: if a content model leads to an attribute pattern
that takes the name of an attribute and admits its value, the attribute is not reported with an
invalid value.  The pattern that is looked at has to be this one, or else to admit the value too;
its literals have to be written without further white space, and trimming the value has to normalize
it. -/
theorem admitted_not_reported (hc : s.elementContent? id = some content)
    (h : s.AdmitsAt content p (ns, a.localName) a.value)
    (hconsulted : ∀ q ∈ s.consulted? content a, q = p ∨ s.AttributeAdmits q a.value)
    (hliterals : ∀ q ∈ s.consulted? content a, s.LiteralsPlain q)
    (hvalue : trimmed a.value = collapsed a.value) :
    (∀ v ∈ attributeViolation? (.pattern s id) e a, v.problem ≠ .attributeValueInvalid) ∧
    ∀ v ∈ attributeViolations (.pattern s id) e, v.problem = .attributeValueInvalid →
      ∃ b ∈ e.element.attributes, b ≠ a ∧ attributeViolation? (.pattern s id) e b = some v := by
  have hown : ∀ v ∈ attributeViolation? (.pattern s id) e a,
      v.problem ≠ .attributeValueInvalid := by
    intro v hv
    rw [attributeViolation?] at hv
    split at hv
    · split_ifs at hv
      · cases hv
      · rw [Option.mem_some_iff] at hv
        rw [← hv]
        exact ProblemCode.noConfusion
    · rename_i d hd
      obtain ⟨q, nc, value, documentation, default, hq, hp, hvalues⟩ :=
        exists_consulted?_of_attributeFor? hc hd
      have hadmits : s.AttributeAdmits q a.value :=
        (hconsulted q hq).elim (fun heq => heq ▸ h.admits) fun hadmits => hadmits
      obtain ⟨_, _, _, _, hp', hadmits⟩ := hadmits
      rw [hp] at hp'
      cases hp'
      have hlisted : (d.values.isEmpty || d.values.contains (trimmed a.value)) = true := by
        rw [hvalues, Bool.or_eq_true, List.isEmpty_iff, List.contains_iff_mem]
        by_cases hne : s.enumeratedValues value = []
        · exact .inl hne
        · obtain ⟨l, hl, hcollapsed⟩ := Schema.exists_enumerated_of_admits hne hadmits
          rw [hliterals q hq _ _ _ _ hp l hl] at hcollapsed
          rw [hvalue, ← hcollapsed]
          exact .inr hl
      rw [if_pos hlisted] at hv
      cases hv
  refine ⟨hown, fun v hv hproblem => ?_⟩
  rw [attributeViolations, List.mem_append] at hv
  rcases hv with hv | hv
  · obtain ⟨d, -, hv⟩ := List.mem_filterMap.mp hv
    split_ifs at hv
    cases hv
    cases hproblem
  · obtain ⟨b, hb, hv⟩ := List.mem_filterMap.mp hv
    refine ⟨b, List.mem_of_mem_filter hb, fun heq => ?_, hv⟩
    rw [heq] at hv
    exact hown v hv hproblem

end Reported

/-! ## Values with white space, and of a second pattern -/

/-- Elements with an attribute that is one of two literals, of which the second is a definition. -/
def Schema.literals : Schema where
  patterns := #[.value "a", .ref 0, .choice [0, 1], .attribute (.name "" "x") 2 none none,
    .element (.name "" "r") 3 none, .value "b"]
  definitions := #[⟨"b", some 5⟩]
  start := 4

/-- An element with one attribute, of a value in single quotes. -/
def valuedElement (value : String) : ElementNode :=
  ⟨0, none, ⟨0, value.length + 9⟩, ⟨⟨none, "r"⟩, none,
    [⟨"x", value, ⟨3, 4⟩, ⟨6, value.length + 6⟩⟩], [], some (value.length + 8), none, true⟩⟩

/-- A value in white space that is admitted by a definition. -/
theorem admitted_not_reported_literals :
    let e := valuedElement " b "
    let a : Attribute := ⟨"x", " b ", ⟨3, 4⟩, ⟨6, 9⟩⟩
    e ∈ (Tree.parse "<r x=' b '/>".toList).elements ∧ a ∈ e.element.attributes ∧
    Schema.literals.elementContent? 4 = some 3 ∧
    Schema.literals.AdmitsAt 3 3 ("", a.localName) a.value ∧
    Schema.literals.consulted? 3 a = some 3 ∧ Schema.literals.LiteralsPlain 3 ∧
    trimmed a.value = collapsed a.value ∧
    ∀ v ∈ attributeViolation? (.pattern Schema.literals 4) e a,
      v.problem ≠ .attributeValueInvalid := by
  intro e a
  have hc : Schema.literals.elementContent? 4 = some 3 := rfl
  have hadmits : Schema.literals.Admits 2 " b " :=
    .choice rfl (m := 1) (by decide) (.ref rfl rfl (.literal rfl (by decide +kernel)))
  have hat : Schema.literals.AdmitsAt 3 3 ("", a.localName) a.value :=
    ⟨.refl, ⟨_, rfl, by decide⟩, _, _, _, _, rfl, hadmits⟩
  have hconsulted : Schema.literals.consulted? 3 a = some 3 := by decide +kernel
  have hplain : Schema.literals.LiteralsPlain 3 := by
    intro name value documentation default hp
    cases hp
    decide +kernel
  have hvalue : trimmed a.value = collapsed a.value := by decide +kernel
  refine ⟨by decide +kernel, by decide +kernel, hc, hat, hconsulted, hplain, hvalue, ?_⟩
  refine (admitted_not_reported hc hat (fun q hq => ?_) (fun q hq => ?_) hvalue).1
  · rw [hconsulted] at hq
    cases hq
    exact .inl rfl
  · rw [hconsulted] at hq
    cases hq
    exact hplain

/-- Elements with an attribute that is a literal in white space. -/
def Schema.spaced : Schema :=
  ⟨#[.value " a ", .attribute (.name "" "x") 0 none none, .element (.name "" "r") 1 none], #[], 2⟩

def spacedContent : String :=
  "<attribute name='x'><value> a </value></attribute>"

def spacedSource : SourcePattern :=
  .element (.name "" "r") [.attribute (.name "" "x") [.value " a "] none none] none

lemma readSchema_spaced :
    (Tree.parse (Schema.contentDocument spacedContent)).readSchema =
    .ok (.pattern spacedSource) := by
  have hparse : Tree.parse (Schema.contentDocument spacedContent) = (Schema.writtenContent
      (.element (Schema.quotedTag "attribute" [("name", "x")])
        (.element (Schema.quotedTag "value" []) (.leaf (.text " a ") .nil) [] .nil) []
          .nil)).tree :=
    Schema.parse_contentDocument (by decide +kernel) (by decide +kernel)
  rw [hparse]
  rfl

lemma compile_spacedSource : (SourceSchema.pattern spacedSource).compile = .ok .spaced := by
  simp [spacedSource, SourceSchema.compile, SchemaBuilder.lower, SchemaBuilder.lowerAll,
    SchemaBuilder.lowerBody, SchemaBuilder.empty, SchemaBuilder.push, SchemaBuilder.group,
    SchemaBuilder.finish, Schema.spaced]

/-- **A literal in white space admits no value**, not even itself, as only the value is trimmed. -/
theorem admitted_reported_spaced :
    Schema.compile (Schema.contentDocument spacedContent) = .ok Schema.spaced ∧
    valuedElement " a " ∈ (Tree.parse "<r x=' a '/>".toList).elements ∧
    Schema.spaced.elementContent? 2 = some 1 ∧ Schema.spaced.AdmitsAt 1 1 ("", "x") " a " ∧
    (attributeViolations (.pattern Schema.spaced 2) (valuedElement " a ")).map (·.problem) =
      [.attributeValueInvalid] :=
  ⟨Schema.compile_of_readSchema readSchema_spaced compile_spacedSource, by decide +kernel, rfl,
    ⟨.refl, ⟨_, rfl, by decide⟩, _, _, _, _, rfl, .literal rfl rfl⟩, by decide +kernel⟩

/-- Elements with an attribute that is one of two, each with a literal. -/
def Schema.twoBranches : Schema :=
  ⟨#[.value "a", .attribute (.name "" "x") 0 none none, .value "b",
    .attribute (.name "" "x") 2 none none, .choice [1, 3], .element (.name "" "r") 4 none], #[], 5⟩

/-- The literals of the second pattern that is listed under a name are not looked at. -/
theorem admitted_reported_second :
    Schema.twoBranches.elementContent? 5 = some 4 ∧ Schema.twoBranches.AdmitsAt 4 3 ("", "x") "b" ∧
    (attributeViolations (.pattern Schema.twoBranches 5) (valuedElement "b")).map (·.problem) =
      [.attributeValueInvalid] := by
  have hled : Schema.twoBranches.Leads true 4 3 := .single (by decide)
  exact ⟨rfl, ⟨hled, ⟨_, rfl, by decide⟩, _, _, _, _, rfl, .literal rfl rfl⟩, by decide +kernel⟩

end XmlAdvisor
