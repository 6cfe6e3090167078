import XmlAdvisor.Proofs.SchemaReading

/-!
# What the elements of a schema document mean

Each pattern element of a schema document denotes a language, given those of the patterns inside it
and what the names of definitions mean (`Tree.patternStep`).  A name means the bodies of its
definitions together.  As definitions lead in circles, the languages are the least solution of these
equations.

How bodies go together is left open (`Merge`): each can be joined to those before it, or all be
combined at once.  Both are the same where the definitions of a name are combined in one way.

* `Tree.patternLanguage` — what the elements mean.
* `Tree.CombinedAlike` — whether the order of definitions makes no difference.
* **`Tree.language_of_readPattern`** — elements mean what the patterns mean that they are read as.
* **`Tree.obeys_of_readsSchema`** — names mean what the parts of the grammar say.
-/

namespace XmlAdvisor

open scoped Computability

/-- A way of putting the bodies of one name together. -/
structure Merge where
  join : List (Option Combine × NameLanguage) → NameLanguage
  mono : ∀ {bodies bodies' : List (Option Combine × NameLanguage)},
    List.Forall₂ (fun body body' => body.1 = body'.1 ∧ body.2 ≤ body'.2) bodies bodies' →
      join bodies ≤ join bodies'

/-- Each body is joined to those before it. -/
def Merge.inOrder : Merge :=
  ⟨joinInOrder, joinInOrder_mono⟩

/-- All bodies are combined at once. -/
def Merge.together : Merge :=
  ⟨joinTogether, joinTogether_mono⟩

namespace Tree

variable {t : Tree} {e c : ElementNode} {p : SourcePattern} {ps : List SourcePattern}
  {names : String → NameLanguage} {x : Nat → NameLanguage} {depth : Nat}

/-! ## The equations of a schema document -/

/-- The names that an element pattern stands for. -/
def patternNames (t : Tree) (e : ElementNode) : NameLanguage :=
  match t.readPatternName e (t.schemaNs e) (t.schemaNs e) .namelessElement with
  | .ok (name, _) => name.names
  | .error _ => 0

/-- What a pattern element means, given what all elements and what the names mean.  Data, values,
lists and attributes are no child elements. -/
def patternStep (t : Tree) (names : String → NameLanguage) (x : Nat → NameLanguage) (id : Nat) :
    NameLanguage :=
  match t.element? id with
  | none => 0
  | some e =>
    let inside := ((t.patternChildren e).map ElementNode.id).map x
    match e.element.localName with
    | "element" => t.patternNames e
    | "notAllowed" => 0
    | "choice" => inside.sum
    | "interleave" => inside.foldl shuffle 1
    | "group" | "mixed" => inside.prod
    | "optional" => inside.prod + 1
    | "zeroOrMore" => inside.prod∗
    | "oneOrMore" => inside.prod * inside.prod∗
    | "ref" | "parentRef" => names (trimmed ((attributeValue? e "name").getD ""))
    | _ => 1

/-- The starts and definitions of a schema document with a target. -/
def partElementsOf (t : Tree) (target : Option String) : List ElementNode :=
  t.schemaParts.filter (partTarget · = target)

/-- How a start or a definition is combined, and what its body means: the patterns in it one after
the other. -/
def bodyLanguage (t : Tree) (x : Nat → NameLanguage) (e : ElementNode) :
    Option Combine × NameLanguage :=
  (partCombine e, (((t.schemaChildren e).map ElementNode.id).map x).prod)

/-- How the starts and definitions with a target are combined. -/
def combinesOf (t : Tree) (target : Option String) : List (Option Combine) :=
  (t.partElementsOf target).map partCombine

/-- What a name means: the bodies of its definitions together. -/
def definedMeaning (t : Tree) (merge : Merge) (x : Nat → NameLanguage) (name : String) :
    NameLanguage :=
  merge.join ((t.partElementsOf (some name)).map (t.bodyLanguage x))

lemma patternStep_mono {names names' : String → NameLanguage} {x y : Nat → NameLanguage}
    (hnames : names ≤ names') (h : x ≤ y) : t.patternStep names x ≤ t.patternStep names' y := by
  intro id
  unfold patternStep
  cases t.element? id with
  | none => exact le_refl _
  | some e =>
      have hprod := Schema.prod_mono h ((t.patternChildren e).map ElementNode.id)
      dsimp only
      split
      case h_3 => exact Schema.sum_mono h _
      case h_4 => exact Schema.foldl_shuffle_mono h _ (le_refl _)
      case h_5 | h_6 => exact hprod
      case h_7 => exact add_le_add hprod (le_refl _)
      case h_8 => exact kstar_mono hprod
      case h_9 => exact mul_le_mul' hprod (kstar_mono hprod)
      case h_10 | h_11 => exact hnames _
      all_goals exact le_refl _

lemma definedMeaning_mono (t : Tree) (merge : Merge) : Monotone (t.definedMeaning merge) := by
  intro x y h name
  refine merge.mono ?_
  rw [List.forall₂_map_left_iff, List.forall₂_map_right_iff, List.forall₂_same]
  exact fun c _ => ⟨rfl, Schema.prod_mono h _⟩

/-- The elements of a schema document, some of which are definitions. -/
def patternSystem (t : Tree) (merge : Merge) : NameSystem Nat NameLanguage where
  step := t.patternStep
  named := t.definedMeaning merge
  step_mono hnames h := patternStep_mono hnames h
  named_mono := t.definedMeaning_mono merge

/-- What the pattern elements of a schema document mean. -/
def patternLanguage (t : Tree) (merge : Merge) : Nat → NameLanguage :=
  (t.patternSystem merge).meaning

lemma patternStep_patternLanguage (t : Tree) (merge : Merge) :
    t.patternStep (t.definedMeaning merge (t.patternLanguage merge)) (t.patternLanguage merge) =
      t.patternLanguage merge :=
  (t.patternSystem merge).meaning_eq

/-- A reference means what the name means that it gives. -/
lemma patternLanguage_ref (merge : Merge) (he : t.element? e.id = some e)
    (href : e.element.localName = "ref") :
    t.patternLanguage merge e.id =
      t.definedMeaning merge (t.patternLanguage merge)
        (trimmed ((attributeValue? e "name").getD "")) := by
  conv_lhs => rw [← patternStep_patternLanguage]
  simp only [patternStep, he, href]

/-- What the starts or definitions with a target mean, each by itself. -/
def bodyLanguages (t : Tree) (target : Option String) : List NameLanguage :=
  (t.partElementsOf target).map fun e => (t.bodyLanguage (t.patternLanguage .inOrder) e).2

/-- Whether all definitions of each name are combined in one way. -/
def CombinedAlike (t : Tree) : Prop :=
  ∀ name, ∃ v, CombinedAs v (t.combinesOf (some name))

/-- Where definitions are combined in one way, their order makes no difference. -/
lemma definedMeaning_together (h : t.CombinedAlike) :
    t.definedMeaning .together = t.definedMeaning .inOrder := by
  funext x name
  obtain ⟨v, hv⟩ := h name
  refine joinTogether_eq_joinInOrder (v := v) ?_
  rw [List.map_map]
  exact hv

lemma patternLanguage_together (h : t.CombinedAlike) :
    t.patternLanguage .together = t.patternLanguage .inOrder := by
  simp only [patternLanguage, patternSystem, definedMeaning_together h]

/-! ## Reading -/

lemma languages_eq_of_forall₂ {cs : List ElementNode}
    (h : List.Forall₂ (fun c q => x c.id = q.language names) cs ps) :
    (cs.map ElementNode.id).map x = SourcePattern.languages names ps := by
  rw [SourcePattern.languages_eq_map, List.map_map]
  induction h with
  | nil => rfl
  | cons hc _ ih => rw [List.map_cons, List.map_cons, ih, Function.comp_apply, hc]

/-- What stands for an element means what the element means. -/
lemma Stands.language_eq (h : t.Stands e ps p) (he : t.element? e.id = some e)
    (hps : ((t.patternChildren e).map ElementNode.id).map x = SourcePattern.languages names ps) :
    t.patternStep names x e.id = p.language names := by
  simp only [patternStep, he, hps]
  cases h with
  | element hlocal hname => simp [hlocal, patternNames, hname, SourcePattern.language]
  | ref hlocal hname _ => rcases hlocal with h | h <;> simp [h, hname, SourcePattern.language]
  | attr hlocal _ | empty hlocal _ | text hlocal _ | notAllowed hlocal _ | data hlocal _
  | value hlocal _ =>
      simp [hlocal, SourcePattern.language]
  | list hlocal | group hlocal | interleave hlocal | choice hlocal | optional hlocal
  | zeroOrMore hlocal | oneOrMore hlocal | mixed hlocal => simp [hlocal, SourcePattern.language]

/-- **Elements mean what they are read as**, for all solutions of the equations. -/
theorem language_of_readPattern (ht : t.Nests) (hx : t.patternStep names x = x)
    (he : t.element? e.id = some e) (h : t.readPattern depth e (t.schemaNs e) = .ok p) :
    x e.id = p.language names := by
  induction depth generalizing e p with
  | zero => cases h
  | succ depth ih =>
      obtain ⟨below, ps, hdepth, hinside, hstands⟩ := readPattern_cases ht he h
      cases hdepth
      rw [← hx]
      refine hstands.language_eq he (languages_eq_of_forall₂ (hinside.imp fun c q ⟨hc, hq⟩ => ?_))
      exact ih (element?_of_mem_childElements (List.mem_of_mem_filter hc)) hq

/-- What the body of a part means. -/
lemma ReadsPart.language_eq {part : SourcePart} (ht : t.Nests) (h : t.ReadsPart e part)
    (hx : t.patternStep names x = x) : t.bodyLanguage x e = part.language names := by
  rw [bodyLanguage, SourcePart.language, h.combine]
  refine congrArg (partCombine e, ·.prod) (languages_eq_of_forall₂ (h.body.imp ?_))
  intro c p ⟨hc, hp⟩
  exact language_of_readPattern ht hx
    (element?_of_mem_childElements (List.mem_of_mem_filter hc)) hp

/-- The starts and definitions with a target are read as the parts with it. -/
lemma readsParts_of_target {parts : List SourcePart}
    (h : List.Forall₂ t.ReadsPart t.schemaParts parts) (target : Option String) :
    List.Forall₂ t.ReadsPart (t.partElementsOf target) (SourcePart.partsOf parts target) := by
  refine List.rel_filter (fun c part hpart => ?_) h
  dsimp only
  rw [decide_eq_true_iff, decide_eq_true_iff, hpart.target]

/-- The bodies of a target are those of its parts. -/
lemma bodies_of_readsParts {parts : List SourcePart} (ht : t.Nests)
    (h : List.Forall₂ t.ReadsPart t.schemaParts parts) (hx : t.patternStep names x = x)
    (target : Option String) :
    (t.partElementsOf target).map (t.bodyLanguage x) =
      (SourcePart.partsOf parts target).map (SourcePart.language names) := by
  rw [← List.forall₂_eq_eq_eq, List.forall₂_map_left_iff, List.forall₂_map_right_iff]
  exact (readsParts_of_target h target).imp fun c part hpart => hpart.language_eq ht hx

/-- The starts and definitions of a target are combined as its parts are. -/
lemma combines_of_readsParts {parts : List SourcePart}
    (h : List.Forall₂ t.ReadsPart t.schemaParts parts) (target : Option String) :
    t.combinesOf target = (SourcePart.partsOf parts target).map SourcePart.combine := by
  rw [combinesOf, ← List.forall₂_eq_eq_eq, List.forall₂_map_left_iff, List.forall₂_map_right_iff]
  exact (readsParts_of_target h target).imp fun c part hpart => hpart.combine.symm

end Tree

/-- The parts that a schema document says something with. -/
def SourceSchema.parts : SourceSchema → List SourcePart
  | .grammar parts => parts
  | .pattern _ => []

/-- **The names of a schema document mean what its parts say**, each joined to those before it. -/
theorem Tree.obeys_of_readsSchema {t : Tree} {source : SourceSchema} (ht : t.Nests)
    (h : t.ReadsSchema source) :
    (t.patternSystem .inOrder).Obeys fun names name =>
      SourcePart.defined source.parts names (some name) := by
  intro names x hx
  funext name
  cases h with
  | grammar _ hparts => exact congrArg joinInOrder (bodies_of_readsParts ht hparts hx (some name))
  | pattern _ _ hparts _ =>
      have hnone : t.partElementsOf (some name) =
          [] := by rw [partElementsOf, hparts, List.filter_nil]
      change joinInOrder ((t.partElementsOf (some name)).map (t.bodyLanguage x)) = _
      rw [hnone]
      rfl

end XmlAdvisor
