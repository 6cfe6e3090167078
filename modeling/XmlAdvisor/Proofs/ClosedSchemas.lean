import XmlAdvisor.Proofs.AttributeReach
import XmlAdvisor.Proofs.ChildDeclarations
import XmlAdvisor.Proofs.CompiledSchema
import XmlAdvisor.Proofs.SchemaContent

/-!
# Questions about a compiled schema stay in its tables

A number that is none of the table is answered for as a pattern that allows nothing.  In a compiled
schema this never happens: all numbers that occur are numbers of the table, and so are those that
the questions about a schema come to.

* `SchemaBuilder.RefsDefined` — the invariant that references are to definitions; a finished schema
  has bodies for all of them.
* `Schema.Closed` — nothing leads out of the tables, and only definitions lead in a circle.
* `Schema.Agrees` — schemas that agree on some patterns, among them all that these lead to, give the
  same answers about them.  What stands at other numbers is never asked for.
* **`Schema.compile_closed`** — compiled schemas are closed, questions about them stay in the table,
  and going to the parts of patterns without following definitions comes to an end.
-/

namespace XmlAdvisor

namespace SchemaBuilder

variable {b : SchemaBuilder}

/-! ## References to definitions -/

/-- Whether all references are to definitions that have been numbered. -/
def RefsDefined (b : SchemaBuilder) : Prop :=
  ∀ d, Pattern.ref d ∈ b.patterns → d < b.definitions.size

lemma refsDefined_empty : empty.RefsDefined := by
  simp [RefsDefined, empty]

lemma RefsDefined.push (h : b.RefsDefined) {p : Pattern}
    (hp : ∀ d, p = .ref d → d < b.definitions.size) : (b.push p).2.RefsDefined := by
  intro d hd
  rcases Array.mem_push.mp hd with hd | hd
  · exact h d hd
  · exact hp d hd.symm

/-- A name that is met gets a number, and no definition loses its own. -/
lemma RefsDefined.definition (h : b.RefsDefined) (name : String) :
    (b.definition name).2.RefsDefined ∧
      (b.definition name).1 < (b.definition name).2.definitions.size := by
  obtain ⟨-, d, hd, -⟩ := lowers_definition b name
  refine ⟨fun e he => ?_, (Array.getElem?_eq_some_iff.mp hd).1⟩
  rw [patterns_definition] at he
  have hgrows : b.definitions.size ≤ (b.definition name).2.definitions.size := by
    rw [SchemaBuilder.definition]
    split
    · exact Nat.le_refl _
    · simp only [Array.size_push]
      exact Nat.le_succ _
  exact (h e he).trans_le hgrows

lemma RefsDefined.group (h : b.RefsDefined) (members : List Nat) :
    (b.group members).2.RefsDefined := by
  unfold SchemaBuilder.group
  split
  · exact h.push nofun
  · exact h
  · exact h.push nofun

lemma RefsDefined.join (h : b.RefsDefined) (before : Option Nat) (body : Nat)
    (combine : Option Combine) : (b.join before body combine).2.RefsDefined := by
  unfold SchemaBuilder.join
  split
  · exact h
  · exact h.push nofun
  · exact h.push nofun

mutual
lemma refsDefined_lower : ∀ (p : SourcePattern) (b : SchemaBuilder), b.RefsDefined →
    (lower p b).2.RefsDefined
  | .element _ body _, b, h | .list body, b, h | .oneOrMore body, b, h => by
      rw [lower]
      exact (refsDefined_lowerBody body b h).push nofun
  | .attribute name value documentation default, b, h => by
      rw [lower]
      have hvalue : (if value.isEmpty then b.push .text else lowerBody value b).2.RefsDefined := by
        split_ifs
        · exact h.push nofun
        · exact refsDefined_lowerBody value b h
      exact hvalue.push nofun
  | .empty, b, h | .text, b, h | .notAllowed, b, h | .data _, b, h | .value _, b, h => by
      rw [lower]
      exact h.push nofun
  | .group members, b, h => by
      rw [lower]
      exact refsDefined_lowerBody members b h
  | .interleave members, b, h | .choice members, b, h => by
      rw [lower]
      exact (refsDefined_lowerAll members b h).push nofun
  | .optional body, b, h | .mixed body, b, h => by
      rw [lower]
      refine ((refsDefined_lowerBody body b h).push ?_).push ?_ <;> nofun
  | .zeroOrMore body, b, h => by
      rw [lower]
      refine (((refsDefined_lowerBody body b h).push ?_).push ?_).push ?_ <;> nofun
  | .ref name, b, h => by
      rw [lower]
      obtain ⟨hdefined, hnew⟩ := h.definition name
      exact hdefined.push fun d hd => by cases hd; exact hnew

lemma refsDefined_lowerAll : ∀ (ps : List SourcePattern) (b : SchemaBuilder), b.RefsDefined →
    (lowerAll ps b).2.RefsDefined
  | [], b, h => by
      rw [lowerAll]
      exact h
  | p :: more, b, h => by
      rw [lowerAll]
      exact refsDefined_lowerAll more _ (refsDefined_lower p b h)

lemma refsDefined_lowerBody : ∀ (ps : List SourcePattern) (b : SchemaBuilder), b.RefsDefined →
    (lowerBody ps b).2.RefsDefined
  | ps, b, h => by
      rw [lowerBody]
      exact (refsDefined_lowerAll ps b h).group _
end

lemma refsDefined_addPart (h : b.RefsDefined) (part : SourcePart) :
    (b.addPart part).RefsDefined := by
  cases part with
  | start combine body =>
      rw [addPart]
      exact (refsDefined_lowerBody body b h).join _ _ _
  | define name combine body =>
      rw [addPart]
      have hnamed := ((refsDefined_lowerBody body b h).definition name).1
      intro d hd
      simp only [Array.size_modify]
      exact hnamed.join _ _ _ d hd

lemma refsDefined_foldl_addPart (h : b.RefsDefined) (parts : List SourcePart) :
    (parts.foldl addPart b).RefsDefined := by
  induction parts generalizing b with
  | nil => exact h
  | cons part parts ih => exact ih (refsDefined_addPart h part)

/-- In a finished schema, every definition has a body. -/
lemma body_of_finish {start : Nat} {s : Schema} (h : b.finish start = .ok s) {d : Definition}
    (hd : d ∈ s.definitions) : ∃ body, d.body = some body := by
  rw [finish_ok h] at hd
  rw [finish] at h
  split at h
  · cases h
  · rename_i hall
    have hsome := Array.find?_eq_none.mp hall d hd
    exact Option.ne_none_iff_exists'.mp fun hnone => hsome (by rw [hnone]; rfl)

end SchemaBuilder

/-! ## Closed schemas -/

/-- Whether nothing leads out of the tables of a schema, and only definitions lead in a circle. -/
structure Schema.Closed (s : Schema) : Prop where
  /-- Every pattern comes after those it is written with. -/
  references : ∀ (id : Nat) (p : Pattern), s.patterns[id]? = some p → ∀ m ∈ p.references, m < id
  definitions : ∀ d, Pattern.ref d ∈ s.patterns → d < s.definitions.size
  bodies : ∀ d < s.definitions.size, ∃ body, s.body? d = some body ∧ body < s.patterns.size
  start : s.start < s.patterns.size

lemma SourceSchema.closed_of_compile {source : SourceSchema} {s : Schema}
    (h : source.compile = .ok s) : s.Closed := by
  have hordered := SourceSchema.compile_ordered h
  obtain ⟨b, start, hb, hfinish⟩ :
      ∃ (b : SchemaBuilder) (start : Nat), b.RefsDefined ∧ b.finish start = .ok s := by
    cases source with
    | grammar parts =>
        simp only [SourceSchema.compile] at h
        split at h
        · exact ⟨_, _, SchemaBuilder.refsDefined_foldl_addPart
            SchemaBuilder.refsDefined_empty parts, h⟩
        · cases h
    | pattern p =>
        exact ⟨_, _, SchemaBuilder.refsDefined_lower p _ SchemaBuilder.refsDefined_empty, h⟩
  refine ⟨hordered.references, ?_, fun d hd => ?_, hordered.start _ rfl⟩
  · rw [SchemaBuilder.finish_ok hfinish]
    exact hb
  · obtain ⟨body, hbody⟩ := SchemaBuilder.body_of_finish hfinish (Array.getElem_mem hd)
    refine ⟨body, ?_, hordered.bodies _ (Array.getElem_mem hd) body hbody⟩
    rw [Schema.body?, Array.getElem?_eq_getElem hd, Option.bind_some, hbody]

namespace Schema

variable {s s' : Schema} {P : Nat → Prop} {id : Nat}

/-! ## Schemas that agree on some patterns -/

lemma mapM_congr {α β : Type} {f g : α → Option β} {items : List α}
    (h : ∀ a ∈ items, f a = g a) : items.mapM f = items.mapM g := by
  induction items with
  | nil => rfl
  | cons a items ih =>
      rw [List.mapM_cons, List.mapM_cons, h a (List.mem_cons_self ..),
        ih fun b hb => h b (List.mem_cons_of_mem a hb)]

/-- Whether schemas have the same definitions, and the same patterns at the numbers with a
property. -/
structure Agrees (P : Nat → Prop) (s s' : Schema) : Prop where
  pattern : ∀ id, P id → s'.pattern id = s.pattern id
  definitions : s'.definitions = s.definitions

namespace Agrees

variable (h : Agrees P s s')
include h

lemma body? (d : Nat) : s'.body? d = s.body? d := by
  rw [Schema.body?, Schema.body?, h.definitions]

lemma isElement (hid : P id) : s'.isElement id = s.isElement id := by
  rw [Schema.isElement, Schema.isElement, h.pattern id hid]

lemma elementName? (hid : P id) : s'.elementName? id = s.elementName? id := by
  rw [Schema.elementName?, Schema.elementName?, h.pattern id hid]

lemma parts (throughChoices : Bool) (hid : P id) :
    s'.parts throughChoices id = s.parts throughChoices id := by
  simp only [Schema.parts, h.pattern id hid, h.body?]

lemma expand (hid : P id) : s'.expand id = s.expand id := by
  simp only [Schema.expand, h.pattern id hid, h.body?]

section Closed

variable (hparts : ∀ id, P id → ∀ m ∈ s.parts true id, P m)
include hparts

lemma nullableWithin (depth : Nat) {r : Residual} (hr : r.Sound P) :
    s'.nullableWithin depth r = s.nullableWithin depth r := by
  induction depth generalizing r with
  | zero => rfl
  | succ depth ih =>
      rcases hr with rfl | hr
      · rfl
      cases r with
      | empty => rfl
      | notAllowed => rfl
      | pattern id =>
          simp only [Schema.nullableWithin, h.isElement hr, h.expand hr,
            ih (s.sound_expand hr (hparts id hr))]
      | choice a b | group a b | interleave a b =>
          simp only [Schema.nullableWithin, ih (.inr hr.1), ih (.inr hr.2)]
      | oneOrMore a => exact ih (r := a) (.inr hr)

lemma derivativeWithin (ns l : String) (depth : Nat) {r : Residual} (hr : r.Sound P) :
    s'.derivativeWithin ns l depth r = s.derivativeWithin ns l depth r := by
  induction depth generalizing r with
  | zero => rfl
  | succ depth ih =>
      rcases hr with rfl | hr
      · rfl
      cases r with
      | empty => rfl
      | notAllowed => rfl
      | pattern id =>
          simp only [Schema.derivativeWithin, h.elementName? hr, h.expand hr,
            ih (s.sound_expand hr (hparts id hr))]
      | choice a b | interleave a b =>
          simp only [Schema.derivativeWithin, ih (.inr hr.1), ih (.inr hr.2)]
      | group a b =>
          simp only [Schema.derivativeWithin, ih (.inr hr.1), ih (.inr hr.2),
            h.nullableWithin hparts depth (.inr hr.1)]
      | oneOrMore a => simp only [Schema.derivativeWithin, ih (r := a) (.inr hr)]

lemma firstWithin (depth : Nat) (found : List Nat) {r : Residual} (hr : r.Sound P) :
    s'.firstWithin depth found r = s.firstWithin depth found r := by
  induction depth generalizing found r with
  | zero => rfl
  | succ depth ih =>
      rcases hr with rfl | hr
      · rfl
      cases r with
      | empty => rfl
      | notAllowed => rfl
      | pattern id =>
          simp only [Schema.firstWithin, h.isElement hr, h.expand hr,
            ih _ (s.sound_expand hr (hparts id hr))]
      | choice a b | interleave a b =>
          simp only [Schema.firstWithin, ih _ (.inr hr.1), ih _ (.inr hr.2)]
      | group a b =>
          simp only [Schema.firstWithin, ih _ (.inr hr.1), ih _ (.inr hr.2),
            h.nullableWithin hparts depth (.inr hr.1)]
      | oneOrMore a => exact ih found (r := a) (.inr hr)

lemma requiredFirstWithin (depth : Nat) (found : List Nat) {r : Residual} (hr : r.Sound P) :
    s'.requiredFirstWithin depth found r = s.requiredFirstWithin depth found r := by
  induction depth generalizing found r with
  | zero => rfl
  | succ depth ih =>
      rcases hr with rfl | hr
      · rfl
      cases r with
      | empty => rfl
      | notAllowed => rfl
      | pattern id =>
          simp only [Schema.requiredFirstWithin, h.isElement hr, h.expand hr,
            ih _ (s.sound_expand hr (hparts id hr))]
      | choice a b =>
          simp only [Schema.requiredFirstWithin, ih _ (.inr hr.1), ih _ (.inr hr.2),
            h.nullableWithin hparts depth (.inr hr.1), h.nullableWithin hparts depth (.inr hr.2)]
      | interleave a b =>
          simp only [Schema.requiredFirstWithin, ih _ (.inr hr.1), ih _ (.inr hr.2)]
      | group a b =>
          simp only [Schema.requiredFirstWithin, ih _ (.inr hr.1), ih _ (.inr hr.2),
            h.nullableWithin hparts depth (.inr hr.1)]
      | oneOrMore a => exact ih found (r := a) (.inr hr)

/-- A whole run over children, of which each leaves a residual for the next. -/
lemma foldChildren (children : List ElementNode) {r : Residual} (hr : r.Sound P) :
    s'.foldChildren r children = s.foldChildren r children := by
  induction children generalizing r with
  | nil => rfl
  | cons child more ih =>
      have hnext : s'.derivativeBy r child = s.derivativeBy r child :=
        h.derivativeWithin hparts _ _ _ hr
      have hfirst : s'.labels (s'.first r) = s.labels (s.first r) := by
        have hsame : s'.first r = s.first r := h.firstWithin hparts _ [] hr
        rw [hsame, labels, labels]
        refine congrArg _ (List.filterMap_congr fun p hp => ?_)
        rw [h.elementName? (s.prop_of_mem_firstWithin hparts _ hr hp)]
      have hsound : (s.derivativeBy r child).Sound P := s.sound_derivativeWithin hparts _ _ _ hr
      rw [Schema.foldChildren, Schema.foldChildren, hnext, hfirst, ih hr, ih hsound]

lemma walkElements (throughChoices : Bool) (depth : Nat) (w : Walk) (hid : P id) :
    s'.walkElements throughChoices depth w id = s.walkElements throughChoices depth w id := by
  induction depth generalizing w id with
  | zero => rfl
  | succ depth ih =>
      by_cases hseen : id ∈ w.seen
      · rw [walkElements_of_seen hseen, walkElements_of_seen hseen]
      · rw [walkElements_of_new hseen, walkElements_of_new hseen, h.parts _ hid, h.isElement hid]
        refine List.foldl_ext _ _ _ fun v m hm => ih v (hparts id hid m ?_)
        cases throughChoices with
        | true => exact hm
        | false =>
            rw [parts_false] at hm
            split_ifs at hm
            · cases hm
            · exact hm

lemma walkAttributes (required : Bool) (depth : Nat) (w : AttributeWalk) (hid : P id) :
    s'.walkAttributes depth required w id = s.walkAttributes depth required w id := by
  induction depth generalizing required w id with
  | zero => rfl
  | succ depth ih =>
      by_cases hseen : (id, required) ∈ w.seen
      · rw [walkAttributes_of_seen hseen, walkAttributes_of_seen hseen]
      · have hmeet : s'.meet required w id = s.meet required w id := by
          rw [meet, meet, isAttribute, isAttribute, h.pattern id hid]
        have hchoice : s'.isChoice id = s.isChoice id := by
          rw [isChoice, isChoice, h.pattern id hid]
        rw [walkAttributes_of_new hseen, walkAttributes_of_new hseen, h.parts _ hid, hmeet, hchoice]
        exact List.foldl_ext _ _ _ fun v m hm => ih _ v (hparts id hid m hm)

lemma valuesWithin (depth hops : Nat) (hid : P id) :
    s'.valuesWithin depth hops id = s.valuesWithin depth hops id := by
  induction depth generalizing hops id with
  | zero => rfl
  | succ depth ih =>
      have hdown := hparts id hid
      rw [Schema.parts] at hdown
      rw [Schema.valuesWithin, Schema.valuesWithin, h.pattern id hid]
      cases hp : s.pattern id with
      | choice members =>
          rw [hp] at hdown
          have hmembers : ∀ m ∈ members,
              s'.valuesWithin depth hops m = s.valuesWithin depth hops m :=
            fun m hm => ih hops (hdown m hm)
          dsimp only
          rw [mapM_congr hmembers]
      | ref d =>
          rw [hp] at hdown
          dsimp only
          rw [h.body?]
          cases hops with
          | zero => rfl
          | succ hops =>
              cases hbody : s.body? d with
              | none => rfl
              | some body => exact ih hops (hdown body (by simp [hbody]))
      | _ => rfl

lemma resolveWithin (hops : Nat) (hid : P id) :
    s'.resolveWithin hops id = s.resolveWithin hops id := by
  induction hops generalizing id with
  | zero =>
      rw [Schema.resolveWithin, Schema.resolveWithin, h.pattern id hid]
  | succ hops ih =>
      have hdown := hparts id hid
      rw [Schema.parts] at hdown
      rw [Schema.resolveWithin, Schema.resolveWithin, h.pattern id hid]
      cases hp : s.pattern id with
      | ref d =>
          rw [hp] at hdown
          dsimp only
          rw [h.body?]
          cases hbody : s.body? d with
          | none => rfl
          | some body => exact ih (hdown body (by simp [hbody]))
      | _ => rfl

end Closed

end Agrees

/-! ## The numbers that questions come to -/

lemma lt_size_of_pattern {p : Pattern} (hp : s.pattern id = p) (hne : p ≠ .notAllowed) :
    id < s.patterns.size := by
  by_contra hid
  exact hne (by rw [← hp, pattern, Array.getD, dif_neg hid])

lemma Leads.lt_size {source : SourceSchema} (hcompile : source.compile = .ok s)
    {throughChoices : Bool} {p : Nat} (h : s.Leads throughChoices id p)
    (hid : id < s.patterns.size) : p < s.patterns.size := by
  induction h with
  | refl => exact hid
  | tail _ hm _ => exact lt_size_of_mem_parts hcompile hm

/-- Whether all answers about patterns with a property, to any depth, are the same in another
schema. -/
structure SameAnswers (P : Nat → Prop) (s s' : Schema) : Prop where
  nullable : ∀ depth (r : Residual), r.Sound P →
    s'.nullableWithin depth r = s.nullableWithin depth r
  derivative : ∀ ns l depth (r : Residual), r.Sound P →
    s'.derivativeWithin ns l depth r = s.derivativeWithin ns l depth r
  first : ∀ depth found (r : Residual), r.Sound P →
    s'.firstWithin depth found r = s.firstWithin depth found r
  requiredFirst : ∀ depth found (r : Residual), r.Sound P →
    s'.requiredFirstWithin depth found r = s.requiredFirstWithin depth found r
  children : ∀ children (r : Residual), r.Sound P →
    s'.foldChildren r children = s.foldChildren r children
  elements : ∀ throughChoices depth w id, P id →
    s'.walkElements throughChoices depth w id = s.walkElements throughChoices depth w id
  attributes : ∀ required depth w id, P id →
    s'.walkAttributes depth required w id = s.walkAttributes depth required w id
  literals : ∀ depth hops id, P id → s'.valuesWithin depth hops id = s.valuesWithin depth hops id
  resolved : ∀ hops id, P id → s'.resolveWithin hops id = s.resolveWithin hops id

lemma Agrees.sameAnswers (h : Agrees P s s') (hparts : ∀ id, P id → ∀ m ∈ s.parts true id, P m) :
    SameAnswers P s s' where
  nullable depth _ hr := h.nullableWithin hparts depth hr
  derivative ns l depth _ hr := h.derivativeWithin hparts ns l depth hr
  first depth found _ hr := h.firstWithin hparts depth found hr
  requiredFirst depth found _ hr := h.requiredFirstWithin hparts depth found hr
  children children _ hr := h.foldChildren hparts children hr
  elements throughChoices depth w _ hid := h.walkElements hparts throughChoices depth w hid
  attributes required depth w _ hid := h.walkAttributes hparts required depth w hid
  literals depth hops _ hid := h.valuesWithin hparts depth hops hid
  resolved hops _ hid := h.resolveWithin hparts hops hid

/-- Whether questions that are asked about the patterns in the table of a schema stay there.  The
numbers that come out are in the table again, and as no other is asked for, what stands there is of
no matter. -/
structure StaysInside (s : Schema) : Prop where
  content : ∀ id content, s.elementContent? id = some content → content < s.patterns.size
  value : ∀ id name value documentation default,
    s.pattern id = .attribute name value documentation default → value < s.patterns.size
  led : ∀ throughChoices id p, id < s.patterns.size → s.Leads throughChoices id p →
    p < s.patterns.size
  left : ∀ ns l depth (r : Residual), r.Sound (· < s.patterns.size) →
    (s.derivativeWithin ns l depth r).Sound (· < s.patterns.size)
  next : ∀ depth (r : Residual), r.Sound (· < s.patterns.size) →
    ∀ p ∈ s.firstWithin depth [] r, p < s.patterns.size
  same : ∀ s', Agrees (· < s.patterns.size) s s' → SameAnswers (· < s.patterns.size) s s'

lemma staysInside_of_compile {source : SourceSchema} (h : source.compile = .ok s) :
    s.StaysInside := by
  have hparts : ∀ id, id < s.patterns.size → ∀ m ∈ s.parts true id, m < s.patterns.size :=
    fun _ _ _ hm => lt_size_of_mem_parts h hm
  refine ⟨fun _ _ hc => content_lt_size h hc, fun id name value documentation default hp => ?_,
    fun _ _ _ hid hl => hl.lt_size h hid,
    fun ns l depth _ hr => s.sound_derivativeWithin hparts ns l depth hr,
    fun depth _ hr _ hp => s.prop_of_mem_firstWithin hparts depth hr hp,
    fun _ hs => hs.sameAnswers hparts⟩
  have hid := lt_size_of_pattern hp nofun
  have hvalue : value ∈ (s.pattern id).references := by
    rw [hp]
    exact List.mem_singleton_self _
  exact ((SourceSchema.closed_of_compile h).references id _ (mem_patterns_of_lt hid) value
    hvalue).trans hid

/-- Going from patterns to those that they are written with comes to an end. -/
lemma Closed.wellFounded (h : s.Closed) :
    WellFounded fun m id => m ∈ (s.pattern id).references := by
  refine Subrelation.wf (fun {m id} hm => ?_) Nat.lt_wfRel.wf
  have hid : id < s.patterns.size := by
    refine lt_size_of_pattern rfl fun hnone => ?_
    rw [hnone] at hm
    cases hm
  exact h.references id _ (mem_patterns_of_lt hid) m hm

/-- **Compiled schemas are closed**, and circular through definitions only.  Whatever is asked about
their patterns stays in their tables, and going to the parts of patterns without following
definitions comes to an end. -/
theorem compile_closed {text : List Char} {s : Schema} (h : Schema.compile text = .ok s) :
    s.Closed ∧ s.StaysInside ∧ WellFounded fun m id => m ∈ (s.pattern id).references := by
  obtain ⟨source, -, hcompile⟩ := ok_of_bind h
  have hclosed := SourceSchema.closed_of_compile hcompile
  exact ⟨hclosed, staysInside_of_compile hcompile, hclosed.wellFounded⟩

/-- A reference to a name whose two definitions come later and are joined. -/
theorem compile_closed_twice :
    ∃ s, Schema.compile (twiceDefined plainDefinition choiceDefinition) = .ok s ∧
      s.pattern s.start = .ref 0 ∧ s.Closed ∧ s.StaysInside ∧
      WellFounded fun m id => m ∈ (s.pattern id).references := by
  have hcompile := compile_of_readSchema readSchema_plainFirst (compile_twiceParts _ _)
  exact ⟨_, hcompile, rfl, compile_closed hcompile⟩

end Schema

end XmlAdvisor
