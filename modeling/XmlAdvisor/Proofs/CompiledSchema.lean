import XmlAdvisor.Proofs.Reachability
import XmlAdvisor.Schema.Compile

/-!
# Compiled schemas are closed

Lowering numbers a pattern after its parts, so all numbers that occur in a compiled schema are
numbers of its patterns, and only definitions can lead in a circle.

* `SchemaBuilder.Ordered` — the invariant of a schema that is being compiled.
* `SchemaBuilder.Adds` — what one step of lowering does: the invariant is kept, the table only
  grows, and the numbers that come out are in it.
* **`SourceSchema.compile_ordered`** — a compiled schema is ordered.
-/

namespace XmlAdvisor

/-- The numbers of other patterns that a pattern is written with. -/
def Pattern.references : Pattern → List Nat
  | .list body | .oneOrMore body => [body]
  | .element _ content _ => [content]
  | .attribute _ body _ _ => [body]
  | .choice members | .group members | .interleave members => members
  | _ => []

namespace SchemaBuilder

variable {b b₁ b₂ : SchemaBuilder} {ids ids₁ ids₂ : List Nat}

/-- Patterns come after those they are written with, and all other numbers are in the table. -/
structure Ordered (b : SchemaBuilder) : Prop where
  references : ∀ (i : Nat) (p : Pattern), b.patterns[i]? = some p → ∀ m ∈ p.references, m < i
  bodies : ∀ d ∈ b.definitions, ∀ m ∈ d.body, m < b.patterns.size
  start : ∀ m ∈ b.start, m < b.patterns.size

/-- What a step of lowering does. -/
structure Adds (b b' : SchemaBuilder) (ids : List Nat) : Prop where
  ordered : b'.Ordered
  grows : b.patterns.size ≤ b'.patterns.size
  inside : ∀ id ∈ ids, id < b'.patterns.size

lemma ordered_empty : empty.Ordered := by
  constructor <;> simp [empty]

/-! ## Single steps -/

lemma Adds.nil (h : b.Ordered) : Adds b b [] :=
  ⟨h, Nat.le_refl _, by simp⟩

lemma Adds.trans (h₁ : Adds b b₁ ids₁) (h₂ : Adds b₁ b₂ ids₂) : Adds b b₂ (ids₁ ++ ids₂) := by
  refine ⟨h₂.ordered, h₁.grows.trans h₂.grows, fun id hid => ?_⟩
  rcases List.mem_append.mp hid with hid | hid
  · exact (h₁.inside id hid).trans_le h₂.grows
  · exact h₂.inside id hid

/-- A pattern can be added if all it is written with is in the table. -/
lemma Adds.push (h : Adds b b₁ ids) {p : Pattern} (hp : p.references ⊆ ids) :
    Adds b (b₁.push p).2 [(b₁.push p).1] := by
  refine ⟨⟨fun i q hq m hm => ?_, fun d hd m hm => ?_, fun m hm => ?_⟩, ?_, ?_⟩
  · simp only [SchemaBuilder.push, Array.getElem?_push] at hq
    split_ifs at hq with hi
    · cases hq
      rw [hi]
      exact h.inside m (hp hm)
    · exact h.ordered.references i q hq m hm
  · simp only [SchemaBuilder.push, Array.size_push]
    exact (h.ordered.bodies d hd m hm).trans (Nat.lt_succ_self _)
  · simp only [SchemaBuilder.push, Array.size_push]
    exact (h.ordered.start m hm).trans (Nat.lt_succ_self _)
  · simp only [SchemaBuilder.push, Array.size_push]
    exact h.grows.trans (Nat.le_succ _)
  · simp [SchemaBuilder.push]

/-- A pattern can be added if it is written with no others. -/
lemma Adds.pushLeaf (h : b.Ordered) {p : Pattern} (hp : p.references = []) :
    Adds b (b.push p).2 [(b.push p).1] :=
  (Adds.nil h).push (hp ▸ List.nil_subset [])

/-- A pattern can be added over one that was added last and one that is written with no others. -/
lemma Adds.pushOver {body : Nat} (h : Adds b b₁ [body]) {leaf : Pattern}
    (hleaf : leaf.references = []) {p : Pattern} (hp : p.references = [body, (b₁.push leaf).1]) :
    Adds b ((b₁.push leaf).2.push p).2 [((b₁.push leaf).2.push p).1] :=
  (h.trans (Adds.pushLeaf h.ordered hleaf)).push (hp ▸ List.Subset.refl _)

lemma Adds.definition (h : Adds b b₁ ids) (name : String) : Adds b (b₁.definition name).2 ids := by
  rw [SchemaBuilder.definition]
  split
  · exact h
  · refine ⟨⟨h.ordered.references, fun d hd m hm => ?_, h.ordered.start⟩, h.grows, h.inside⟩
    rcases Array.mem_push.mp hd with hd | rfl
    · exact h.ordered.bodies d hd m hm
    · cases hm

lemma Adds.group (h : Adds b b₁ ids) : Adds b (b₁.group ids).2 [(b₁.group ids).1] := by
  unfold SchemaBuilder.group
  split
  · exact h.push (List.nil_subset _)
  · exact h
  · exact h.push (List.Subset.refl _)

lemma Adds.join {body : Nat} (h : Adds b b₁ [body]) (before : Option Nat) (combine : Option Combine)
    (hbefore : ∀ m ∈ before, m < b₁.patterns.size) :
    Adds b (b₁.join before body combine).2 [(b₁.join before body combine).1] := by
  have hboth : ∀ p, before = some p → Adds b b₁ [p, body] := fun p hp =>
    ⟨h.ordered, h.grows, by simpa using ⟨hbefore p hp, h.inside body (by simp)⟩⟩
  unfold SchemaBuilder.join
  split
  · exact h
  · exact (hboth _ rfl).push (List.Subset.refl _)
  · exact (hboth _ rfl).push (List.Subset.refl _)

/-! ## Lowering -/

mutual
lemma adds_lower : ∀ (p : SourcePattern) (b : SchemaBuilder), b.Ordered →
    Adds b (lower p b).2 [(lower p b).1]
  | .element name content documentation, b, h => by
      rw [lower]
      exact (adds_lowerBody content b h).push (List.Subset.refl _)
  | .attribute name value documentation default, b, h => by
      rw [lower]
      have hvalue : Adds b (if value.isEmpty then b.push .text else lowerBody value b).2
          [(if value.isEmpty then b.push .text else lowerBody value b).1] := by
        split_ifs
        · exact .pushLeaf h rfl
        · exact adds_lowerBody value b h
      exact hvalue.push (List.Subset.refl _)
  | .empty, b, h => by
      rw [lower]
      exact .pushLeaf h rfl
  | .text, b, h => by
      rw [lower]
      exact .pushLeaf h rfl
  | .notAllowed, b, h => by
      rw [lower]
      exact .pushLeaf h rfl
  | .data datatype, b, h => by
      rw [lower]
      exact .pushLeaf h rfl
  | .value literal, b, h => by
      rw [lower]
      exact .pushLeaf h rfl
  | .list body, b, h => by
      rw [lower]
      exact (adds_lowerBody body b h).push (List.Subset.refl _)
  | .group members, b, h => by
      rw [lower]
      exact adds_lowerBody members b h
  | .interleave members, b, h => by
      rw [lower]
      exact (adds_lowerAll members b h).push (List.Subset.refl _)
  | .choice members, b, h => by
      rw [lower]
      exact (adds_lowerAll members b h).push (List.Subset.refl _)
  | .optional body, b, h => by
      rw [lower]
      exact (adds_lowerBody body b h).pushOver rfl rfl
  | .zeroOrMore body, b, h => by
      rw [lower]
      have hmany := (adds_lowerBody body b h).push (p := .oneOrMore _) (List.Subset.refl _)
      exact hmany.pushOver rfl rfl
  | .oneOrMore body, b, h => by
      rw [lower]
      exact (adds_lowerBody body b h).push (List.Subset.refl _)
  | .mixed body, b, h => by
      rw [lower]
      exact (adds_lowerBody body b h).pushOver rfl rfl
  | .ref name, b, h => by
      rw [lower]
      exact ((Adds.nil h).definition name).push (List.nil_subset _)

lemma adds_lowerAll : ∀ (ps : List SourcePattern) (b : SchemaBuilder), b.Ordered →
    Adds b (lowerAll ps b).2 (lowerAll ps b).1
  | [], b, h => by
      rw [lowerAll]; exact .nil h
  | p :: more, b, h => by
      rw [lowerAll]
      have hfirst := adds_lower p b h
      exact hfirst.trans (adds_lowerAll more _ hfirst.ordered)

lemma adds_lowerBody : ∀ (ps : List SourcePattern) (b : SchemaBuilder), b.Ordered →
    Adds b (lowerBody ps b).2 [(lowerBody ps b).1]
  | ps, b, h => by
      rw [lowerBody]
      exact (adds_lowerAll ps b h).group
end

/-! ## Grammars -/

/-- The number that came out last can be made the start. -/
lemma Adds.setStart {m : Nat} (h : Adds b b₁ [m]) : { b₁ with start := some m }.Ordered :=
  ⟨h.ordered.references, h.ordered.bodies, fun _ hi => by cases hi; exact h.inside m (by simp)⟩

/-- The number that came out last can be made the body of a definition. -/
lemma Adds.setBody {m : Nat} (h : Adds b b₁ [m]) (d : Nat) :
    { b₁ with
      definitions := b₁.definitions.modify d fun old => { old with body := some m } }.Ordered := by
  refine ⟨h.ordered.references, fun e he i hi => ?_, h.ordered.start⟩
  obtain ⟨j, hj, rfl⟩ := Array.mem_iff_getElem.mp he
  rw [Array.getElem_modify] at hi
  split_ifs at hi
  · cases hi
    exact h.inside m (by simp)
  · exact h.ordered.bodies _ (Array.getElem_mem _) i hi

lemma ordered_addPart (h : b.Ordered) (part : SourcePart) : (b.addPart part).Ordered := by
  cases part with
  | start combine body =>
      rw [addPart]
      have hbody := adds_lowerBody body b h
      exact (hbody.join _ combine hbody.ordered.start).setStart
  | define name combine body =>
      rw [addPart]
      have hnamed := (adds_lowerBody body b h).definition name
      refine (hnamed.join _ combine fun m hm => ?_).setBody _
      obtain ⟨d, hd, hm⟩ := Option.bind_eq_some_iff.mp hm
      exact hnamed.ordered.bodies d (Array.mem_of_getElem? hd) m hm

lemma ordered_foldl_addPart (h : b.Ordered) (parts : List SourcePart) :
    (parts.foldl addPart b).Ordered := by
  induction parts generalizing b with
  | nil => exact h
  | cons part parts ih => exact ih (ordered_addPart h part)

lemma finish_ok {b : SchemaBuilder} {start : Nat} {s : Schema} (h : b.finish start = .ok s) :
    s = ⟨b.patterns, b.definitions, start⟩ := by
  rw [finish] at h
  split at h
  · cases h
  · exact (Except.ok.inj h).symm

end SchemaBuilder

/-- **Compiled schemas are ordered.**  Every pattern comes after those it is written with, and the
bodies of definitions and the start are patterns of the schema. -/
theorem SourceSchema.compile_ordered {source : SourceSchema} {s : Schema}
    (h : source.compile = .ok s) :
    (⟨s.patterns, s.definitions, some s.start⟩ : SchemaBuilder).Ordered := by
  cases source with
  | grammar parts =>
      have hall := SchemaBuilder.ordered_foldl_addPart SchemaBuilder.ordered_empty parts
      simp only [SourceSchema.compile] at h
      split at h
      · rename_i start hstart
        rw [SchemaBuilder.finish_ok h]
        rwa [← hstart]
      · cases h
  | pattern p =>
      have hadds := SchemaBuilder.adds_lower p _ SchemaBuilder.ordered_empty
      rw [SchemaBuilder.finish_ok h]
      exact hadds.setStart

namespace Schema

variable {source : SourceSchema} {s : Schema}

lemma mem_patterns_of_lt {id : Nat} (hid : id < s.patterns.size) :
    s.patterns[id]? = some (s.pattern id) := by
  simp [pattern, Array.getD, hid]

/-- In a compiled schema, a step down stays among its patterns. -/
lemma lt_size_of_mem_parts (h : source.compile = .ok s) {throughChoices : Bool} {id m : Nat}
    (hm : m ∈ s.parts throughChoices id) : m < s.patterns.size := by
  have hord := SourceSchema.compile_ordered h
  have hid : id < s.patterns.size := by
    by_contra hid
    rw [parts_eq_nil_of_size_le (Nat.not_lt.mp hid)] at hm
    cases hm
  have href : m ∈ (s.pattern id).references → m < s.patterns.size := fun hm =>
    (hord.references id _ (mem_patterns_of_lt hid) m hm).trans hid
  rw [parts] at hm
  split at hm
  case h_1 hp | h_2 hp | h_4 hp => exact href (by rw [hp]; exact hm)
  case h_3 hp =>
      split_ifs at hm
      · exact href (by rw [hp]; exact hm)
      · cases hm
  case h_5 d hp =>
      obtain ⟨e, he, hbody⟩ := Option.bind_eq_some_iff.mp (Option.mem_toList.mp hm)
      exact hord.bodies e (Array.mem_of_getElem? he) m hbody
  case h_6 => cases hm

/-- In a compiled schema, the content of an element is one of its patterns. -/
lemma content_lt_size (h : source.compile = .ok s) {id content : Nat}
    (hc : s.elementContent? id = some content) : content < s.patterns.size := by
  have hord := SourceSchema.compile_ordered h
  rw [elementContent?] at hc
  split at hc
  · rename_i name body documentation hp
    cases hc
    have hid : id < s.patterns.size := by
      by_contra hid
      simp [pattern, Array.getD, hid] at hp
    refine (hord.references id _ (mem_patterns_of_lt hid) content ?_).trans hid
    rw [hp]
    exact List.mem_singleton.mpr rfl
  · cases hc

end Schema

end XmlAdvisor
