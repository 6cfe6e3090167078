import XmlAdvisor.Proofs.SchemaContent

/-!
# Where the patterns of a compiled schema come from

Lowering puts one element or attribute pattern into the table for each one that is written, and all
others that it puts there have no name.  So each of these patterns was put for an element of the
schema document.

* `SourcePattern.LoweredAt` — the written patterns inside one that is lowered, each with its
  builder.
* `SchemaBuilder.fromOne_lower` — a named pattern of the table was there, or was put by a written
  pattern.
* **`Tree.exists_compiledFrom`** — every named pattern of a schema was put there for an element.
-/

namespace XmlAdvisor

/-! ## Where the patterns of a table come from -/

/-- Whether a pattern is an element or an attribute, and so has a name class. -/
def Pattern.isNamed : Pattern → Bool
  | .element .. | .attribute .. => true
  | _ => false

/-- Whether lowering a written pattern lowers another one, itself or inside it, from a builder. -/
inductive SourcePattern.LoweredAt : SourcePattern → SchemaBuilder → SourcePattern →
    SchemaBuilder → Prop
  | here {p : SourcePattern} {b : SchemaBuilder} : LoweredAt p b p b
  | inside {p q r : SourcePattern} {b b' : SchemaBuilder} {j : Nat} (hr : p.members[j]? = some r)
      (h : LoweredAt r (SchemaBuilder.lowerAll (p.members.take j) b).2 q b') : LoweredAt p b q b'

namespace SchemaBuilder

variable {b b' : SchemaBuilder} {p : SourcePattern} {ps : List SourcePattern}
  {n m : Pattern} {id : Nat}

/-- Whether a written pattern is lowered to a number, at which a given pattern is put. -/
structure Puts (b : SchemaBuilder) (q : SourcePattern) (id : Nat) (n : Pattern) : Prop where
  number : (lower q b).1 = id
  pattern : (lower q b).2.patterns[id]? = some n
  named : ∃ name content documentation default, q = .element name content documentation ∨
    q = .attribute name content documentation default

/-- Whether a named pattern was there or was put by one of several written patterns, or inside
it. -/
def FromAny (b : SchemaBuilder) (ps : List SourcePattern) (id : Nat) (n : Pattern) : Prop :=
  b.patterns[id]? = some n ∨ ∃ (j : Nat) (p q : SourcePattern) (b' : SchemaBuilder),
    ps[j]? = some p ∧ p.LoweredAt (lowerAll (ps.take j) b).2 q b' ∧ b'.Puts q id n

/-- Whether a named pattern was there or was put by a written pattern, or inside it. -/
def FromOne (b : SchemaBuilder) (p : SourcePattern) (id : Nat) (n : Pattern) : Prop :=
  b.patterns[id]? = some n ∨ ∃ (q : SourcePattern) (b' : SchemaBuilder), p.LoweredAt b q b' ∧
    b'.Puts q id n

lemma FromAny.fromOne (h : b.FromAny p.members id n) : b.FromOne p id n := by
  rcases h with h | ⟨j, r, q, b', hr, hat, hputs⟩
  · exact .inl h
  · exact .inr ⟨q, b', .inside hr hat, hputs⟩

/-- A pattern that is not the one pushed last was there before. -/
lemma getElem?_of_push (h : (b.push m).2.patterns[id]? = some n) :
    b.patterns[id]? = some n ∨ n = m ∧ id = (b.push m).1 := by
  simp only [SchemaBuilder.push, Array.getElem?_push] at h ⊢
  split_ifs at h with hid
  · exact .inr ⟨(Option.some.inj h).symm, hid⟩
  · exact .inl h

lemma getElem?_of_push_unnamed (hn : n.isNamed = true) (hm : m.isNamed = false)
    (h : (b.push m).2.patterns[id]? = some n) : b.patterns[id]? = some n := by
  rcases getElem?_of_push h with h | ⟨rfl, -⟩
  · exact h
  · rw [hn] at hm
    cases hm

lemma getElem?_of_group (hn : n.isNamed = true) {ids : List Nat}
    (h : (b.group ids).2.patterns[id]? = some n) : b.patterns[id]? = some n := by
  unfold SchemaBuilder.group at h
  split at h
  · exact getElem?_of_push_unnamed hn rfl h
  · exact h
  · exact getElem?_of_push_unnamed hn rfl h

lemma getElem?_of_join (hn : n.isNamed = true) {before : Option Nat} {body : Nat}
    {combine : Option Combine} (h : (b.join before body combine).2.patterns[id]? = some n) :
    b.patterns[id]? = some n := by
  unfold SchemaBuilder.join at h
  split at h
  · exact h
  · exact getElem?_of_push_unnamed hn rfl h
  · exact getElem?_of_push_unnamed hn rfl h

mutual
/-- An element or attribute pattern was put by a written one. -/
lemma fromOne_lower (hn : n.isNamed = true) : ∀ (p : SourcePattern) (b : SchemaBuilder),
    (lower p b).2.patterns[id]? = some n → b.FromOne p id n
  | .element name content documentation, b, h => by
      have hput := h
      rw [lower] at h
      rcases getElem?_of_push h with h | ⟨-, hid⟩
      · exact (fromAny_lowerBody hn content b h).fromOne
      · have hnumber : (lower (.element name content documentation) b).1 = id := by
          rw [lower]
          exact hid.symm
        exact .inr ⟨_, b, .here, hnumber, hput, name, content, documentation, none, .inl rfl⟩
  | .attribute name value documentation default, b, h => by
      have hvalue (hv : (if value.isEmpty then b.push .text
          else lowerBody value b).2.patterns[id]? =
          some n) : b.FromOne (.attribute name value documentation default) id n := by
        split_ifs at hv
        · exact .inl (getElem?_of_push_unnamed hn rfl hv)
        · exact (fromAny_lowerBody hn value b hv).fromOne
      have hput := h
      rw [lower] at h
      rcases getElem?_of_push h with h | ⟨-, hid⟩
      · exact hvalue h
      · have hnumber : (lower (.attribute name value documentation default) b).1 = id := by
          rw [lower]
          exact hid.symm
        exact .inr ⟨_, b, .here, hnumber, hput, name, value, documentation, default, .inr rfl⟩
  | .empty, b, h | .text, b, h | .notAllowed, b, h | .data _, b, h | .value _, b, h => by
      rw [lower] at h
      exact .inl (getElem?_of_push_unnamed hn rfl h)
  | .list body, b, h | .oneOrMore body, b, h => by
      rw [lower] at h
      exact (fromAny_lowerBody hn body b (getElem?_of_push_unnamed hn rfl h)).fromOne
  | .group members, b, h => by
      rw [lower] at h
      exact (fromAny_lowerBody hn members b h).fromOne
  | .interleave members, b, h | .choice members, b, h => by
      rw [lower] at h
      exact (fromAny_lowerAll hn members b (getElem?_of_push_unnamed hn rfl h)).fromOne
  | .optional body, b, h | .mixed body, b, h => by
      rw [lower] at h
      have hbody := getElem?_of_push_unnamed hn rfl (getElem?_of_push_unnamed hn rfl h)
      exact (fromAny_lowerBody hn body b hbody).fromOne
  | .zeroOrMore body, b, h => by
      rw [lower] at h
      have hmany := getElem?_of_push_unnamed hn rfl (getElem?_of_push_unnamed hn rfl h)
      exact (fromAny_lowerBody hn body b (getElem?_of_push_unnamed hn rfl hmany)).fromOne
  | .ref name, b, h => by
      rw [lower] at h
      have hdefinition : (b.definition name).2.patterns[id]? = some n :=
        getElem?_of_push_unnamed hn rfl h
      rw [patterns_definition] at hdefinition
      exact .inl hdefinition

lemma fromAny_lowerAll (hn : n.isNamed = true) : ∀ (ps : List SourcePattern) (b : SchemaBuilder),
    (lowerAll ps b).2.patterns[id]? = some n → b.FromAny ps id n
  | [], b, h => by
      rw [lowerAll] at h
      exact .inl h
  | p :: more, b, h => by
      rw [lowerAll] at h
      rcases fromAny_lowerAll hn more _ h with h | ⟨j, r, q, b', hr, hat, hputs⟩
      · rcases fromOne_lower hn p b h with h | ⟨q, b', hat, hputs⟩
        · exact .inl h
        · refine .inr ⟨0, p, q, b', rfl, ?_, hputs⟩
          rw [List.take_zero, lowerAll]
          exact hat
      · refine .inr ⟨j + 1, r, q, b', hr, ?_, hputs⟩
        rw [List.take_succ_cons, lowerAll]
        exact hat

lemma fromAny_lowerBody (hn : n.isNamed = true) : ∀ (ps : List SourcePattern) (b : SchemaBuilder),
    (lowerBody ps b).2.patterns[id]? = some n → b.FromAny ps id n
  | ps, b, h => by
      rw [lowerBody] at h
      exact fromAny_lowerAll hn ps b (getElem?_of_group hn h)
end

/-- The body of a start or a definition is lowered first, and what is joined to it has no name. -/
lemma fromAny_addPart (hn : n.isNamed = true) (part : SourcePart)
    (h : (b.addPart part).patterns[id]? = some n) : b.FromAny part.body id n := by
  cases part with
  | start combine body =>
      rw [addPart] at h
      exact fromAny_lowerBody hn body b (getElem?_of_join hn h)
  | define name combine body =>
      rw [addPart] at h
      have hbody := getElem?_of_join hn h
      rw [patterns_definition] at hbody
      exact fromAny_lowerBody hn body b hbody

lemma exists_lower_element (name : NameClass) (content : List SourcePattern)
    (documentation : Option String) (b : SchemaBuilder) :
    ∃ body, (lower (.element name content documentation) b).2.patterns[
      (lower (.element name content documentation) b).1]? =
        some (.element name body documentation) := by
  rw [lower]
  exact ⟨_, getElem?_push_self _ _⟩

lemma exists_lower_attribute (name : NameClass) (content : List SourcePattern)
    (documentation default : Option String) (b : SchemaBuilder) :
    ∃ body, (lower (.attribute name content documentation default) b).2.patterns[
      (lower (.attribute name content documentation default) b).1]? =
        some (.attribute name body documentation default) := by
  rw [lower]
  exact ⟨_, getElem?_push_self _ _⟩

/-- A written element is put as an element of its name, and a written attribute as an attribute. -/
lemma Puts.pattern_eq {q : SourcePattern} (h : b.Puts q id n) :
    (∃ name content body documentation, q = .element name content documentation ∧
      n = .element name body documentation) ∨
    ∃ name content body documentation default, q = .attribute name content documentation default ∧
      n = .attribute name body documentation default := by
  obtain ⟨rfl, hpattern, name, content, documentation, default, rfl | rfl⟩ := h
  · obtain ⟨body, hbody⟩ := exists_lower_element name content documentation b
    rw [hbody, Option.some.injEq] at hpattern
    exact .inl ⟨name, content, body, documentation, rfl, hpattern.symm⟩
  · obtain ⟨body, hbody⟩ := exists_lower_attribute name content documentation default b
    rw [hbody, Option.some.injEq] at hpattern
    exact .inr ⟨name, content, body, documentation, default, rfl, hpattern.symm⟩

/-- In a grammar, an element or attribute pattern was put by one of the parts. -/
lemma exists_part_of_foldl_addPart (hn : n.isNamed = true) (parts : List SourcePart)
    (h : (parts.foldl addPart b).patterns[id]? = some n) :
    b.patterns[id]? = some n ∨ ∃ (i : Nat) (part : SourcePart), parts[i]? = some part ∧
      ∃ (j : Nat) (p q : SourcePattern) (b' : SchemaBuilder), part.body[j]? = some p ∧
        p.LoweredAt (lowerAll (part.body.take j) ((parts.take i).foldl addPart b)).2 q b' ∧
        b'.Puts q id n := by
  induction parts generalizing b with
  | nil => exact .inl h
  | cons part parts ih =>
      rw [List.foldl_cons] at h
      rcases ih h with h | ⟨i, later, hi, hlater⟩
      · rcases fromAny_addPart hn part h with h | hfirst
        · exact .inl h
        · exact .inr ⟨0, part, rfl, hfirst⟩
      · exact .inr ⟨i + 1, later, hi, hlater⟩

end SchemaBuilder

namespace Tree

variable {t : Tree} {e c : ElementNode} {p q : SourcePattern} {b b' : SchemaBuilder} {s : Schema}
  {id : Nat} {n : Pattern} {source : SourceSchema}

lemma exists_of_forall₂_right {α β : Type} {R : α → β → Prop} {as : List α} {bs : List β}
    (h : List.Forall₂ R as bs) {i : Nat} {b : β} (hb : bs[i]? = some b) : ∃ a, as[i]? = some a :=
  ⟨_, (exists_of_forall₂ h.flip hb).choose_spec.1⟩

/-- Where a pattern inside one that is read was lowered, an element was compiled. -/
lemma CompiledFrom.of_loweredAt (hs : t.Shaped) (ht : t.Nests) (h : t.CompiledFrom e p b)
    (hat : p.LoweredAt b q b') : ∃ c, t.CompiledFrom c q b' := by
  induction hat generalizing e with
  | here => exact ⟨e, h⟩
  | inside hr _ ih =>
      obtain ⟨he, depth, hp⟩ := h.read hs ht
      obtain ⟨below, ps, -, hinside, hstands⟩ := readPattern_cases ht he hp
      rw [← hstands.members_eq] at hinside
      obtain ⟨c, hc⟩ := exists_of_forall₂_right hinside hr
      exact ih (h.inside hc hr)

section Compiled

variable (hs : t.Shaped) (ht : t.Nests) (hread : t.readSchema = .ok source)
  (hcompile : source.compile = .ok s)
include hs ht hread

include hcompile in
/-- Every element and attribute pattern of a schema was put there for an element of the document. -/
lemma exists_compiledFrom (hn : n.isNamed = true) (hid : s.patterns[id]? = some n) :
    ∃ e q b', t.CompiledFrom e q b' ∧ b'.Puts q id n := by
  cases readsSchema hs ht hread with
  | @grammar parts hsole hparts =>
      have hpatterns : (parts.foldl SchemaBuilder.addPart .empty).patterns = s.patterns :=
        congrArg SchemaBuilder.patterns (Schema.builder_of_compile hcompile).symm
      rw [← hpatterns] at hid
      rcases SchemaBuilder.exists_part_of_foldl_addPart hn parts hid with hid | hpart
      · simp [SchemaBuilder.empty] at hid
      · obtain ⟨i, part, hi, j, p, q, b', hp, hat, hputs⟩ := hpart
        obtain ⟨c, hc⟩ := exists_of_forall₂_right hparts hi
        have hbody := (of_forall₂_getElem? hparts hc hi).body
        obtain ⟨e, he⟩ := exists_of_forall₂_right hbody hp
        obtain ⟨c, hfrom⟩ := (CompiledFrom.body hread hc hi he hp).of_loweredAt hs ht hat
        exact ⟨c, q, b', hfrom, hputs⟩
  | @pattern root p hsole hroot hparts hp =>
      simp only [SourceSchema.compile] at hcompile
      rw [SchemaBuilder.finish_ok hcompile] at hid
      rcases SchemaBuilder.fromOne_lower hn p .empty hid with hid | ⟨q, b', hat, hputs⟩
      · simp [SchemaBuilder.empty] at hid
      · obtain ⟨c, hfrom⟩ := (CompiledFrom.document hsole hread).of_loweredAt hs ht hat
        exact ⟨c, q, b', hfrom, hputs⟩

end Compiled

end Tree

end XmlAdvisor
