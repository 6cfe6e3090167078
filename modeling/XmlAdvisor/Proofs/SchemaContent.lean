import XmlAdvisor.Proofs.GrammarLanguage
import XmlAdvisor.Proofs.ParsedTrees
import XmlAdvisor.Proofs.SchemaLanguage

/-!
# Compiling keeps the content of a schema document

Every pattern element of a schema document is compiled to a pattern of the schema, and this pattern
allows the sequences of child elements that the element means.

* `Tree.PatternElement` — the pattern elements of a document, of any nesting.
* `Tree.CompiledFrom` — how compiling comes to an element: the elements before it have been compiled
  then, and the parts of the grammar before the one that it is in.
* `Tree.CompiledTo` — the number that an element is compiled to.
* **`Schema.compile_preserves_content`** — what elements mean and what their patterns allow.
* `Schema.compile_interleaved_ref` — a reference to definitions that are not combined in one way.
-/

namespace XmlAdvisor

open scoped Computability

namespace SchemaBuilder

variable {b b' : SchemaBuilder} {s : Schema} {p : SourcePattern}

/-! ## Where a pattern is lowered -/

lemma lowers_group (b : SchemaBuilder) (ids : List Nat) : b.Lowers (b.group ids).2 := by
  unfold SchemaBuilder.group
  split
  · exact lowers_push b _
  · exact lowers_refl b
  · exact lowers_push b _

lemma lowers_lowerBody (ps : List SourcePattern) (b : SchemaBuilder) :
    (lowerAll ps b).2.Lowers (lowerBody ps b).2 := by
  rw [lowerBody]
  exact lowers_group _ _

/-- The patterns that a pattern is written with are lowered first. -/
lemma lowers_members : ∀ (p : SourcePattern) (b : SchemaBuilder),
    (lowerAll p.members b).2.Lowers (lower p b).2
  | .element _ ps _, b | .list ps, b | .oneOrMore ps, b => by
      rw [lower]
      exact (lowers_lowerBody ps b).trans (lowers_push _ _)
  | .attribute name ps documentation default, b => by
      rw [lower, SourcePattern.members]
      split_ifs with hempty
      · rw [List.isEmpty_iff.mp hempty, lowerAll]
        exact (lowers_push b .text).trans (lowers_push _ _)
      · exact (lowers_lowerBody ps b).trans (lowers_push _ _)
  | .group ps, b => by
      rw [lower]
      exact lowers_lowerBody ps b
  | .interleave ps, b | .choice ps, b => by
      rw [lower]
      exact lowers_push _ _
  | .optional ps, b | .mixed ps, b => by
      rw [lower]
      exact ((lowers_lowerBody ps b).trans (lowers_push _ _)).trans (lowers_push _ _)
  | .zeroOrMore ps, b => by
      rw [lower]
      exact (((lowers_lowerBody ps b).trans (lowers_push _ _)).trans (lowers_push _ _)).trans
        (lowers_push _ _)
  | .empty, b | .text, b | .notAllowed, b | .data _, b | .value _, b => by
      rw [lower, SourcePattern.members, lowerAll]
      exact lowers_push b _
  | .ref name, b => by
      rw [lower, SourcePattern.members, lowerAll]
      exact (lowers_definition b name).1.trans (lowers_push _ _)

/-- Several patterns are lowered one after the other. -/
lemma lowers_after (ps : List SourcePattern) (j : Nat) (hj : ps[j]? = some p) (b : SchemaBuilder) :
    (lower p (lowerAll (ps.take j) b).2).2.Lowers (lowerAll ps b).2 := by
  induction ps generalizing j b with
  | nil => simp at hj
  | cons q ps ih =>
      cases j with
      | zero =>
          cases hj
          rw [List.take_zero, lowerAll, lowerAll]
          exact (denotes_lowerAll ps _).lowers
      | succ j =>
          rw [List.take_succ_cons, lowerAll, lowerAll]
          exact ih j hj _

/-- A pattern of several is lowered before all of them are. -/
lemma reaches_of_lowerAll {ps : List SourcePattern} {j : Nat} (hj : ps[j]? = some p)
    (hs : (lowerAll ps b).2.Reaches s) : (lower p (lowerAll (ps.take j) b).2).2.Reaches s :=
  (lowers_after ps j hj b).reaches hs

end SchemaBuilder

/-! ## Schemas of one pattern -/

namespace Schema

variable {s : Schema} {p : SourcePattern}

/-- In a schema of one pattern, no names are defined. -/
lemma definitions_of_compile (h : (SourceSchema.pattern p).compile = .ok s) :
    s.definitions = #[] := by
  simp only [SourceSchema.compile] at h
  have hfinish := SchemaBuilder.finish_ok h
  rw [SchemaBuilder.finish] at h
  split at h
  · cases h
  · rename_i hall
    rw [Array.find?_eq_none] at hall
    rw [hfinish, Array.eq_empty_iff_forall_not_mem]
    intro d hd
    obtain ⟨i, hi⟩ := Array.getElem?_of_mem hd
    rcases (SchemaBuilder.denotes_lower p .empty).lowers.unbodied i d hi with hold | hnone
    · simp [SchemaBuilder.empty] at hold
    · exact absurd (by rw [hnone]; rfl) (hall d hd)

lemma reaches_of_compile (h : (SourceSchema.pattern p).compile = .ok s) :
    (SchemaBuilder.lower p .empty).2.Reaches s := by
  simp only [SourceSchema.compile] at h
  rw [SchemaBuilder.finish_ok h]
  exact ⟨fun _ _ hp => hp, fun _ d hd => ⟨d, hd, rfl⟩⟩

/-- **The names of a compiled schema mean what its parts say**, each joined to those before it. -/
theorem obeys_of_compile {source : SourceSchema} (h : source.compile = .ok s) :
    s.builder.Distinct ∧
      s.nameSystem.Obeys fun names name => SourcePart.defined source.parts names (some name) := by
  cases source with
  | grammar parts =>
      have hrealizes := SourceSchema.compile_realizes h
      exact ⟨hrealizes.distinct, hrealizes.names⟩
  | pattern p =>
      have hnone := definitions_of_compile h
      refine ⟨fun i j d e hd => ?_, fun names x _ => ?_⟩
      · rw [builder, hnone] at hd
        simp at hd
      · funext name
        change s.bodyMeaning x name = _
        rw [bodyMeaning, hnone]
        rfl

end Schema

/-! ## The patterns of a document -/

namespace Tree

variable {t : Tree} {e c : ElementNode} {p : SourcePattern} {b : SchemaBuilder} {s : Schema}

/-- The pattern elements of a schema document. -/
inductive PatternElement (t : Tree) : ElementNode → Prop
  | document {e : ElementNode} (h : t.solePattern? = some e) : PatternElement t e
  | body {c e : ElementNode} (hc : c ∈ t.schemaParts) (he : e ∈ t.schemaChildren c) :
      PatternElement t e
  | inside {e c : ElementNode} (h : PatternElement t e) (hc : c ∈ t.patternChildren e) :
      PatternElement t c

/-- Whether a pattern element is read as a pattern and lowered from a builder: the parts before it
and the patterns before it have been lowered then. -/
inductive CompiledFrom (t : Tree) : ElementNode → SourcePattern → SchemaBuilder → Prop
  | document {e : ElementNode} {p : SourcePattern} (hsole : t.solePattern? = some e)
      (hread : t.readSchema = .ok (.pattern p)) : CompiledFrom t e p .empty
  | body {parts : List SourcePart} {i j : Nat} {part : SourcePart} {c e : ElementNode}
      {p : SourcePattern} (hread : t.readSchema = .ok (.grammar parts))
      (hc : t.schemaParts[i]? = some c) (hpart : parts[i]? = some part)
      (he : (t.schemaChildren c)[j]? = some e) (hp : part.body[j]? = some p) :
      CompiledFrom t e p
        (SchemaBuilder.lowerAll (part.body.take j)
          ((parts.take i).foldl SchemaBuilder.addPart .empty)).2
  | inside {e c : ElementNode} {p q : SourcePattern} {b : SchemaBuilder} {j : Nat}
      (h : CompiledFrom t e p b) (hc : (t.patternChildren e)[j]? = some c)
      (hq : p.members[j]? = some q) :
      CompiledFrom t c q (SchemaBuilder.lowerAll (p.members.take j) b).2

/-- Whether a pattern element is compiled to the pattern with a number. -/
def CompiledTo (t : Tree) (e : ElementNode) (id : Nat) : Prop :=
  ∃ p b, t.CompiledFrom e p b ∧ (SchemaBuilder.lower p b).1 = id

lemma exists_of_forall₂ {α β : Type} {R : α → β → Prop} {as : List α} {bs : List β}
    (h : List.Forall₂ R as bs) {i : Nat} {a : α} (ha : as[i]? = some a) :
    ∃ b, bs[i]? = some b ∧ R a b := by
  obtain ⟨hi, rfl⟩ := List.getElem?_eq_some_iff.mp ha
  have hi' : i < bs.length := h.length_eq ▸ hi
  exact ⟨bs[i], List.getElem?_eq_getElem hi', h.get hi hi'⟩

lemma of_forall₂_getElem? {α β : Type} {R : α → β → Prop} {as : List α} {bs : List β}
    (h : List.Forall₂ R as bs) {i : Nat} {a : α} {b : β} (ha : as[i]? = some a)
    (hb : bs[i]? = some b) : R a b := by
  obtain ⟨b', hb', hab⟩ := exists_of_forall₂ h ha
  rw [hb, Option.some.injEq] at hb'
  exact hb' ▸ hab

/-- What is compiled for an element is what is read of it. -/
lemma CompiledFrom.read (hs : t.Shaped) (ht : t.Nests) (h : t.CompiledFrom e p b) :
    t.element? e.id = some e ∧ ∃ depth, t.readPattern depth e (t.schemaNs e) = .ok p := by
  induction h with
  | document hsole hread =>
      cases readsSchema hs ht hread with
      | pattern hsole' hroot _ hp =>
          rw [hsole, Option.some.injEq] at hsole'
          subst hsole'
          exact ⟨hroot, _, hp⟩
  | body hread hc hpart he hp =>
      cases readsSchema hs ht hread with
      | grammar _ hparts =>
          have hbody := (of_forall₂_getElem? hparts hc hpart).body
          obtain ⟨hmem, hp⟩ := of_forall₂_getElem? hbody he hp
          exact ⟨element?_of_mem_childElements (List.mem_of_mem_filter hmem), _, hp⟩
  | inside _ hc hq ih =>
      obtain ⟨he, depth, hp⟩ := ih
      obtain ⟨below, ps, -, hinside, hstands⟩ := readPattern_cases ht he hp
      rw [hstands.members_eq] at hq
      obtain ⟨hmem, hq⟩ := of_forall₂_getElem? hinside hc hq
      exact ⟨element?_of_mem_childElements (List.mem_of_mem_filter hmem), _, hq⟩

/-- Every pattern element is compiled. -/
lemma PatternElement.compiledFrom (hs : t.Shaped) (ht : t.Nests) {source : SourceSchema}
    (hread : t.readSchema = .ok source) (h : t.PatternElement e) : ∃ p b, t.CompiledFrom e p b := by
  induction h with
  | document hsole =>
      cases readsSchema hs ht hread with
      | grammar hnone _ =>
          rw [hsole] at hnone
          cases hnone
      | pattern _ _ _ _ => exact ⟨_, _, .document hsole hread⟩
  | body hc he =>
      obtain ⟨i, hc⟩ := List.getElem?_of_mem hc
      obtain ⟨j, he⟩ := List.getElem?_of_mem he
      cases readsSchema hs ht hread with
      | grammar _ hparts =>
          obtain ⟨part, hpart, hreads⟩ := exists_of_forall₂ hparts hc
          obtain ⟨p, hp, -⟩ := exists_of_forall₂ hreads.body he
          exact ⟨p, _, .body hread hc hpart he hp⟩
      | pattern _ _ hnone _ =>
          rw [hnone] at hc
          simp at hc
  | inside _ hc ih =>
      obtain ⟨j, hc⟩ := List.getElem?_of_mem hc
      obtain ⟨p, b, hfrom⟩ := ih
      obtain ⟨he, depth, hp⟩ := hfrom.read hs ht
      obtain ⟨below, ps, -, hinside, hstands⟩ := readPattern_cases ht he hp
      obtain ⟨q, hq, -⟩ := exists_of_forall₂ hinside hc
      rw [← hstands.members_eq] at hq
      exact ⟨q, _, hfrom.inside hc hq⟩

/-- An element is compiled in a builder whose patterns refer back. -/
lemma CompiledFrom.ordered (h : t.CompiledFrom e p b) : b.Ordered := by
  induction h with
  | document _ _ => exact SchemaBuilder.ordered_empty
  | body _ _ _ _ _ =>
      have hparts := SchemaBuilder.ordered_foldl_addPart SchemaBuilder.ordered_empty
      exact (SchemaBuilder.adds_lowerAll _ _ (hparts _)).ordered
  | inside _ _ _ ih => exact (SchemaBuilder.adds_lowerAll _ _ ih).ordered

/-- What an element was compiled to becomes part of the schema. -/
lemma CompiledFrom.reaches {source : SourceSchema} (hread : t.readSchema = .ok source)
    (hcompile : source.compile = .ok s) (h : t.CompiledFrom e p b) :
    (SchemaBuilder.lower p b).2.Reaches s := by
  induction h with
  | document _ hpattern =>
      rw [hread, Except.ok.injEq] at hpattern
      subst hpattern
      exact Schema.reaches_of_compile hcompile
  | @body parts i j part c e p hgrammar _ hpart _ hp =>
      rw [hread, Except.ok.injEq] at hgrammar
      subst hgrammar
      have hparts := s.builder_reaches
      rw [Schema.builder_of_compile hcompile, ← List.take_append_drop i parts, List.foldl_append,
        List.drop_eq_getElem_cons (List.getElem?_eq_some_iff.mp hpart).1, List.foldl_cons,
        (List.getElem?_eq_some_iff.mp hpart).2] at hparts
      have hbody := SchemaBuilder.reaches_addPart (SchemaBuilder.reaches_foldl_addPart hparts)
      exact SchemaBuilder.reaches_of_lowerAll hp
        ((SchemaBuilder.lowers_lowerBody _ _).reaches hbody)
  | inside _ _ hq ih =>
      exact SchemaBuilder.reaches_of_lowerAll hq ((SchemaBuilder.lowers_members _ _).reaches ih)

end Tree

namespace Schema

variable {s : Schema} {t : Tree} {e c : ElementNode} {p : SourcePattern} {b : SchemaBuilder}

/-! ## What patterns allow -/

/-- Whether a schema allows what the pattern elements, the definitions and the start of a document
mean, for a way of putting the definitions of a name together. -/
structure Keeps (s : Schema) (t : Tree) (merge : Merge) : Prop where
  pattern : ∀ e id, t.CompiledTo e id → s.childNames id = t.patternLanguage merge e.id
  content : ∀ e id, t.CompiledTo e id → e.element.localName = "element" →
    ∃ content, s.elementContent? id = some content ∧ s.childNames content =
      (((t.patternChildren e).map ElementNode.id).map (t.patternLanguage merge)).prod
  definition : ∀ name, t.partElementsOf (some name) ≠ [] →
    ∃ m, s.builder.HasBody m (some name) ∧
      s.childNames m = t.definedMeaning merge (t.patternLanguage merge) name
  start : ∀ c, t.partElementsOf none = [c] →
    s.childNames s.start = (t.bodyLanguage (t.patternLanguage merge) c).2
  sole : ∀ e, t.solePattern? = some e → t.CompiledTo e s.start

/-- A compiled schema and its document give names the same meanings. -/
lemma nameMeaning_eq (ht : t.Nests) {source : SourceSchema} (hreads : t.ReadsSchema source)
    (hcompile : source.compile = .ok s) :
    s.nameMeaning = (t.patternSystem .inOrder).named (t.patternLanguage .inOrder) :=
  NameSystem.named_eq (obeys_of_compile hcompile).2 (Tree.obeys_of_readsSchema ht hreads)

lemma solves_patternLanguage (ht : t.Nests) {source : SourceSchema} (hreads : t.ReadsSchema source)
    (hcompile : source.compile = .ok s) :
    t.patternStep s.nameMeaning (t.patternLanguage .inOrder) = t.patternLanguage .inOrder := by
  rw [nameMeaning_eq ht hreads hcompile]
  exact (t.patternSystem .inOrder).meaning_eq

section Compiled

variable (hs : t.Shaped) (ht : t.Nests) {source : SourceSchema}
  (hread : t.readSchema = .ok source) (hcompile : source.compile = .ok s)
include hs ht hread hcompile

lemma childNames_of_compiledFrom (h : t.CompiledFrom e p b) :
    s.childNames (SchemaBuilder.lower p b).1 = t.patternLanguage .inOrder e.id := by
  have hsolves := s.solves_childNames (obeys_of_compile hcompile).1
  have hmeans := (SchemaBuilder.denotes_lower p b).means s _ _ (h.reaches hread hcompile) hsolves
  obtain ⟨he, depth, hp⟩ := h.read hs ht
  have hx := solves_patternLanguage ht (Tree.readsSchema hs ht hread) hcompile
  rw [Tree.language_of_readPattern ht hx he hp]
  exact (List.cons_eq_cons.mp hmeans).1

/-- The content of an element pattern is the sequence of the patterns in the element. -/
lemma content_of_compiledFrom (h : t.CompiledFrom e p b)
    (helement : e.element.localName = "element") :
    ∃ content, s.elementContent? (SchemaBuilder.lower p b).1 = some content ∧
      s.childNames content =
        (((t.patternChildren e).map ElementNode.id).map (t.patternLanguage .inOrder)).prod := by
  have hsolves := s.solves_childNames (obeys_of_compile hcompile).1
  have hreaches := h.reaches hread hcompile
  have hx := solves_patternLanguage ht (Tree.readsSchema hs ht hread) hcompile
  obtain ⟨he, depth, hp⟩ := h.read hs ht
  obtain ⟨below, content, -, hinside, hstands⟩ := Tree.readPattern_cases ht he hp
  have hlanguages := Tree.languages_eq_of_forall₂ (hinside.imp fun c q ⟨hc, hq⟩ =>
    Tree.language_of_readPattern ht hx
      (Tree.element?_of_mem_childElements (List.mem_of_mem_filter hc)) hq)
  cases hstands with
  | @element name rest _ hname =>
      rw [SchemaBuilder.lower] at hreaches ⊢
      obtain ⟨hpattern, -⟩ := hreaches.solves_push hsolves
      have hbody := (SchemaBuilder.lowers_push _ _).reaches hreaches
      refine ⟨(SchemaBuilder.lowerBody content b).1, ?_, ?_⟩
      · rw [elementContent?]
        dsimp only
        rw [hpattern]
      · have hmeans := (SchemaBuilder.denotes_lowerBody content b).means s _ _ hbody hsolves
        rw [hlanguages]
        exact (List.cons_eq_cons.mp hmeans).1
  | _ => simp_all

/-- Every target of a grammar has a body, which allows what its starts or definitions mean. -/
lemma body_of_partElementsOf {target : Option String} (hne : t.partElementsOf target ≠ []) :
    ∃ m, s.builder.HasBody m target ∧ s.childNames m =
      joinInOrder ((t.partElementsOf target).map
        (t.bodyLanguage (t.patternLanguage .inOrder))) := by
  have hreads := Tree.readsSchema hs ht hread
  have hx := solves_patternLanguage ht hreads hcompile
  cases hreads with
  | @grammar parts _ hparts =>
      have hrealizes := SourceSchema.compile_realizes hcompile
      have hbodies := Tree.bodies_of_readsParts ht hparts hx target
      have hsome : SourcePart.partsOf parts target ≠ [] := by
        intro hnil
        rw [hnil, List.map_nil, List.map_eq_nil_iff] at hbodies
        exact hne hbodies
      obtain ⟨m, hm⟩ := hrealizes.exists_body target hsome
      exact ⟨m, hm, by rw [hbodies, hrealizes.body target m hm, SourcePart.defined]⟩
  | pattern _ _ hnone _ =>
      rw [Tree.partElementsOf, hnone] at hne
      exact absurd rfl hne

/-- The one pattern of a document is the start. -/
lemma compiledTo_start (hsole : t.solePattern? = some e) : t.CompiledTo e s.start := by
  cases Tree.readsSchema hs ht hread with
  | grammar hnone _ =>
      rw [hsole] at hnone
      cases hnone
  | @pattern root p _ _ _ _ =>
      refine ⟨p, .empty, .document hsole hread, ?_⟩
      simp only [SourceSchema.compile] at hcompile
      rw [SchemaBuilder.finish_ok hcompile]

/-- A compiled schema keeps the meanings of its document, each body joined to those before it. -/
lemma keeps_inOrder : s.Keeps t .inOrder where
  pattern := by
    rintro e id ⟨p, b, h, rfl⟩
    exact childNames_of_compiledFrom hs ht hread hcompile h
  content := by
    rintro e id ⟨p, b, h, rfl⟩ helement
    exact content_of_compiledFrom hs ht hread hcompile h helement
  definition name hne := body_of_partElementsOf hs ht hread hcompile hne
  start c hc := by
    have hne : t.partElementsOf none ≠ [] := by
      rw [hc]
      exact List.cons_ne_nil c []
    obtain ⟨m, hm, hchildren⟩ := body_of_partElementsOf hs ht hread hcompile hne
    have hstart : s.start = m := Option.some.inj hm
    rw [hstart, hchildren, hc]
    rfl
  sole e hsole := compiledTo_start hs ht hread hcompile hsole

end Compiled

lemma Keeps.together (h : s.Keeps t .inOrder) (halike : t.CombinedAlike) : s.Keeps t .together := by
  have hlanguage := t.patternLanguage_together halike
  have hdefined := t.definedMeaning_together halike
  exact ⟨by rw [hlanguage]; exact h.pattern, by rw [hlanguage]; exact h.content,
    by rw [hlanguage, hdefined]; exact h.definition, by rw [hlanguage]; exact h.start, h.sole⟩

/-- **Compiling keeps content.**  Every pattern element of a schema document is compiled to a
pattern of the schema, which allows the sequences of children that the element means: with the
definitions of a name joined one after the other, and so in any order if they are combined in one
way. -/
theorem compile_preserves_content {text : List Char} {s : Schema}
    (h : Schema.compile text = .ok s) :
    (∀ e, (Tree.parse text).PatternElement e →
      ∃ id, id < s.patterns.size ∧ (Tree.parse text).CompiledTo e id) ∧
    s.Keeps (Tree.parse text) .inOrder ∧
    ((Tree.parse text).CombinedAlike → s.Keeps (Tree.parse text) .together) := by
  obtain ⟨source, hread, hcompile⟩ := ok_of_bind h
  have hs := Tree.parse_shaped text
  have ht := Tree.parse_nests text
  have hkeeps := keeps_inOrder hs ht hread hcompile
  refine ⟨fun e he => ?_, hkeeps, hkeeps.together⟩
  obtain ⟨p, b, hfrom⟩ := he.compiledFrom hs ht hread
  have hadds := SchemaBuilder.adds_lower p b hfrom.ordered
  have hid := hadds.inside _ (List.mem_singleton_self _)
  have hin := (hfrom.reaches hread hcompile).patterns _ _ (Array.getElem?_eq_getElem hid)
  exact ⟨_, (Array.getElem?_eq_some_iff.mp hin).1, p, b, hfrom, rfl⟩

/-! ## Schema documents as they are written -/

/-- A start tag with its attributes in single quotation marks. -/
def quotedTag (name : String) (said : List (String × String)) : WrittenTag :=
  ⟨⟨none, name⟩, said.map fun a => ⟨[' '], ⟨none, a.1⟩, [], [], '\'', a.2⟩, []⟩

/-- A schema document whose root element has the given content. -/
def contentDocument (content : String) : List Char :=
  ("<element name='r' xmlns='http://relaxng.org/ns/structure/1.0'>" ++ content ++
    "</element>").toList

/-- Such a document as it is written. -/
def writtenContent (inner : WrittenContents) : WrittenContents :=
  .element (quotedTag "element" [("name", "r"), ("xmlns", schemaNamespace)]) inner [] .nil

lemma parse_contentDocument {content : String} {inner : WrittenContents}
    (hchars : content.toList = inner.chars) (hwritten : inner.isWellFormed = true) :
    Tree.parse (contentDocument content) = (writtenContent inner).tree := by
  have hdocument : (writtenContent inner).isDocument = true := by
    have htag : (quotedTag "element" [("name", "r"), ("xmlns", schemaNamespace)]).isWellFormed := by
      decide +kernel
    simp [writtenContent, WrittenContents.isDocument, WrittenContents.isEpilog, htag, hwritten]
  rw [← Tree.parse_chars hdocument, contentDocument, String.toList_append, String.toList_append,
    hchars]
  simp [writtenContent, quotedTag, WrittenContents.chars, WrittenTag.opening, WrittenTag.ending,
    WrittenAttribute.chars, QualifiedName.text, schemaNamespace]

/-! ## A name that is defined twice -/

/-- A schema document with two definitions of one name. -/
def twiceDefined (first second : String) : List Char :=
  ("<grammar xmlns='http://relaxng.org/ns/structure/1.0'><start><ref name='x'/></start>" ++ first ++
    second ++ "</grammar>").toList

/-- A definition as it is written: with what its attributes say, and the name of the element in
it. -/
def writtenDefinition (d : List (String × String) × String) (more : WrittenContents) :
    WrittenContents :=
  .element (quotedTag "define" d.1) (.emptied (quotedTag "element" [("name", d.2)]) .nil) [] more

/-- A document with two definitions as it is written. -/
def writtenTwice (first second : List (String × String) × String) : WrittenContents :=
  .element (quotedTag "grammar" [("xmlns", schemaNamespace)])
    (.element (quotedTag "start" []) (.emptied (quotedTag "ref" [("name", "x")]) .nil) [] <|
      writtenDefinition first <| writtenDefinition second .nil) [] .nil

lemma parse_twiceDefined {first second : String} {d e : List (String × String) × String}
    (hfirst : first.toList = (writtenDefinition d .nil).chars)
    (hsecond : second.toList = (writtenDefinition e .nil).chars)
    (hd : (writtenDefinition d .nil).isWellFormed = true)
    (he : (writtenDefinition e .nil).isWellFormed = true) :
    Tree.parse (twiceDefined first second) = (writtenTwice d e).tree := by
  have hdocument : (writtenTwice d e).isDocument = true := by
    have htag : (quotedTag "grammar" [("xmlns", schemaNamespace)]).isWellFormed := by decide +kernel
    have hstart : (quotedTag "start" []).isWellFormed ∧
        (quotedTag "ref" [("name", "x")]).isWellFormed := by decide +kernel
    simp only [writtenDefinition, WrittenContents.isWellFormed, List.all_nil,
      Bool.and_true] at hd he
    simp [writtenTwice, writtenDefinition, WrittenContents.isDocument, WrittenContents.isEpilog,
      WrittenContents.isWellFormed, htag, hstart, hd, he]
  rw [← Tree.parse_chars hdocument, twiceDefined, String.toList_append, String.toList_append,
    String.toList_append, hfirst, hsecond]
  simp [writtenTwice, writtenDefinition, quotedTag, WrittenContents.chars, WrittenTag.opening,
    WrittenTag.ending, WrittenAttribute.chars, QualifiedName.text, schemaNamespace]

def plainDefinition : String :=
  "<define name='x'><element name='a'/></define>"

def choiceDefinition : String :=
  "<define name='x' combine='choice'><element name='b'/></define>"

lemma parse_plainFirst : Tree.parse (twiceDefined plainDefinition choiceDefinition) =
    (writtenTwice ([("name", "x")], "a") ([("name", "x"), ("combine", "choice")], "b")).tree :=
  parse_twiceDefined (by decide +kernel) (by decide +kernel) (by decide +kernel) (by decide +kernel)

/-- What such a document is read as. -/
def twiceParts (first second : Option Combine × String) : List SourcePart :=
  [.start none [.ref "x"], .define "x" first.1 [.element (.name "" first.2) [] none],
    .define "x" second.1 [.element (.name "" second.2) [] none]]

/-- What such a document is compiled to. -/
def twiceSchema (first second : Option Combine × String) : Schema where
  patterns := #[.ref 0, .empty, .element (.name "" first.2) 1 none, .empty,
    .element (.name "" second.2) 3 none,
    if second.1 = some .interleave then .interleave [2, 4] else .choice [2, 4]]
  definitions := #[⟨"x", some 5⟩]
  start := 0

lemma compile_twiceParts (first second : Option Combine × String) :
    (SourceSchema.grammar (twiceParts first second)).compile = .ok (twiceSchema first second) := by
  obtain ⟨combine, name⟩ := second
  rcases combine with _ | _ | _ <;>
    simp [twiceParts, twiceSchema, SourceSchema.compile, SchemaBuilder.addPart, SchemaBuilder.lower,
      SchemaBuilder.lowerAll, SchemaBuilder.lowerBody, SchemaBuilder.empty, SchemaBuilder.push,
      SchemaBuilder.group, SchemaBuilder.join, SchemaBuilder.definition, SchemaBuilder.finish]

lemma compile_of_readSchema {text : List Char} {source : SourceSchema} {s : Schema}
    (hread : (Tree.parse text).readSchema = .ok source) (hcompile : source.compile = .ok s) :
    Schema.compile text = .ok s := by
  rw [Schema.compile, hread]
  exact hcompile

lemma readSchema_plainFirst :
    (Tree.parse (twiceDefined plainDefinition choiceDefinition)).readSchema
      = .ok (.grammar (twiceParts (none, "a") (some .choice, "b"))) := by
  rw [parse_plainFirst]
  rfl

lemma combinedAs_plainFirst (target : Option String) :
    CombinedAs .choice
      ((Tree.parse (twiceDefined plainDefinition choiceDefinition)).combinesOf target) := by
  cases Tree.readsSchema (Tree.parse_shaped _) (Tree.parse_nests _) readSchema_plainFirst with
  | grammar _ hparts =>
      rw [Tree.combines_of_readsParts hparts]
      refine ⟨fun c hc => ?_, fun h => by cases h⟩
      obtain ⟨part, hpart, rfl⟩ := List.mem_map.mp hc
      have hmem := List.mem_of_mem_filter hpart
      simp only [twiceParts, List.mem_cons, List.not_mem_nil, or_false] at hmem
      rcases hmem with rfl | rfl | rfl <;> simp [SourcePart.combine]

/-- A reference to two definitions of which the second is combined by choice. -/
theorem compile_preserves_content_twice :
    ∃ s, Schema.compile (twiceDefined plainDefinition choiceDefinition) = .ok s ∧
      (∃ e id, (Tree.parse (twiceDefined plainDefinition choiceDefinition)).CompiledTo e id ∧
        e.element.localName = "ref") ∧
      s.Keeps (Tree.parse (twiceDefined plainDefinition choiceDefinition)) .together := by
  have hcompile := compile_of_readSchema readSchema_plainFirst (compile_twiceParts _ _)
  obtain ⟨hall, -, htogether⟩ := compile_preserves_content hcompile
  refine ⟨_, hcompile, ?_, htogether fun name => ⟨.choice, combinedAs_plainFirst _⟩⟩
  have href : ∃ c ∈ (Tree.parse (twiceDefined plainDefinition choiceDefinition)).schemaParts,
      ∃ e ∈ (Tree.parse (twiceDefined plainDefinition choiceDefinition)).schemaChildren c,
        e.element.localName = "ref" := by
    rw [parse_plainFirst]
    decide +kernel
  obtain ⟨c, hc, e, he, hlocal⟩ := href
  obtain ⟨id, -, hid⟩ := hall e (.body hc he)
  exact ⟨e, id, hid, hlocal⟩

/-! ## An interleaved definition that comes first -/

def interleavedDefinition : String :=
  "<define name='x' combine='interleave'><element name='b'/></define>"

lemma parse_interleavedFirst : Tree.parse (twiceDefined interleavedDefinition plainDefinition) =
    (writtenTwice ([("name", "x"), ("combine", "interleave")], "b") ([("name", "x")], "a")).tree :=
  parse_twiceDefined (by decide +kernel) (by decide +kernel) (by decide +kernel) (by decide +kernel)

lemma readSchema_interleavedFirst :
    (Tree.parse (twiceDefined interleavedDefinition plainDefinition)).readSchema
      = .ok (.grammar (twiceParts (some .interleave, "b") (none, "a"))) := by
  rw [parse_interleavedFirst]
  rfl

/-- What the two definitions say. -/
def interleavedBodies : List (Option Combine × NameLanguage) :=
  [(some .interleave, (NameClass.name "" "b").names), (none, (NameClass.name "" "a").names)]

lemma partsOf_interleavedFirst (names : String → NameLanguage) :
    (SourcePart.partsOf (twiceParts (some .interleave, "b") (none, "a")) (some "x")).map
      (SourcePart.language names) = interleavedBodies := by
  simp [SourcePart.partsOf, twiceParts, SourcePart.target, SourcePart.language, SourcePart.combine,
    SourcePart.body, SourcePattern.languages, SourcePattern.language, interleavedBodies]

lemma bodies_interleavedFirst {names : String → NameLanguage} {x : Nat → NameLanguage}
    (hx : (Tree.parse (twiceDefined interleavedDefinition plainDefinition)).patternStep
      names x = x) :
    ((Tree.parse (twiceDefined interleavedDefinition plainDefinition)).partElementsOf
      (some "x")).map
        ((Tree.parse (twiceDefined interleavedDefinition plainDefinition)).bodyLanguage x)
      = interleavedBodies := by
  have ht := Tree.parse_nests (twiceDefined interleavedDefinition plainDefinition)
  cases Tree.readsSchema (Tree.parse_shaped _) ht readSchema_interleavedFirst with
  | grammar _ hparts =>
      rw [Tree.bodies_of_readsParts ht hparts hx (some "x"), partsOf_interleavedFirst]

/-- No name alone interleaves two names. -/
lemma singleton_notMem_shuffle (c c' : NameClass) (n : String × String) :
    [n] ∉ shuffle c.names c'.names := by
  rintro ⟨_, ⟨_, _, rfl⟩, _, ⟨_, _, rfl⟩, h⟩
  cases h with
  | left _ h => cases h
  | right _ h => cases h

/-- Joined one after the other, the definitions allow what the second one says alone. -/
lemma joinInOrder_interleavedBodies :
    joinInOrder interleavedBodies ≠ Combine.interleave.joined (interleavedBodies.map Prod.snd) := by
  intro heq
  have hmem : [("", "a")] ∈ joinInOrder interleavedBodies := .inr ⟨("", "a"), by decide, rfl⟩
  rw [heq] at hmem
  refine singleton_notMem_shuffle (.name "" "b") (.name "" "a") ("", "a") ?_
  simpa [Combine.joined, interleavedBodies] using hmem

lemma joinTogether_interleavedBodies :
    joinTogether interleavedBodies = Combine.interleave.joined (interleavedBodies.map Prod.snd) :=
  if_pos ⟨_, List.mem_cons_self .., rfl⟩

/-- **A reference is not compiled to all definitions at once** if an interleaved one comes first:
the children of the other one may stand alone. -/
theorem compile_interleaved_ref :
    ∃ s e id, Schema.compile (twiceDefined interleavedDefinition plainDefinition) = .ok s ∧
      (Tree.parse (twiceDefined interleavedDefinition plainDefinition)).CompiledTo e id ∧
      e.element.localName = "ref" ∧
      s.childNames id ≠
        (Tree.parse (twiceDefined interleavedDefinition plainDefinition)).patternLanguage
          .together e.id := by
  set t := Tree.parse (twiceDefined interleavedDefinition plainDefinition) with hparse
  have hs : t.Shaped := Tree.parse_shaped _
  have ht : t.Nests := Tree.parse_nests _
  have hread := readSchema_interleavedFirst
  have hcompile := compile_twiceParts (some .interleave, "b") (none, "a")
  have href : ∃ c ∈ t.schemaParts, ∃ e ∈ t.schemaChildren c, e.element.localName = "ref" ∧
      trimmed ((Tree.attributeValue? e "name").getD "") = "x" := by
    rw [hparse, parse_interleavedFirst]
    decide +kernel
  obtain ⟨c, hc, e, he, hlocal, hname⟩ := href
  obtain ⟨p, b, hfrom⟩ := (Tree.PatternElement.body hc he).compiledFrom hs ht hread
  obtain ⟨helement, -⟩ := hfrom.read hs ht
  refine ⟨_, e, _, compile_of_readSchema hread hcompile, ⟨p, b, hfrom, rfl⟩, hlocal,
    fun hsame => ?_⟩
  have hmeaning (merge : Merge) : t.patternLanguage merge e.id = merge.join interleavedBodies := by
    rw [Tree.patternLanguage_ref merge helement hlocal, hname, Tree.definedMeaning,
      bodies_interleavedFirst (t.patternStep_patternLanguage merge)]
  rw [childNames_of_compiledFrom hs ht hread hcompile hfrom, hmeaning, hmeaning] at hsame
  exact joinInOrder_interleavedBodies (hsame.trans joinTogether_interleavedBodies)

end Schema

end XmlAdvisor
