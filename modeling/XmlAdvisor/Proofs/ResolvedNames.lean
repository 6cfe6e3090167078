import XmlAdvisor.Proofs.AttributePresence
import XmlAdvisor.Proofs.ClosedSchemas
import XmlAdvisor.Proofs.LoweredPatterns

/-!
# What the names in a schema document stand for

The namespace of unqualified names is handed on from element to element while a schema document is
read. Here it is looked for from the inside: it is what the nearest `ns` attribute outwards says.
Both agree but for two elements whose `ns` attribute is passed over: an `except`, and an attribute
pattern that is named by an unqualified `name` attribute.

* `Tree.NameStands`, `Tree.ClassStands` — what a written name and an element that is a name class
  stand for.
* `Tree.NamedBy` — the name class of an element or attribute pattern.
* `Tree.NsHonoured` — no `ns` attribute of a pattern and its name classes is passed over.
* `Tree.classStands_of_readNameClass` — what is read as a name class is what the element stands for.
* **`Schema.compile_resolves_names`** — the element and attribute patterns of a compiled schema come
  from elements of its document, and have the name classes that these stand for.
-/

namespace XmlAdvisor

namespace Tree

variable {t : Tree} {e c d : ElementNode} {own written : String} {name : NameClass} {depth : Nat}

/-! ## Names -/

/-- What a written name stands for at an element: a qualified one is in the namespace that is bound
there, and an unqualified one in a given namespace. -/
inductive NameStands (t : Tree) (e : ElementNode) (written own : String) : NameClass → Prop
  | qualified {q l uri : String} (hname : splitName (trimmed written) = some (q, l))
      (hbound : t.lookupNamespace e (some q) = some uri) : NameStands t e written own (.name uri l)
  | unqualified (hname : splitName (trimmed written) = none) :
      NameStands t e written own (.name own (trimmed written))

/-- The element with the exceptions of a name class. -/
def exceptions? (t : Tree) (e : ElementNode) : Option ElementNode :=
  (t.schemaChildren e).find? (·.element.localName = "except")

/-- What an element that is a name class stands for.  An unqualified name takes the namespace of the
nearest `ns` attribute outwards. -/
inductive ClassStands (t : Tree) : ElementNode → NameClass → Prop
  | name {e : ElementNode} {c : NameClass} (h : e.element.localName = "name")
      (hname : t.NameStands e (t.textContent e) (t.schemaNs e) c) : ClassStands t e c
  | anyName {e : ElementNode} (h : e.element.localName = "anyName")
      (hall : t.exceptions? e = none) :
      ClassStands t e (.anyName .nothing)
  | anyNameExcept {e x : ElementNode} {classes : List NameClass}
      (h : e.element.localName = "anyName")
      (hexcept : t.exceptions? e = some x)
      (hclasses : List.Forall₂ (ClassStands t) (t.schemaChildren x) classes) :
      ClassStands t e (.anyName ((NameClass.union? classes).getD .nothing))
  | nsName {e : ElementNode} (h : e.element.localName = "nsName") (hall : t.exceptions? e = none) :
      ClassStands t e (.nsName (t.schemaNs e) .nothing)
  | nsNameExcept {e x : ElementNode} {classes : List NameClass} (h : e.element.localName = "nsName")
      (hexcept : t.exceptions? e = some x)
      (hclasses : List.Forall₂ (ClassStands t) (t.schemaChildren x) classes) :
      ClassStands t e (.nsName (t.schemaNs e) ((NameClass.union? classes).getD .nothing))
  | choice {e : ElementNode} {classes : List NameClass} {c : NameClass}
      (h : e.element.localName = "choice")
      (hclasses : List.Forall₂ (ClassStands t) (t.schemaChildren e) classes)
      (hunion : NameClass.union? classes = some c) : ClassStands t e c

/-- The name class of an element or attribute pattern: that of its `name` attribute, for which the
namespace of an unqualified name is given, or else that of its first child. -/
inductive NamedBy (t : Tree) (e : ElementNode) (own : String) : NameClass → Prop
  | written {w : String} {c : NameClass} (h : attributeValue? e "name" = some w)
      (hname : t.NameStands e w own c) : NamedBy t e own c
  | child {first : ElementNode} {c : NameClass} (h : attributeValue? e "name" = none)
      (hfirst : (t.schemaChildren e).head? = some first) (hclass : t.ClassStands first c) :
      NamedBy t e own c

/-- The namespace that an attribute pattern gives to an unqualified `name` attribute of its own. -/
def ownNs (e : ElementNode) : String :=
  (attributeValue? e "ns").getD ""

/-- Whether an element stands for a class of many names, some of which can be excepted. -/
def IsWildcard (e : ElementNode) : Prop :=
  e.element.localName = "anyName" ∨ e.element.localName = "nsName"

/-- Whether a name class is directly written with another one: a choice with its alternatives, and a
class of many names with those that are excepted. -/
inductive WrittenWith (t : Tree) (c d : ElementNode) : Prop
  | alternative (hlocal : c.element.localName = "choice") (hd : d ∈ t.schemaChildren c)
  | exception {x : ElementNode} (hwild : IsWildcard c) (hx : t.exceptions? c = some x)
      (hd : d ∈ t.schemaChildren x)

/-- Whether a name class and those it is written with have their exceptions in their own namespaces:
no `ns` attribute of an `except` says another one. -/
def ExceptionsHonoured (t : Tree) (c : ElementNode) : Prop :=
  ∀ d, Relation.ReflTransGen t.WrittenWith c d → IsWildcard d →
    ∀ x, t.exceptions? d = some x → t.schemaNs x = t.schemaNs d

/-- Whether none of the `ns` attributes on which the name class of a pattern depends is passed over:
neither in the child that is its name class, if it has no `name` attribute, nor with a `name`
attribute. -/
structure NsHonoured (t : Tree) (e : ElementNode) : Prop where
  exceptions : attributeValue? e "name" = none →
    ∀ c ∈ (t.schemaChildren e).head?, t.ExceptionsHonoured c
  own : e.element.localName = "attribute" → ∀ w, attributeValue? e "name" = some w →
    splitName (trimmed w) = none → ownNs e = ""

lemma ExceptionsHonoured.inside (h : t.ExceptionsHonoured c) (hd : t.WrittenWith c d) :
    t.ExceptionsHonoured d :=
  fun _ hinside => h _ (.head hd hinside)

lemma nameStands_of_resolveName (h : t.resolveName e written own = .ok name) :
    t.NameStands e written own name := by
  rw [resolveName] at h
  split at h
  · rename_i q l hname
    split at h
    · rename_i uri hbound
      cases h
      exact .qualified hname hbound
    · cases h
  · rename_i hname
    cases h
    exact .unqualified hname

/-- A name stands for the same in two namespaces if it is qualified. -/
lemma NameStands.of_own {own' : String} (h : t.NameStands e written own name)
    (hown : splitName (trimmed written) = none → own = own') :
    t.NameStands e written own' name := by
  cases h with
  | qualified hname hbound => exact .qualified hname hbound
  | unqualified hname =>
      rw [hown hname]
      exact .unqualified hname

/-! ## Name classes -/

/-- What is read of the children of an element, if it has no `ns` attribute or is read with it. -/
lemma forall₂_of_readClasses (ht : t.Nests) {read : ElementNode → String → SchemaResult NameClass}
    {ns : String} {class? : Option NameClass} (he : t.element? e.id = some e)
    (hns : t.schemaNs e = ns)
    (h : t.readClasses read e ns = .ok class?) :
    ∃ classes, List.Forall₂ (fun c k => c ∈ t.schemaChildren e ∧ read c (t.schemaNs c) = .ok k)
      (t.schemaChildren e) classes ∧ class? = NameClass.union? classes := by
  rw [readClasses] at h
  obtain ⟨classes, hclasses, h⟩ := ok_of_bind h
  cases h
  refine ⟨classes, (forall₂_of_mapM hclasses).imp fun c k ⟨hc, hk⟩ => ⟨hc, ?_⟩, rfl⟩
  rw [ht.schemaNs_child he hc, hns]
  exact hk

/-- What is read of the exceptions of a class of many names, if they are in its own namespace. -/
lemma exceptions_of_read (ht : t.Nests) {read : ElementNode → String → SchemaResult NameClass}
    {except : NameClass} (hns : ∀ x, t.exceptions? e = some x → t.schemaNs x = t.schemaNs e)
    (h : (match t.exceptions? e with
      | some x => do return (← t.readClasses read x (t.schemaNs e)).getD .nothing
      | none => .ok .nothing : SchemaResult NameClass) = .ok except) :
    (t.exceptions? e = none ∧ except = .nothing) ∨
      ∃ x classes, t.exceptions? e = some x ∧
        List.Forall₂ (fun c k => c ∈ t.schemaChildren x ∧ read c (t.schemaNs c) = .ok k)
          (t.schemaChildren x) classes ∧
        except = (NameClass.union? classes).getD .nothing := by
  cases hx : t.exceptions? e with
  | none =>
      rw [hx] at h
      cases h
      exact .inl ⟨rfl, rfl⟩
  | some x =>
      rw [hx] at h
      obtain ⟨class?, hclass, h⟩ := ok_of_bind h
      cases h
      have hmem : x ∈ t.schemaChildren e := List.mem_of_find?_eq_some hx
      obtain ⟨classes, hall, rfl⟩ := forall₂_of_readClasses ht
        (element?_of_mem_childElements (List.mem_of_mem_filter hmem)) (hns x hx) hclass
      exact .inr ⟨x, classes, rfl, hall, rfl⟩

/-- What is read as a name class is what the element stands for. -/
lemma classStands_of_readNameClass (ht : t.Nests) (he : t.element? e.id = some e)
    (hhonoured : t.ExceptionsHonoured e) (h : t.readNameClass depth e (t.schemaNs e) = .ok name) :
    t.ClassStands e name := by
  induction depth generalizing e name with
  | zero => cases h
  | succ depth ih =>
      have hchildren {x : ElementNode} {classes : List NameClass}
          (hx : ∀ c ∈ t.schemaChildren x, t.WrittenWith e c)
          (hall : List.Forall₂ (fun c k => c ∈ t.schemaChildren x ∧
            t.readNameClass depth c (t.schemaNs c) = .ok k) (t.schemaChildren x) classes) :
          List.Forall₂ (ClassStands t) (t.schemaChildren x) classes :=
        hall.imp fun c k ⟨hc, hk⟩ =>
          ih (element?_of_mem_childElements (List.mem_of_mem_filter hc))
            (hhonoured.inside (hx c hc)) hk
      rw [readNameClass] at h
      split at h
      case h_1 hlocal => exact .name hlocal (nameStands_of_resolveName h)
      case h_2 hlocal =>
        obtain ⟨except, hexcept, h⟩ := ok_of_bind h
        cases h
        have hwild : IsWildcard e := .inl hlocal
        rcases exceptions_of_read ht (hhonoured e .refl hwild) hexcept with
          ⟨hnone, rfl⟩ | ⟨x, classes, hx, hall, rfl⟩
        · exact .anyName hlocal hnone
        · exact .anyNameExcept hlocal hx (hchildren (fun c hc => .exception hwild hx hc) hall)
      case h_3 hlocal =>
        obtain ⟨except, hexcept, h⟩ := ok_of_bind h
        cases h
        have hwild : IsWildcard e := .inr hlocal
        rcases exceptions_of_read ht (hhonoured e .refl hwild) hexcept with
          ⟨hnone, rfl⟩ | ⟨x, classes, hx, hall, rfl⟩
        · exact .nsName hlocal hnone
        · exact .nsNameExcept hlocal hx (hchildren (fun c hc => .exception hwild hx hc) hall)
      case h_4 hlocal =>
        obtain ⟨class?, hread, h⟩ := ok_of_bind h
        obtain ⟨classes, hall, hunion⟩ := forall₂_of_readClasses ht he rfl hread
        split at h
        · cases h
          exact .choice hlocal (hchildren (fun c hc => .alternative hlocal hc) hall) hunion.symm
        · cases h
      case h_5 => cases h

/-- What is read as the name class of a pattern is what the pattern is named by. -/
lemma namedBy_of_readPatternName (ht : t.Nests) (he : t.element? e.id = some e)
    (hhonoured : t.NsHonoured e) {nameless : SchemaError} {rest : List ElementNode}
    (h : t.readPatternName e own (t.schemaNs e) nameless = .ok (name, rest)) :
    t.NamedBy e own name := by
  rw [readPatternName] at h
  split at h
  · rename_i w hw
    obtain ⟨c, hc, h⟩ := ok_of_bind h
    cases h
    exact .written hw (nameStands_of_resolveName hc)
  · rename_i hw
    split at h
    · cases h
    · rename_i first more hchildren
      obtain ⟨c, hc, h⟩ := ok_of_bind h
      cases h
      have hmem : first ∈ t.schemaChildren e := by simp [hchildren]
      rw [← ht.schemaNs_child he hmem] at hc
      have hfirst := element?_of_mem_childElements (List.mem_of_mem_filter hmem)
      have hhead : (t.schemaChildren e).head? = some first := by rw [hchildren, List.head?_cons]
      exact .child hw hhead
        (classStands_of_readNameClass ht hfirst (hhonoured.exceptions hw first hhead) hc)

end Tree

namespace Tree

variable {t : Tree} {e : ElementNode} {p : SourcePattern} {b : SchemaBuilder}

/-! ## The patterns that are compiled -/

section Compiled

variable (hs : t.Shaped) (ht : t.Nests)
include hs ht

/-- An element pattern is read as an element with the name class that the pattern is named by. -/
lemma CompiledFrom.of_element (h : t.CompiledFrom e p b)
    (hlocal : e.element.localName = "element") :
    ∃ name content documentation, p = .element name content documentation ∧
      (t.NsHonoured e → t.NamedBy e (t.schemaNs e) name) := by
  obtain ⟨he, depth, hp⟩ := h.read hs ht
  obtain ⟨below, content, -, -, hstands⟩ := readPattern_cases ht he hp
  cases hstands with
  | @element name rest _ hname =>
      exact ⟨name, content, _, rfl, fun hns => namedBy_of_readPatternName ht he hns hname⟩
  | _ => simp_all

/-- An attribute pattern is read as an attribute with the name class that the pattern is named
by. -/
lemma CompiledFrom.of_attribute (h : t.CompiledFrom e p b)
    (hlocal : e.element.localName = "attribute") :
    ∃ name content documentation default, p = .attribute name content documentation default ∧
      (t.NsHonoured e → t.NamedBy e (ownNs e) name) := by
  obtain ⟨he, depth, hp⟩ := h.read hs ht
  obtain ⟨below, content, -, -, hstands⟩ := readPattern_cases ht he hp
  cases hstands with
  | @attr name rest _ hname =>
      refine ⟨name, content, _, _, rfl, fun hns => ?_⟩
      cases namedBy_of_readPatternName ht he hns hname with
      | written hw hstands =>
          exact .written hw (hstands.of_own fun hplain => (hns.own hlocal _ hw hplain).symm)
      | child hw hfirst hclass => exact .child hw hfirst hclass
  | _ => simp_all

lemma CompiledFrom.localName_of_element {name : NameClass} {content : List SourcePattern}
    {documentation : Option String} (h : t.CompiledFrom e (.element name content documentation) b) :
    e.element.localName = "element" := by
  obtain ⟨he, depth, hp⟩ := h.read hs ht
  obtain ⟨below, content, -, -, hstands⟩ := readPattern_cases ht he hp
  cases hstands
  assumption

lemma CompiledFrom.localName_of_attribute {name : NameClass} {content : List SourcePattern}
    {documentation default : Option String}
    (h : t.CompiledFrom e (.attribute name content documentation default) b) :
    e.element.localName = "attribute" := by
  obtain ⟨he, depth, hp⟩ := h.read hs ht
  obtain ⟨below, content, -, -, hstands⟩ := readPattern_cases ht he hp
  cases hstands
  assumption

end Compiled

end Tree

namespace Schema

variable {s : Schema} {t : Tree} {source : SourceSchema}

/-! ## The names of a compiled schema -/

/-- Whether the element and attribute patterns of a schema are those of a document, with the name
classes that these stand for. -/
structure NamesResolve (s : Schema) (t : Tree) : Prop where
  element : ∀ e id, t.CompiledTo e id → e.element.localName = "element" →
    ∃ name, s.elementName? id = some name ∧ (t.NsHonoured e → t.NamedBy e (t.schemaNs e) name)
  attr : ∀ e id, t.CompiledTo e id → e.element.localName = "attribute" →
    ∃ name, s.attributeName? id = some name ∧ (t.NsHonoured e → t.NamedBy e (Tree.ownNs e) name)
  elementSource : ∀ id name, s.elementName? id = some name →
    ∃ e, t.CompiledTo e id ∧ e.element.localName = "element"
  attrSource : ∀ id name, s.attributeName? id = some name →
    ∃ e, t.CompiledTo e id ∧ e.element.localName = "attribute"

lemma pattern_of_getElem? {id : Nat} {p : Pattern} (h : s.patterns[id]? = some p) :
    s.pattern id = p := by
  rw [pattern, Array.getD_eq_getD_getElem?, h, Option.getD_some]

lemma exists_pattern_of_elementName? {id : Nat} {name : NameClass}
    (h : s.elementName? id = some name) :
    ∃ body documentation, s.patterns[id]? = some (.element name body documentation) := by
  rw [elementName?] at h
  split at h
  · rename_i name body documentation hp
    cases h
    exact ⟨body, documentation, by rw [← hp,
      mem_patterns_of_lt (lt_size_of_pattern hp (by rintro ⟨⟩))]⟩
  · cases h

lemma namesResolve_of_compile (hs : t.Shaped) (ht : t.Nests) (hread : t.readSchema = .ok source)
    (hcompile : source.compile = .ok s) : s.NamesResolve t where
  element := by
    rintro e id ⟨p, b, h, rfl⟩ hlocal
    obtain ⟨name, content, documentation, rfl, hnamed⟩ := h.of_element hs ht hlocal
    obtain ⟨body, hbody⟩ := SchemaBuilder.exists_lower_element name content documentation b
    have hpattern := pattern_of_getElem? ((h.reaches hread hcompile).patterns _ _ hbody)
    exact ⟨name, by rw [elementName?, hpattern], hnamed⟩
  attr := by
    rintro e id ⟨p, b, h, rfl⟩ hlocal
    obtain ⟨name, content, documentation, default, rfl, hnamed⟩ := h.of_attribute hs ht hlocal
    obtain ⟨body, hbody⟩ := SchemaBuilder.exists_lower_attribute name content
      documentation default b
    have hpattern := pattern_of_getElem? ((h.reaches hread hcompile).patterns _ _ hbody)
    exact ⟨name, by rw [attributeName?, hpattern], hnamed⟩
  elementSource := by
    intro id name hname
    obtain ⟨body, documentation, hid⟩ := exists_pattern_of_elementName? hname
    obtain ⟨e, q, b, hfrom, hputs⟩ := Tree.exists_compiledFrom hs ht hread hcompile rfl hid
    rcases hputs.pattern_eq with ⟨_, _, _, _, rfl, -⟩ | ⟨_, _, _, _, _, -, hn⟩
    · exact ⟨e, ⟨_, b, hfrom, hputs.number⟩, hfrom.localName_of_element hs ht⟩
    · cases hn
  attrSource := by
    intro id name hname
    obtain ⟨value, documentation, default, hp⟩ := exists_pattern_of_attributeName? hname
    have hid := mem_patterns_of_lt (lt_size_of_pattern hp (by rintro ⟨⟩))
    obtain ⟨e, q, b, hfrom, hputs⟩ :=
      Tree.exists_compiledFrom hs ht hread hcompile (by rw [hp]; rfl) hid
    rcases hputs.pattern_eq with ⟨_, _, _, _, -, hn⟩ | ⟨_, _, _, _, _, rfl, -⟩
    · cases hp.symm.trans hn
    · exact ⟨e, ⟨_, b, hfrom, hputs.number⟩, hfrom.localName_of_attribute hs ht⟩

/-- **Names resolve where they are written.**  The element and attribute patterns of a compiled
schema come from the elements of its document, and if none of the `ns` attributes that a name class
depends on is passed over, the name class is what the element is named by. -/
theorem compile_resolves_names {text : List Char} {s : Schema} (h : Schema.compile text = .ok s) :
    s.NamesResolve (Tree.parse text) := by
  obtain ⟨source, hread, hcompile⟩ := ok_of_bind h
  exact namesResolve_of_compile (Tree.parse_shaped text) (Tree.parse_nests text) hread hcompile

/-! ## Namespaces that are handed on and passed over -/

/-- An attribute and an element in a group with a namespace. -/
def handedContent : String :=
  "<group ns='u'><attribute name='x'/><element name='a'/></group>"

def handedSource : SourcePattern :=
  .element (.name "" "r")
    [.group [.attribute (.name "" "x") [] none none, .element (.name "u" "a") [] none]] none

def handed : Schema :=
  ⟨#[.text, .attribute (.name "" "x") 0 none none, .empty, .element (.name "u" "a") 2 none,
    .group [1, 3], .element (.name "" "r") 4 none], #[], 5⟩

def handedWritten : WrittenContents :=
  .element (quotedTag "group" [("ns", "u")])
    (.emptied (quotedTag "attribute" [("name", "x")]) <|
      .emptied (quotedTag "element" [("name", "a")]) .nil) [] .nil

lemma parse_handed :
    Tree.parse (contentDocument handedContent) = (writtenContent handedWritten).tree :=
  parse_contentDocument (by decide +kernel) (by decide +kernel)

lemma readSchema_handed :
    (Tree.parse (contentDocument handedContent)).readSchema = .ok (.pattern handedSource) := by
  rw [parse_handed]
  rfl

lemma compile_handedSource : (SourceSchema.pattern handedSource).compile = .ok handed := by
  simp [handedSource, SourceSchema.compile, SchemaBuilder.lower, SchemaBuilder.lowerAll,
    SchemaBuilder.lowerBody, SchemaBuilder.empty, SchemaBuilder.push, SchemaBuilder.group,
    SchemaBuilder.finish, handed]

/-- The namespace of a group is handed on to an element in it, and not to an attribute. -/
theorem compile_resolves_names_handed :
    let t := Tree.parse (contentDocument handedContent)
    ∃ s, Schema.compile (contentDocument handedContent) = .ok s ∧ s.NamesResolve t ∧
      (∃ e id, t.CompiledTo e id ∧ t.NsHonoured e ∧ t.NamedBy e (t.schemaNs e) (.name "u" "a")) ∧
      ∃ e id, t.CompiledTo e id ∧ t.NsHonoured e ∧ t.NamedBy e (Tree.ownNs e) (.name "" "x") := by
  intro t
  have hcompile := compile_of_readSchema readSchema_handed compile_handedSource
  have hresolve : handed.NamesResolve t := compile_resolves_names hcompile
  have hnamed : ∀ e ∈ t.elements, e.element.localName = "element" ∨
      e.element.localName = "attribute" →
      (Tree.attributeValue? e "name").isSome ∧ Tree.ownNs e = "" := by
    have hparse : t = (writtenContent handedWritten).tree := parse_handed
    rw [hparse]
    decide +kernel
  have hhonoured {e : ElementNode} (he : e ∈ t.elements)
      (hlocal : e.element.localName = "element" ∨ e.element.localName = "attribute") :
      t.NsHonoured e := by
    obtain ⟨hname, hown⟩ := hnamed e he hlocal
    refine ⟨fun hnone => ?_, fun _ _ _ _ => hown⟩
    rw [hnone] at hname
    cases hname
  have hpresent {e : ElementNode} {id : Nat} (h : t.CompiledTo e id) : e ∈ t.elements := by
    obtain ⟨p, b, hfrom, -⟩ := h
    exact Tree.mem_elements.mpr (hfrom.read (Tree.parse_shaped _) (Tree.parse_nests _)).1
  refine ⟨_, hcompile, hresolve, ?_, ?_⟩
  · obtain ⟨e, he, hlocal⟩ := hresolve.elementSource 3 (.name "u" "a") rfl
    obtain ⟨name, hname, hnamed⟩ := hresolve.element e 3 he hlocal
    cases hname
    have hns := hhonoured (hpresent he) (.inl hlocal)
    exact ⟨e, 3, he, hns, hnamed hns⟩
  · obtain ⟨e, he, hlocal⟩ := hresolve.attrSource 1 (.name "" "x") rfl
    obtain ⟨name, hname, hnamed⟩ := hresolve.attr e 1 he hlocal
    cases hname
    have hns := hhonoured (hpresent he) (.inr hlocal)
    exact ⟨e, 1, he, hns, hnamed hns⟩

/-- An attribute with a namespace of its own. -/
def passedOverContent : String :=
  "<attribute name='x' ns='u'/>"

def passedOverWritten : WrittenContents :=
  .emptied (quotedTag "attribute" [("name", "x"), ("ns", "u")]) .nil

def passedOverSource : SourcePattern :=
  .element (.name "" "r") [.attribute (.name "" "x") [] none none] none

def passedOver : Schema :=
  ⟨#[.text, .attribute (.name "" "x") 0 none none, .element (.name "" "r") 1 none], #[], 2⟩

lemma parse_passedOver :
    Tree.parse (contentDocument passedOverContent) = (writtenContent passedOverWritten).tree :=
  parse_contentDocument (by decide +kernel) (by decide +kernel)

lemma readSchema_passedOver :
    (Tree.parse (contentDocument passedOverContent)).readSchema =
    .ok (.pattern passedOverSource) := by
  rw [parse_passedOver]
  rfl

lemma compile_passedOverSource :
    (SourceSchema.pattern passedOverSource).compile = .ok passedOver := by
  simp [passedOverSource, SourceSchema.compile, SchemaBuilder.lower, SchemaBuilder.lowerAll,
    SchemaBuilder.lowerBody, SchemaBuilder.empty, SchemaBuilder.push, SchemaBuilder.group,
    SchemaBuilder.finish, passedOver]

/-- **The namespace of an attribute pattern is passed over**: its name is in none. -/
theorem own_ns_passed_over :
    let t := Tree.parse (contentDocument passedOverContent)
    ∃ s, Schema.compile (contentDocument passedOverContent) = .ok s ∧
      ∃ e id name, t.CompiledTo e id ∧ e.element.localName = "attribute" ∧
        s.attributeName? id = some name ∧ ¬ t.NamedBy e (Tree.ownNs e) name := by
  intro t
  have hcompile := compile_passedOverSource
  have hs := Tree.parse_shaped (contentDocument passedOverContent)
  have ht := Tree.parse_nests (contentDocument passedOverContent)
  have hresolve := namesResolve_of_compile hs ht readSchema_passedOver hcompile
  obtain ⟨e, he, hlocal⟩ := hresolve.attrSource 1 (.name "" "x") rfl
  refine ⟨_, compile_of_readSchema readSchema_passedOver hcompile, e, 1, _, he, hlocal, rfl,
    fun h => ?_⟩
  obtain ⟨p, b, hfrom, -⟩ := he
  have hmem := Tree.mem_elements.mpr (hfrom.read hs ht).1
  have hown : ∀ e ∈ t.elements, e.element.localName = "attribute" →
      Tree.ownNs e = "u" ∧ Tree.attributeValue? e "name" = some "x" := by
    have hparse : t = (writtenContent passedOverWritten).tree := parse_passedOver
    rw [hparse]
    decide +kernel
  obtain ⟨hns, hname⟩ := hown e hmem hlocal
  rw [hns] at h
  cases h with
  | written hw hstands =>
      rw [hname] at hw
      cases hw
      -- the class is given, so its parts are compared after the case split
      generalize hn : NameClass.name "" "x" = n at hstands
      cases hstands with
      | qualified hsplit _ =>
          have hplain : splitName (trimmed "x") = none := by decide +kernel
          cases hplain.symm.trans hsplit
      | unqualified _ => exact absurd (NameClass.name.inj hn).1 (by decide)
  | child hw _ _ =>
      rw [hname] at hw
      cases hw

end Schema

end XmlAdvisor
