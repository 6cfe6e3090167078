import XmlAdvisor.Proofs.ContentInsertion
import XmlAdvisor.Proofs.OutlineTrees

/-!
# Elements that are generated

What is generated for a declaration is text that is put into a document, so it has to be read as the
element that the declaration asks for.

* `Grammar.Proposes` — the declarations for which text is generated.
* `Tree.Realizes` — an element of a tree is what a declaration asks for, down to a number of levels.
* `canBePasted` — whether the defaults of attributes can stand in a tag as they are, each name once.
* **`Grammar.realizes_insertion`** — the text is read without a fault as one element that is what
  the declaration asks for.
-/

namespace XmlAdvisor

/-! ## Declarations that text is generated for -/

/-- The declarations for which text is generated: those of document elements and of children, which
completion offers, and alternatives in incomplete content, which actions insert. -/
inductive Grammar.Proposes (g : Grammar) : Declaration → Prop
  | topLevel {d : Declaration} (h : d ∈ g.topLevel) : g.Proposes d
  | child {t : Tree} {e : ElementNode} {decl d : Declaration}
      (hdecl : g.declarationOf? t e = some decl)
      (h : d ∈ decl.children) : g.Proposes d
  | alternative {t : Tree} {e : ElementNode} {d : Declaration} (h : d ∈ g.alternativesIn t e) :
      g.Proposes d

/-- The declarations of a grammar. -/
inductive Grammar.Declares : Grammar → Declaration → Prop
  | pattern (uri : Url) (s : Schema) (id : Nat) : Declares (.relaxNg uri s) (.pattern s id)
  | dtd (uri : Url) (root : Option String) {dtd : Dtd} {e : DtdElement} (h : e ∈ dtd.elements) :
    Declares (.dtd uri dtd root) (.dtd dtd e)

/-- Whether a declaration is for elements of one name. -/
def Declaration.isNamed : Declaration → Bool
  | .pattern s id => ((s.elementName? id).bind NameClass.simple?).isSome
  | .dtd _ _ => true

namespace Grammar

variable {g : Grammar} {d d' : Declaration}

lemma declares_named {uri : Url} {dtd : Dtd} {root : Option String} {name : String}
    (h : d ∈ (dtd.element? name).map (.dtd dtd)) : (Grammar.dtd uri dtd root).Declares d := by
  obtain ⟨e, he, rfl⟩ := Option.map_eq_some_iff.mp h
  exact .dtd uri root (List.mem_of_find?_eq_some he)

lemma declares_topLevel (h : d ∈ g.topLevel) : g.Declares d := by
  cases g with
  | relaxNg uri s =>
      obtain ⟨id, -, rfl⟩ := List.mem_map.mp h
      exact .pattern uri s id
  | dtd uri dtd root =>
      cases root with
      | none =>
          obtain ⟨e, he, rfl⟩ := List.mem_map.mp h
          exact .dtd uri none he
      | some name => exact declares_named (Option.mem_toList.mp h)

lemma declares_declarationOf? {t : Tree} {e : ElementNode} (h : g.declarationOf? t e = some d) :
    g.Declares d := by
  cases g with
  | relaxNg uri s =>
      obtain ⟨id, content, rfl, -⟩ := exists_pattern_of_declarationOf? h
      exact .pattern uri s id
  | dtd uri dtd root => exact declares_named h

lemma Declares.children (h : g.Declares d) (hd' : d' ∈ d.children) : g.Declares d' := by
  cases h with
  | pattern uri s id =>
      rw [Declaration.children] at hd'
      split at hd'
      · obtain ⟨id', -, rfl⟩ := List.mem_map.mp hd'
        exact .pattern uri s id'
      · cases hd'
  | dtd uri root h =>
      obtain ⟨name, -, hname⟩ := List.mem_filterMap.mp hd'
      exact declares_named hname

lemma Declares.alternatives (h : g.Declares d) {children : List ElementNode}
    (hd' : d' ∈ d.alternatives children) : g.Declares d' := by
  cases h with
  | pattern uri s id =>
      obtain ⟨id', -, rfl⟩ := List.mem_map.mp hd'
      exact .pattern uri s id'
  | dtd uri root h => cases hd'

/-- A child that is required is one of the grammar, and has one name. -/
lemma Declares.requiredChildren (h : g.Declares d) (hd' : d' ∈ d.requiredChildren) :
    g.Declares d' ∧ d'.isNamed = true := by
  cases h with
  | pattern uri s id =>
      rw [Declaration.requiredChildren] at hd'
      split at hd'
      · obtain ⟨id', hid', rfl⟩ := List.mem_map.mp hd'
        exact ⟨.pattern uri s id', (List.mem_filter.mp hid').2⟩
      · cases hd'
  | dtd uri root h =>
      obtain ⟨name, -, hname⟩ := List.mem_filterMap.mp hd'
      refine ⟨declares_named hname, ?_⟩
      obtain ⟨e, -, rfl⟩ := Option.map_eq_some_iff.mp hname
      rfl

lemma Proposes.declares (h : g.Proposes d) : g.Declares d := by
  cases h with
  | topLevel h => exact declares_topLevel h
  | child hdecl h => exact (declares_declarationOf? hdecl).children h
  | alternative h =>
      rw [alternativesIn] at h
      split at h
      · rename_i decl hdecl
        exact (declares_declarationOf? hdecl).alternatives h
      · cases h

/-- The items for elements are those of declarations that are proposed. -/
lemma exists_proposed_of_mem_completionsAt {t : Tree} {form : CompletionForm}
    {site : CompletionSite}
    {item : CompletionItem} (h : item ∈ g.completionsAt t form site)
      (hkind : item.kind = .element) :
    ∃ d, g.Proposes d ∧ item = d.completion form := by
  cases site with
  | topLevel =>
      obtain ⟨d, hd, rfl⟩ := List.mem_map.mp h
      exact ⟨d, .topLevel hd, rfl⟩
  | content e =>
      rw [completionsAt] at h
      split at h
      · rename_i decl hdecl
        obtain ⟨d, hd, rfl⟩ := List.mem_map.mp h
        exact ⟨d, .child hdecl hd, rfl⟩
      · cases h
  | startTag e =>
      rw [completionsAt] at h
      split at h
      · obtain ⟨a, -, rfl⟩ := List.mem_map.mp h
        cases hkind
      · cases h
  | attributeValue e name =>
      rw [completionsAt] at h
      split at h
      · obtain ⟨value, -, rfl⟩ := List.mem_map.mp h
        cases hkind
      · cases h

end Grammar

/-! ## Names -/

/-- Whether each class of names that is one name is a name that may have a qualifier. -/
def Schema.namesAreQualified (s : Schema) : Bool :=
  s.patterns.all fun
    | .element name _ _ | .attribute name _ _ _ => name.simple?.all fun n => isQualifiedName n.2
    | _ => true

def Dtd.namesAreQualified (d : Dtd) : Bool :=
  d.elements.all fun e => isQualifiedName e.name && e.attributes.all fun a => isQualifiedName a.name

/-- Whether the names that a grammar tells are names that may have qualifiers. -/
def Grammar.namesAreQualified : Grammar → Bool
  | .relaxNg _ s => s.namesAreQualified
  | .dtd _ d _ => d.namesAreQualified

namespace Schema

variable {s : Schema} {id : Nat} {ns localName : String}

lemma pattern_mem (h : s.pattern id ≠ .notAllowed) : s.pattern id ∈ s.patterns := by
  rw [pattern, Array.getD_eq_getD_getElem?] at h ⊢
  cases hp : s.patterns[id]? with
  | none =>
      rw [hp] at h
      exact absurd rfl h
  | some p => exact Array.mem_of_getElem? hp

lemma isQualifiedName_element (h : s.namesAreQualified = true)
    (hname : (s.elementName? id).bind NameClass.simple? = some (ns, localName)) :
    isQualifiedName localName = true := by
  rw [elementName?] at hname
  split at hname
  · rename_i name content documentation hp
    have hall := Array.all_eq_true_iff_forall_mem.mp h _ (pattern_mem (by rw [hp]; simp))
    rw [hp] at hall
    dsimp only at hall
    rw [Option.bind_some] at hname
    rwa [hname] at hall
  · cases hname

lemma isQualifiedName_attribute (h : s.namesAreQualified = true) {content : Nat}
    {a : AttributeDeclaration}
    (ha : a ∈ s.attributeDeclarations content) : isQualifiedName a.name = true := by
  obtain ⟨⟨id, required⟩, -, hdecl⟩ := List.mem_filterMap.mp ha
  dsimp only at hdecl
  split at hdecl
  · rename_i name value documentation default hp
    obtain ⟨⟨ns, localName⟩, hname, rfl⟩ := Option.map_eq_some_iff.mp hdecl
    have hall := Array.all_eq_true_iff_forall_mem.mp h _ (pattern_mem (by rw [hp]; simp))
    rw [hp] at hall
    dsimp only at hall
    rwa [hname] at hall
  · cases hdecl

end Schema

namespace Grammar

variable {g : Grammar} {d d' : Declaration}

lemma Declares.isQualifiedName_localName (h : g.Declares d) (hnames : g.namesAreQualified = true)
    (hnamed : d.isNamed = true) : isQualifiedName d.localName = true := by
  cases h with
  | pattern uri s id =>
      obtain ⟨⟨ns, localName⟩, hname⟩ := Option.isSome_iff_exists.mp hnamed
      obtain ⟨c, hc, hsimple⟩ := Option.bind_eq_some_iff.mp hname
      rw [Declaration.localName, hc, Option.map_some, Option.getD_some, NameClass.label, hsimple]
      exact Schema.isQualifiedName_element hnames hname
  | dtd uri root h =>
      have hall := List.all_eq_true.mp hnames _ h
      rw [Bool.and_eq_true] at hall
      exact hall.1

lemma Declares.isQualifiedName_attribute (h : g.Declares d) (hnames : g.namesAreQualified = true)
    {a : AttributeDeclaration} (ha : a ∈ d.attributes) : isQualifiedName a.name = true := by
  cases h with
  | pattern uri s id =>
      rw [Declaration.attributes] at ha
      split at ha
      · exact Schema.isQualifiedName_attribute hnames ha
      · cases ha
  | dtd uri root h =>
      obtain ⟨a, hmem, rfl⟩ := List.mem_map.mp ha
      have hall := List.all_eq_true.mp hnames _ h
      rw [Bool.and_eq_true] at hall
      exact List.all_eq_true.mp hall.2 a hmem

end Grammar

/-! ## Outlines -/

/-- References that lead to the empty pattern lead to no element. -/
lemma Schema.not_leads_of_resolveWithin {s : Schema} {hops id last p : Nat}
    (h : s.resolveWithin hops id = some last) (hlast : s.pattern last = .empty)
    (hp : s.isElement p = true) : ¬ s.Leads false id p := by
  have hend : ¬ s.Leads false last p := by
    intro hleads
    rcases Relation.ReflTransGen.cases_head hleads with rfl | ⟨c, hc, -⟩
    · rw [isElement, hlast] at hp
      cases hp
    · rw [parts, hlast] at hc
      cases hc
  induction hops generalizing id with
  | zero =>
      rw [resolveWithin] at h
      split at h <;> cases h
      exact hend
  | succ hops ih =>
      rw [resolveWithin] at h
      split at h
      · rename_i d hd
        split at h
        · rename_i hops' body hhops hbody
          cases hhops
          intro hleads
          rcases Relation.ReflTransGen.cases_head hleads with rfl | ⟨c, hc, hmore⟩
          · rw [isElement, hd] at hp
            cases hp
          · rw [parts, hd] at hc
            dsimp only at hc
            rw [hbody] at hc
            obtain rfl := List.mem_singleton.mp hc
            exact ih h hmore
        · cases h
      · cases h
        exact hend

/-- Where nothing may stand inside an element, no children are required. -/
lemma Declaration.requiredChildren_of_isEmptyContent {d : Declaration}
    (h : d.isEmptyContent = true) :
    d.requiredChildren = [] := by
  cases d with
  | pattern s id =>
      rw [isEmptyContent] at h
      split at h
      · rename_i empty hempty
        obtain ⟨content, hcontent, hresolve⟩ := Option.bind_eq_some_iff.mp hempty
        have hnone : s.requiredElementPatterns content = [] := by
          refine List.eq_nil_iff_forall_not_mem.mpr fun p hp => ?_
          obtain ⟨hleads, helement⟩ := Schema.mem_walkElements_found_iff.mp hp
          exact Schema.not_leads_of_resolveWithin hresolve (eq_of_beq h) helement hleads
        rw [requiredChildren, hcontent]
        dsimp only
        rw [hnone]
        rfl
      · cases h
  | dtd dtd e =>
      rw [isEmptyContent] at h
      split at h
      · rename_i hempty
        rw [requiredChildren, DtdElement.mandatoryNames, hempty]
        rfl
      · cases h

lemma Declaration.outlineWithin_succ (levels : Nat) (d : Declaration) :
    d.outlineWithin (levels + 1) =
    .element d.localName d.requiredAttributes (d.requiredChildren.map (outlineWithin levels)) := by
  rw [outlineWithin]
  split_ifs with h
  · rw [requiredChildren_of_isEmptyContent h]
  · rfl

/-- Whether the defaults of attributes can stand in a tag as they are, each name once. -/
def canBePasted (_ : String) (attributes : List (String × String)) : Bool :=
  attributes.all (fun a => canBeQuoted a.2.toList) && decide (attributes.map Prod.fst).Nodup

lemma Outline.allEverywhere_iff {ok : String → List (String × String) → Bool} {os : List Outline} :
    Outline.allEverywhere ok os = true ↔ ∀ o ∈ os, o.everywhere ok = true := by
  induction os with
  | nil => simp [allEverywhere]
  | cons o os ih => rw [allEverywhere, Bool.and_eq_true, ih, List.forall_mem_cons]

lemma Grammar.Declares.isQualifiedTag {g : Grammar} {d : Declaration} (h : g.Declares d)
    (hnames : g.namesAreQualified = true) (hnamed : d.isNamed = true)
    (hpasted : canBePasted d.localName d.requiredAttributes = true) :
    XmlAdvisor.isQualifiedTag d.localName d.requiredAttributes = true := by
  rw [canBePasted, Bool.and_eq_true, List.all_eq_true] at hpasted
  have hattributes : d.requiredAttributes.all
      (fun a => isQualifiedName a.1 && canBeQuoted a.2.toList) = true := by
    refine List.all_eq_true.mpr fun a ha => ?_
    obtain ⟨b, hb, rfl⟩ := List.mem_map.mp ha
    rw [h.isQualifiedName_attribute hnames (List.mem_of_mem_filter hb), Bool.true_and]
    exact hpasted.1 _ ha
  rw [XmlAdvisor.isQualifiedTag, h.isQualifiedName_localName hnames hnamed, hattributes, hpasted.2]
  rfl

/-- An outline can be written if what is pasted into it can. -/
lemma Grammar.Declares.everywhere_outline {g : Grammar} (hnames : g.namesAreQualified = true)
    {levels : Nat}
    {d : Declaration} (h : g.Declares d) (hnamed : d.isNamed = true)
    (hpasted : (d.outlineWithin levels).everywhere canBePasted = true) :
    (d.outlineWithin levels).everywhere XmlAdvisor.isQualifiedTag = true := by
  induction levels generalizing d with
  | zero =>
      rw [Declaration.outlineWithin, Outline.everywhere, Bool.and_eq_true] at hpasted ⊢
      exact ⟨h.isQualifiedTag hnames hnamed hpasted.1, rfl⟩
  | succ levels ih =>
      rw [Declaration.outlineWithin_succ, Outline.everywhere, Bool.and_eq_true,
        Outline.allEverywhere_iff, List.forall_mem_map] at hpasted ⊢
      refine ⟨h.isQualifiedTag hnames hnamed hpasted.1, fun d' hd' => ?_⟩
      obtain ⟨hdeclares, hone⟩ := h.requiredChildren hd'
      exact ih hdeclares hone (hpasted.2 d' hd')

/-! ## What is asked for -/

/-- Whether the tag of an element is what a declaration asks for: its name, and the attributes that
are required with their defaults. -/
structure Declaration.Heads (d : Declaration) (e : ElementNode) : Prop where
  name : e.element.tagName = d.localName
  attributes : e.element.attributes.map Attribute.said = d.requiredAttributes

/-- Whether an element is what a declaration asks for, and the elements inside it are what the
children ask for that are required, down to a number of levels. -/
def Tree.Realizes (t : Tree) : (levels : Nat) → Declaration → ElementNode → Prop
  | 0, d, e => d.Heads e ∧ t.childElements e = []
  | levels + 1, d, e =>
    d.Heads e ∧ List.Forall₂ (t.Realizes levels) d.requiredChildren (t.childElements e)

/-- An element that mirrors the outline of a declaration is what the declaration asks for. -/
lemma Tree.Mirrors.realizes {t : Tree} {levels : Nat} {d : Declaration} {e : ElementNode}
    (h : t.Mirrors (d.outlineWithin levels) e) : t.Realizes levels d e := by
  induction levels generalizing d e with
  | zero =>
      obtain ⟨hname, hattributes, hchildren⟩ := h
      exact ⟨⟨hname, hattributes⟩, hchildren⟩
  | succ levels ih =>
      rw [Declaration.outlineWithin_succ] at h
      obtain ⟨hname, hattributes, hchildren⟩ := h
      rw [mirrorAll_iff, List.forall₂_map_left_iff] at hchildren
      exact ⟨⟨hname, hattributes⟩, hchildren.imp fun _ _ => ih⟩

/-- **What is generated for a declaration is read as the element that it asks for**, and nothing
else is at the top: for each declaration of a name that completion or an action puts into a
document, if the defaults of its attributes can stand in a tag as they are. -/
theorem Grammar.realizes_insertion (g : Grammar) (hnames : g.namesAreQualified = true)
    (decl : Declaration)
    (hdecl : g.Proposes decl) (hnamed : decl.isNamed = true)
    (hpasted : decl.outline.everywhere canBePasted = true) (l : Layout) (hl : l.IsBlank)
      (level : Nat)
    (url : Url) (version : Int) (unit : ColumnUnit) (d : Document)
    (hd : d = Document.parse url version unit (decl.insertion l {} level none false).toList) :
    d.fault = none ∧ ∃ e, d.topLevel = [e.id] ∧ d.root? = some e ∧
      d.Realizes outlineLevels decl e := by
  have htree : d.toTree = Tree.parse (plainText (decl.outline.pieces l {} level none)).toList := by
    rw [hd]
    rfl
  obtain ⟨hfault, e, htop, hroot, hmirrors⟩ := Outline.mirrors_parse hl level
    (hdecl.declares.everywhere_outline hnames hnamed hpasted) htree
  exact ⟨hfault, e, htop, hroot, hmirrors.realizes⟩

/-! ## Elements with a default -/

/-- Elements `card` with an attribute that has a default and two children, of which one may have any
name. -/
def Schema.cards (default : String) : Schema where
  patterns := #[.element (.name "" "card") 1 none, .group [2, 3, 4],
    .attribute (.name "" "kind") 5 none (some default), .element (.name "" "to") 5 none,
    .element (.anyName .nothing) 5 none, .text]
  definitions := #[]
  start := 0

/-- The grammar of `Schema.cards`. -/
def cardGrammar (default : String) : Grammar :=
  .relaxNg (Grammar.fileAtTop "a.rng") (.cards default)

/-- The declaration of `card`. -/
def cardDeclaration (default : String) : Declaration :=
  .pattern (.cards default) 0

lemma proposes_card (default : String) : (cardGrammar default).Proposes (cardDeclaration default) :=
  .topLevel (List.mem_map_of_mem (List.mem_singleton_self 0))

/-- What is generated for a declaration, as a document. -/
def generatedDocument (decl : Declaration) : Document :=
  .parse (Grammar.fileAtTop "a.xml") 1 .utf16 (decl.insertion {} {} 0 none false).toList

theorem realizes_insertion_card :
    (cardGrammar "it's").namesAreQualified = true ∧
    (cardGrammar "it's").Proposes (cardDeclaration "it's") ∧
      (cardDeclaration "it's").isNamed = true ∧
    (cardDeclaration "it's").outline.everywhere canBePasted = true ∧ Layout.IsBlank {} ∧
    (cardDeclaration "it's").insertion {} {} 0 none false =
      "<card kind=\"it's\">\n  <to></to>\n</card>" ∧
    (generatedDocument (cardDeclaration "it's")).fault = none ∧
    ∃ e, (generatedDocument (cardDeclaration "it's")).topLevel = [e.id] ∧
      (generatedDocument (cardDeclaration "it's")).root? = some e ∧
      (generatedDocument (cardDeclaration "it's")).Realizes outlineLevels
        (cardDeclaration "it's") e := by
  have hnames : (cardGrammar "it's").namesAreQualified = true := by decide +kernel
  have hpasted : (cardDeclaration "it's").outline.everywhere canBePasted = true := by decide +kernel
  have hblank : Layout.IsBlank {} := Layout.isBlank_of_newline rfl
  exact ⟨hnames, proposes_card _, rfl, hpasted, hblank, by decide +kernel,
    (cardGrammar "it's").realizes_insertion hnames (cardDeclaration "it's")
    (proposes_card _) rfl hpasted {}
      hblank 0 _ _ _ _ rfl⟩

/-- A default with a quotation mark ends the value too early. -/
theorem faulty_insertion_quoted :
    (cardGrammar "a\"b").namesAreQualified = true ∧
    (cardGrammar "a\"b").Proposes (cardDeclaration "a\"b") ∧
      (cardDeclaration "a\"b").isNamed = true ∧
    (cardDeclaration "a\"b").insertion {} {} 0 none false =
      "<card kind=\"a\"b\">\n  <to></to>\n</card>" ∧
    (generatedDocument (cardDeclaration "a\"b")).fault ≠ none := by
  refine ⟨by decide +kernel, proposes_card _, rfl, by decide +kernel, ?_⟩
  have hfault : (generatedDocument (cardDeclaration "a\"b")).fault.isSome =
      true := by decide +kernel
  intro hnone
  rw [hnone] at hfault
  cases hfault

end XmlAdvisor
