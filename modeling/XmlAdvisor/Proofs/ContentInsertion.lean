import XmlAdvisor.Proofs.ChildDeclarations
import XmlAdvisor.Proofs.ContentEdits
import XmlAdvisor.Proofs.ReplacedContent
import XmlAdvisor.Proofs.WrittenOutlines

/-!
# What an inserted element leaves

The edit of an action for a missing element puts what is generated for the alternative in place of
all content of the element.  What is generated is one element with the local name of the
alternative; neither its namespace nor what it was to follow has a part in it.

* `Document.Refills` — an element is what it was, with one child of a name;
  **`Document.exists_refills`**.
* `Grammar.describes_iff_of_mem_alternativesIn` — when the child is one that was meant.
* `Schema.unexpected_singleton_iff` — when the child is expected.
* **`resolveAction_refills`** — what every edit of an action for a missing element leaves.
-/

namespace XmlAdvisor

open Grammar

/-! ## Declarations of unchanged elements -/

/-- The name and the namespace of an element. -/
def ElementNode.heading (e : ElementNode) : Heading :=
  Heading.of e.parent e.span.start e.element

section Headings

variable {e e' : ElementNode}

lemma ElementNode.heading_of_front (h : e'.front = e.front) : e'.heading = e.heading :=
  congrArg (fun front : Front => Heading.of front.parent front.start front.element) h

lemma ElementNode.headings_of_fronts {es es' : List ElementNode}
    (h : es'.map ElementNode.front = es.map ElementNode.front) :
    es'.map ElementNode.heading = es.map ElementNode.heading := by
  have hmap := congrArg
    (List.map fun front : Front => Heading.of front.parent front.start front.element) h
  rwa [List.map_map, List.map_map] at hmap

lemma Declaration.describes_of_heading (h : e'.heading = e.heading) (decl : Declaration) :
    decl.describes e' = decl.describes e := by
  have hlocal : e'.element.localName = e.element.localName := congrArg (·.name.localName) h
  have htag : e'.element.tagName = e.element.tagName := congrArg (·.name.text) h
  have huri : e'.element.namespaceUri = e.element.namespaceUri := congrArg (·.namespaceUri) h
  cases decl with
  | pattern s id => rw [describes, describes, hlocal, huri]
  | dtd d p => rw [describes, describes, htag]

lemma Declaration.child?_of_heading (h : e'.heading = e.heading) (decl : Declaration) :
    decl.child? e' = decl.child? e := by
  have htag : e'.element.tagName = e.element.tagName := congrArg (·.name.text) h
  cases decl with
  | pattern s id => simp only [child?, describes_of_heading h]
  | dtd d p => rw [child?, child?, htag]

/-- The declaration at the end of a path depends on the names and namespaces of its elements. -/
lemma Grammar.declarationAlong?_of_headings (g : Grammar) {es es' : List ElementNode}
    (h : es'.map ElementNode.heading = es.map ElementNode.heading) :
    g.declarationAlong? es' = g.declarationAlong? es := by
  have hfold (decl : Declaration) {es es' : List ElementNode}
      (h : es'.map ElementNode.heading = es.map ElementNode.heading) :
      es'.foldlM Declaration.child? decl = es.foldlM Declaration.child? decl := by
    induction es generalizing es' decl with
    | nil => rw [List.map_eq_nil_iff.mp h]
    | cons e es ih =>
        obtain ⟨e', more, rfl, hfirst, hmore⟩ := List.map_eq_cons_iff.mp h
        rw [List.foldlM_cons, List.foldlM_cons, decl.child?_of_heading hfirst]
        exact congrArg _ (funext fun next => ih next hmore)
  cases es with
  | nil => rw [List.map_eq_nil_iff.mp h]
  | cons e es =>
      obtain ⟨e', more, rfl, hfirst, hmore⟩ := List.map_eq_cons_iff.mp h
      rw [declarationAlong?, declarationAlong?]
      simp only [Declaration.describes_of_heading hfirst, hfold _ hmore]

/-- An element that is called what it was, as are those around it, is declared as it was. -/
lemma Grammar.declarationOf?_of_headings (g : Grammar) {t t' : Tree} (h : e'.heading = e.heading)
    (houtwards : (t'.elementsOutwards e'.id).map ElementNode.heading =
      (t.elementsOutwards e.id).map ElementNode.heading) :
    g.declarationOf? t' e' = g.declarationOf? t e := by
  have htag : e'.element.tagName = e.element.tagName := congrArg (·.name.text) h
  cases g with
  | relaxNg uri s =>
      have hpath : (t'.pathFromRoot e').map ElementNode.heading =
          (t.pathFromRoot e).map ElementNode.heading := by
        rw [Tree.pathFromRoot, Tree.pathFromRoot, List.map_reverse, List.map_reverse, houtwards]
      exact declarationAlong?_of_headings _ hpath
  | dtd uri definition root => rw [declarationOf?, declarationOf?, htag]

/-- An element that is what it was but for what is inside is declared as it was. -/
lemma Tree.Refilled.declarationOf?_eq {t t' : Tree} {child : ElementNode}
    (h : t.Refilled t' e e' child)
    (g : Grammar) : g.declarationOf? t' e' = g.declarationOf? t e :=
  g.declarationOf?_of_headings (ElementNode.heading_of_front h.front)
    (ElementNode.headings_of_fronts h.outwards)

end Headings

/-! ## Alternatives and their names -/

namespace Grammar

variable {t : Tree} {e child : ElementNode} {alt : Declaration}

/-- In a schema elements are declared by element patterns. -/
lemma exists_pattern_of_declarationOf? {uri : Url} {s : Schema} {decl : Declaration}
    (h : (relaxNg uri s).declarationOf? t e = some decl) :
    ∃ id content, decl = .pattern s id ∧ s.elementContent? id = some content := by
  have hpattern {ids : List Nat} {p : Declaration → Bool} {decl : Declaration}
      (hids : ∀ id ∈ ids, s.isElement id = true)
      (h : (ids.map (Declaration.pattern s)).find? p = some decl) :
      ∃ id content, decl = .pattern s id ∧ s.elementContent? id = some content := by
    obtain ⟨id, hid, rfl⟩ := List.mem_map.mp (List.mem_of_find?_eq_some h)
    obtain ⟨content, hc⟩ := s.exists_elementContent? (hids id hid)
    exact ⟨id, content, rfl, hc⟩
  have helements (start : Nat) : ∀ id ∈ s.elementPatterns start, s.isElement id = true :=
    fun id hid => (Schema.mem_elementPatterns_iff.mp hid).2
  rw [declarationOf?] at h
  generalize t.pathFromRoot e = path at h
  induction path using List.reverseRecOn generalizing decl with
  | nil => cases h
  | append_singleton path c ih =>
      cases path with
      | nil =>
          obtain ⟨top, htop, hrest⟩ := Option.bind_eq_some_iff.mp h
          cases hrest
          exact hpattern (helements s.start) htop
      | cons root rest =>
          rw [declarationAlong?_append (List.cons_ne_nil root rest)] at h
          obtain ⟨parent, hparent, hchild⟩ := Option.bind_eq_some_iff.mp h
          obtain ⟨id, content, rfl, hc⟩ := ih hparent
          rw [Declaration.child?, Declaration.children, hc] at hchild
          exact hpattern (helements content) hchild

/-- An alternative is an element pattern with one name. -/
lemma exists_simpleName_of_mem_alternativesIn {g : Grammar} (halt : alt ∈ g.alternativesIn t e) :
    ∃ s p ns, alt = .pattern s p ∧ s.simpleName? p = some (ns, alt.localName) ∧
      alt.namespaceUri = if ns.isEmpty then none else some ns := by
  rw [alternativesIn] at halt
  split at halt
  · rename_i decl _
    cases decl with
    | dtd d p => cases halt
    | pattern s id =>
        obtain ⟨p, hp, rfl⟩ := List.mem_map.mp halt
        have hsimple : (s.simpleName? p).isSome := by
          rw [Schema.alternatives] at hp
          dsimp only at hp
          split_ifs at hp
          · cases hp
          · exact (List.mem_filter.mp (mem_of_mem_distinctBy hp)).2
        obtain ⟨⟨ns, l⟩, hname⟩ := Option.isSome_iff_exists.mp hsimple
        obtain ⟨c, hc, hsimple⟩ := Option.bind_eq_some_iff.mp hname
        refine ⟨s, p, ns, rfl, ?_, ?_⟩
        · simp [hname, Declaration.localName, hc, NameClass.label, hsimple]
        · simp [Declaration.namespaceUri, hc, hsimple]
  · cases halt

/-- An alternative is a declaration for an element of its name exactly if it has the namespace
too. -/
lemma describes_iff_of_mem_alternativesIn {g : Grammar} (halt : alt ∈ g.alternativesIn t e)
    (hname : child.element.localName = alt.localName)
    (huri : child.element.namespaceUri ≠ some "") :
    alt.describes child = true ↔ alt.namespaceUri = child.element.namespaceUri := by
  obtain ⟨s, p, ns, rfl, hsimple, hns⟩ := exists_simpleName_of_mem_alternativesIn halt
  have hadmits : (Declaration.pattern s p).describes child = s.admits p child.expandedName := rfl
  rw [hadmits, s.admits_iff_of_simpleName? hsimple, ElementNode.expandedName, hname, hns]
  simp only [Prod.mk.injEq, and_true]
  generalize child.element.namespaceUri = uri? at huri
  by_cases hempty : ns = ""
  · subst hempty
    cases uri? with
    | none => simp
    | some uri =>
        have hne : uri ≠ "" := fun h => huri (congrArg some h)
        simpa using hne
  · have hkept : (if ns.isEmpty then none else some ns) = some ns :=
      if_neg fun h => hempty (String.isEmpty_iff.mp h)
    rw [hkept]
    cases uri? with
    | none => simpa using Ne.symm hempty
    | some uri => simp [eq_comm]

end Grammar

/-! ## Content with one child -/

namespace Schema

variable {s : Schema} {id content : Nat}

/-- Whether a content model can begin with an element of a name. -/
def BeginsWith (s : Schema) (content : Nat) (n : String × String) : Prop :=
  ∃ p ∈ s.first (.pattern content), s.admits p n = true

/-- A child that is alone is expected exactly if the content model can begin with it. -/
lemma unexpected_singleton_iff (hc : s.elementContent? id = some content) (child : ElementNode) :
    ((Declaration.pattern s id).checkContent [child]).unexpected = [] ↔
      s.BeginsWith content child.expandedName := by
  have hlive : (Residual.pattern content).Sound (s.Leads true content) := .inr .refl
  have hfirst : s.derivativeBy (.pattern content) child ≠ .notAllowed ↔
      s.BeginsWith content child.expandedName :=
    s.derivativeWithin_ne_notAllowed_iff leads_parts child.expandedName _ hlive
  rw [← hfirst, Declaration.checkContent, checkContent, s.residualOf_eq hc, foldChildren]
  dsimp only
  split_ifs with hnone
  · simp [hnone]
  · simp [hnone, foldChildren]

/-- In an element without children each alternative is one that the content model can begin with. -/
lemma beginsWith_of_mem_alternatives (hc : s.elementContent? id = some content) {p : Nat}
    (hp : p ∈ s.alternatives id []) {n : String × String} (hn : s.admits p n = true) :
    s.BeginsWith content n :=
  ⟨p, s.mem_firstWithin_of_required _ (s.mem_alternatives hc hp).2, hn⟩

end Schema

/-! ## The text that is inserted -/

/-- Whether an outline has an attribute that declares a namespace. -/
def Outline.declaresNamespace : Outline → Bool
  | .element _ attributes _ => attributes.any fun a => XmlAdvisor.declaresNamespace a.1

/-- Attributes that declare no namespace leave the bindings in force. -/
lemma Printing.scope_writtenAttributes (s : Printing) {attributes : List (String × String)}
    (h : (attributes.any fun a => declaresNamespace a.1) = false) (scope : List Binding) :
    (s.writtenAttributes attributes).foldl
      (fun scope a => (bindingOf a.name a.value).toList ++ scope) scope = scope := by
  induction attributes generalizing s with
  | nil => rfl
  | cons a more ih =>
      rw [List.any_cons, Bool.or_eq_false_iff] at h
      have hname : a.1 ≠ "xmlns" := by
        intro hname
        rw [hname] at h
        cases h.1
      have hnone : bindingOf (s.writtenAttribute a).name (s.writtenAttribute a).value = none :=
        if_neg hname
      rw [writtenAttributes, List.foldl_cons, hnone]
      exact ih _ h.2

/-- What is inserted for a declaration is one element of its name. -/
lemma Declaration.exists_written {decl : Declaration} (hwritable : decl.outline.isWritable = true)
    (hsilent : decl.outline.declaresNamespace = false) {l : Layout} (hl : l.lineDelimiter = "\n")
    (level : Nat) (asSnippet : Bool) : ∃ tag inner,
      (WrittenContents.element tag inner [] .nil).isWellFormed = true ∧
      (decl.insertion l {} level none asSnippet).toList =
        (WrittenContents.element tag inner [] .nil).chars ∧
      tag.name = ⟨none, decl.localName⟩ ∧ ∀ scope, tag.scopeIn scope = scope := by
  obtain ⟨children, houtline⟩ : ∃ children,
      decl.outline = .element decl.localName decl.requiredAttributes children := ⟨_, rfl⟩
  let s : Printing := ⟨asSnippet, 0, false⟩
  have hchars := decl.outline.chars_written l level s .nil
  have hwell : (decl.outline.written l level s .nil).isWellFormed = true :=
    Outline.isWellFormed_written (Layout.isBlank_of_newline hl) level s rfl hwritable
  rw [WrittenContents.chars, List.append_nil] at hchars
  rw [houtline, Outline.declaresNamespace] at hsilent
  rw [Declaration.insertion, Printing.chars_insertionText, ← hchars, houtline, Outline.written]
  rw [houtline, Outline.written] at hwell
  exact ⟨_, _, hwell, rfl, rfl, fun scope => s.scope_writtenAttributes hsilent scope⟩

/-! ## The document afterwards -/

/-- An empty namespace is none. -/
lemma Tree.lookupNamespace_ne_empty (t : Tree) (e : ElementNode) (qualifier : Option String) :
    t.lookupNamespace e qualifier ≠ some "" := by
  rw [lookupNamespace]
  split_ifs
  · rw [xmlNamespace]
    simp
  · dsimp only
    split
    · split_ifs with hempty
      · simp
      · rwa [String.isEmpty_iff, ← Option.some_inj] at hempty
    · simp

/-- Whether an element of a document is what it was in another one, but that nothing is inside it
except a child of a name, which has no qualifier. -/
structure Document.Refills (d d' : Document) (e e' child : ElementNode) (name : String) : Prop where
  there : e' ∈ d'.elements
  start : e'.span.start = e.span.start
  tagName : e'.element.name = e.element.name
  namespaceUri : e'.element.namespaceUri = e.element.namespaceUri
  attributes : e'.element.attributes = e.element.attributes
  declared : ∀ g : Grammar, g.declarationOf? d'.toTree e' = g.declarationOf? d.toTree e
  children : d'.childElements e' = [child]
  childName : child.element.name = ⟨none, name⟩
  childNamespace : child.element.namespaceUri = d.lookupNamespace e none

/-- What becomes of a document in which the content of an element is replaced by what is inserted
for a declaration. -/
lemma Document.exists_refills (url : Url) (version : Int) (unit : ColumnUnit) {text : List Char}
    {e : ElementNode} (he : (Tree.parse text).element? e.id = some e) {close stop : Nat}
    (hclose : e.element.startTagClose = some close) (hstop : e.element.endTagOpen = some stop)
    {decl : Declaration} (hwritable : decl.outline.isWritable = true)
    (hsilent : decl.outline.declaresNamespace = false) {l : Layout} (hl : l.lineDelimiter = "\n")
    (level : Nat) (asSnippet : Bool) (version' : Int) : ∃ e' child,
      (Document.parse url version unit text).Refills
      (.parse url version' unit (text.take (close + 1) ++
        (decl.insertion l {} level none asSnippet).toList ++ text.drop stop)) e e' child
        decl.localName := by
  obtain ⟨tag, inner, hwell, hchars, hname, hscope⟩ :=
    Declaration.exists_written hwritable hsilent hl level asSnippet
  obtain ⟨e', child, hrefilled, hchild, huri⟩ := Tree.exists_refilled he hclose hstop hwell hscope
  rw [← hchars, ← List.append_assoc] at hrefilled
  refine ⟨e', child, ?_⟩
  constructor
  case there => exact Tree.mem_elements.mpr hrefilled.there
  case start => exact congrArg Front.start hrefilled.front
  case tagName => exact congrArg (·.element.name) hrefilled.front
  case namespaceUri => exact congrArg (·.element.namespaceUri) hrefilled.front
  case «attributes» => exact congrArg (·.element.attributes) hrefilled.front
  case declared => exact hrefilled.declarationOf?_eq
  case children => exact hrefilled.children
  case childName => exact hchild.trans hname
  case childNamespace =>
    rw [huri, hname]
    rfl

namespace Document.Refills

variable {d d' : Document} {e e' child : ElementNode} {name : String}

/-- The child is one that an alternative of its name is a declaration for exactly if it has the
default namespace. -/
lemma describes_iff (h : d.Refills d' e e' child name) {g : Grammar} {t : Tree} {a : ElementNode}
    {alt : Declaration} (halt : alt ∈ g.alternativesIn t a) (hname : alt.localName = name) :
    alt.describes child = true ↔ alt.namespaceUri = d.lookupNamespace e none := by
  have hlocal : child.element.localName = alt.localName := by
    rw [Element.localName, h.childName, hname]
  have hne : child.element.namespaceUri ≠ some "" := by
    rw [h.childNamespace]
    exact d.toTree.lookupNamespace_ne_empty e none
  rw [describes_iff_of_mem_alternativesIn halt hlocal hne, h.childNamespace]

variable {uri : Url} {s : Schema} {id content : Nat}

/-- The child is expected exactly if the content model can begin with it. -/
lemma unexpected_iff (h : d.Refills d' e e' child name) (hc : s.elementContent? id = some content) :
    ((Declaration.pattern s id).checkContent (d'.childElements e')).unexpected = [] ↔
      s.BeginsWith content ((d.lookupNamespace e none).getD "", name) := by
  have hexpanded : child.expandedName = ((d.lookupNamespace e none).getD "", name) := by
    rw [ElementNode.expandedName, Element.localName, h.childName, h.childNamespace]
  rw [h.children, Schema.unexpected_singleton_iff hc, hexpanded]

/-- In an element that had no children, a child for which an alternative is a declaration is
expected. -/
lemma unexpected_eq_nil (h : d.Refills d' e e' child name)
    (hdecl : (Grammar.relaxNg uri s).declarationOf? d.toTree e = some (.pattern s id))
    (hc : s.elementContent? id = some content) (hnone : d.childElements e = []) {alt : Declaration}
    (halt : alt ∈ (Grammar.relaxNg uri s).alternativesIn d.toTree e)
      (hmatch : alt.describes child = true) :
    ((Declaration.pattern s id).checkContent (d'.childElements e')).unexpected = [] := by
  have halternatives : (Grammar.relaxNg uri s).alternativesIn d.toTree e =
      (Declaration.pattern s id).alternatives (d.childElements e) := by
    rw [alternativesIn, hdecl]
  rw [halternatives, hnone] at halt
  obtain ⟨p, hp, rfl⟩ := List.mem_map.mp halt
  rw [h.children, Schema.unexpected_singleton_iff hc]
  exact Schema.beginsWith_of_mem_alternatives hc hp hmatch

end Document.Refills

/-! ## Resolving -/

section Resolving

variable {cx : ActionContext} {gs : List Grammar} {g : Grammar} {v : Visit} {x : Diagnostic}
  {a listed : CodeAction}

lemma isIdentifier_of_replacing {d : Document} {range : Range} {newText : String}
    {w : WorkspaceEdit}
    (h : d.replacing range newText = .ok w) : isIdentifier d.url.text = true := by
  rw [Document.replacing] at h
  split_ifs at h with huri
  exact huri

/-- Only documents with a URI get edits. -/
lemma isIdentifier_of_insertionEdit {w : WorkspaceEdit} (h : cx.insertionEdit gs a = .ok (some w)) :
    isIdentifier cx.document.url.text = true := by
  obtain ⟨place, -, h⟩ := exists_of_bind_ok h
  cases place with
  | none => cases h
  | some place =>
      obtain ⟨range, -, h⟩ := exists_of_bind_ok h
      split at h
      · cases h
      · rw [map_eq_pure_bind] at h
        obtain ⟨edit, hreplacing, -⟩ := exists_of_bind_ok h
        exact isIdentifier_of_replacing hreplacing

lemma resolvedWith_of_not_isIdentifier (h : isIdentifier cx.document.url.text = false)
    (a : CodeAction) :
    cx.resolvedWith gs a = a := by
  have hnone : (cx.insertionEdit gs a).toOption.getD none = none := by
    cases hedit : cx.insertionEdit gs a with
    | error cause => rfl
    | ok edit =>
        cases edit with
        | none => rfl
        | some w =>
            rw [isIdentifier_of_insertionEdit hedit] at h
            cases h
  rw [ActionContext.resolvedWith, hnone]
  split_ifs <;> rfl

/-- What an action comes to that is listed for a report, whatever the document is called. -/
lemma exists_resolvedWith_of_listed (hd : cx.document.toTree.Nests) (hg : g ∈ gs)
    (hv : v ∈ g.visited cx.document) (hx : g.IsReport cx.document v x) {problem : ProblemCode}
    (hproblem : x.problem? = some problem) (hmissing : problem ∈ missingElementProblems)
    (hlisted : listed ∈ cx.listedWith gs x) (ha : a = listed ∨ a = cx.resolvedWith gs listed) :
    ∃ payload edit?, a.payload = .ok payload ∧ cx.resolvedWith gs a = { a with edit := edit? } ∧
      (isIdentifier cx.document.url.text = true → (edit?.isSome ↔
        v.element.element.startTagClose.isSome ∧ v.element.element.endTagOpen.isSome)) ∧
      ∀ edit ∈ edit?, cx.Inserts gs v.element payload.elementLocalName edit := by
  by_cases huri : isIdentifier cx.document.url.text = true
  · obtain ⟨payload, edit?, hpayload, hresolved, hiff, hinserts⟩ :=
      exists_resolvedWith hd huri hg hv hx hproblem hmissing hlisted ha
    exact ⟨payload, edit?, hpayload, hresolved, fun _ => hiff, hinserts⟩
  · rw [Bool.not_eq_true] at huri
    rw [resolvedWith_of_not_isIdentifier huri, or_self] at ha
    subst ha
    obtain ⟨isOnly, name, rfl, -⟩ := mem_listedWith hd hv hx hg hproblem hmissing hlisted
    refine ⟨⟨problem.name, cx.document.url.text, v.element.element.localName, name⟩, none, rfl,
      resolvedWith_of_not_isIdentifier huri _, fun h => ?_, by rintro _ ⟨⟩⟩
    rw [huri] at h
    cases h

/-- What becomes of the text if an alternative is inserted. -/
lemma ActionContext.Inserts.exists_applied {e : ElementNode} {name : String} {edit : WorkspaceEdit}
    (h : cx.Inserts gs e name edit) {text : List Char}
    (htree : cx.document.toTree = Tree.parse text)
    (he : (Tree.parse text).element? e.id = some e) : ∃ close stop g decl,
      e.element.startTagClose = some close ∧ e.element.endTagOpen = some stop ∧
      cx.settings.codeAction.duplicateAlternative.Prefers gs cx.document.toTree e name g ∧
      g.alternativeNamed? cx.document.toTree e name = some decl ∧
      cx.document.applyEdits (edit.editsFor cx.document) =
        .ok (String.ofList (text.take (close + 1) ++
        (decl.insertion cx.settings.layout {} 1 none cx.settings.codeAction.snippetEdits).toList ++
          text.drop stop)) := by
  obtain ⟨close, stop, range, g, decl, hclose, hstop, hrange, -, hprefers, hnamed, hedit⟩ := h
  obtain ⟨close', hclose', -, -, hbetween⟩ := Tree.content_between_tags text he hstop
  obtain rfl : close = close' := Option.some.inj (hclose.symm.trans hclose')
  have happlied := applyEdits_span hrange (Nat.succ_le_of_lt hbetween.order) hedit
  have htext : cx.document.text = text := congrArg Tree.text htree
  rw [htext] at happlied
  exact ⟨close, stop, g, decl, hclose, hstop, hprefers, hnamed, happlied⟩

end Resolving

/-- **What the edit of an action for a missing element leaves.**  Every action that is listed for
what a schema reports about an element gets an edit if the element has both its tags.  If the
alternative can be written and declares no namespace, then after the edit the element is what it
was, and in place of all its content it has one child, with the name of the alternative and in the
default namespace.  The child is one that an alternative of its name is a declaration for exactly if
that has this namespace, and it is expected exactly if the content model can begin with it: so it is
if there was no child before and the schema has an alternative of the name in this namespace. -/
theorem resolveAction_refills (url : Url) (version : Int) (unit : ColumnUnit) (text : List Char)
    (d : Document) (hd : d = Document.parse url version unit text) (settings : Settings)
    (b : Bindings)
    (hquiet : b.supply.interruptedAt = none) (gs : List Grammar) (s₀ s₁ s₂ : GrammarStore)
    (h₁ : b.Offers d gs s₁) (h₂ : b.Offers d gs s₂) (uri : Url) (s : Schema)
    (hg : Grammar.relaxNg uri s ∈ gs) (found : List Diagnostic) (after : RequestState)
    (hfound : ((Grammar.relaxNg uri s).validate d).runFrom ⟨s₀, .never⟩ = (.ok found, after))
    (xs : List Diagnostic) (actions : List CodeAction) (after' : RequestState)
    (hactions : ((Advisor.builtIn settings b).codeActions d xs).runFrom ⟨s₁, .never⟩ =
      (.ok actions, after'))
    (a : CodeAction) (ha : a ∈ actions) (x : Diagnostic) (hx : x ∈ found)
    (hfirst : a.firstDiagnostic? = some x) (problem : ProblemCode)
    (hproblem : x.problem? = some problem) (hmissing : problem ∈ missingElementProblems) :
    ∃ v ∈ (Grammar.relaxNg uri s).visited d, ∃ id content payload edit? s₃,
      x ∈ v.diagnostics (.relaxNg uri s) d ∧ d.elementOf x = .ok (some v.element) ∧
      v.declaration = .pattern s id ∧ s.elementContent? id = some content ∧
      a.payload = .ok payload ∧
      ((Advisor.builtIn settings b).resolveAction d a).runFrom ⟨s₂, .never⟩ =
        (.ok { a with edit := edit? }, ⟨s₃, .never⟩) ∧
      (isIdentifier url.text = true → (edit?.isSome ↔
        v.element.element.startTagClose.isSome ∧ v.element.element.endTagOpen.isSome)) ∧
      ∀ edit ∈ edit?, ∃ g decl newText,
        settings.codeAction.duplicateAlternative.Prefers gs d.toTree v.element
          payload.elementLocalName g ∧
        g.alternativeNamed? d.toTree v.element payload.elementLocalName = some decl ∧
        d.applyEdits (edit.editsFor d) = .ok newText ∧
        (decl.outline.isWritable = true → decl.outline.declaresNamespace = false →
          ∀ (version' : Int) (d' : Document), d' = Document.parse url version' unit newText.toList →
          ∃ e' child, d.Refills d' v.element e' child payload.elementLocalName ∧
            (∀ h ∈ gs, ∀ alt ∈ h.alternativesIn d.toTree v.element,
              alt.localName = payload.elementLocalName →
              (alt.describes child = true ↔ alt.namespaceUri = d.lookupNamespace v.element none)) ∧
            ((v.declaration.checkContent (d'.childElements e')).unexpected = [] ↔
              s.BeginsWith content
                ((d.lookupNamespace v.element none).getD "", payload.elementLocalName)) ∧
            (d.childElements v.element = [] →
              (∃ alt ∈ (Grammar.relaxNg uri s).alternativesIn d.toTree v.element,
                alt.localName = payload.elementLocalName ∧
                alt.namespaceUri = d.lookupNamespace v.element none) →
              (v.declaration.checkContent (d'.childElements e')).unexpected = [])) := by
  have hnests := nests_of_eq_parse hd
  have hshaped : d.toTree.Shaped := hd ▸ Tree.parse_shaped text
  have htree : d.toTree = Tree.parse text := by rw [hd]; rfl
  have happlicable := reads_applicable hquiet hnests gs
  -- what is found and what is listed
  obtain rfl := findings_of_runFrom hfound
  obtain ⟨s₁', hlists, -⟩ := Advisor.reads_codeActions happlicable settings xs s₁ h₁
  rw [hlists, Prod.mk.injEq, Except.ok.injEq] at hactions
  obtain ⟨rfl, -⟩ := hactions
  have hincomplete := isIncompleteness_of_missing hproblem hmissing
  obtain ⟨v, hv, hxv, hreport⟩ := exists_visited_of_mem_findings hshaped hx hincomplete
  have hdecl := declarationOf?_of_mem_visited hnests hv
  obtain ⟨id, content, hpattern, hc⟩ := exists_pattern_of_declarationOf? hdecl
  obtain ⟨listed, hlisted, hcases⟩ := exists_listed_of_mem_actionsWith ha hfirst
  obtain ⟨payload, edit?, hpayload, hresolved, hiff, hinserts⟩ :=
    exists_resolvedWith_of_listed hnests hg hv hreport hproblem hmissing hlisted hcases
  obtain ⟨s₃, hresolve, -⟩ := Advisor.reads_resolveAction happlicable settings a s₂ h₂
  rw [hresolved] at hresolve
  have helement := element?_of_mem_visited hv
  refine ⟨v, hv, id, content, payload, edit?, s₃, hxv, hreport.elementOf hnests helement,
    hpattern, hc,
    hpayload, hresolve, fun huri => hiff (hd ▸ huri), fun edit hedit => ?_⟩
  have hparsed : (Tree.parse text).element? v.element.id = some v.element := htree ▸ helement
  obtain ⟨close, stop, g, decl, hclose, hstop, hprefers, hnamed, happlied⟩ :=
    (hinserts edit hedit).exists_applied htree hparsed
  refine ⟨g, decl, _, hprefers, hnamed, happlied, fun hwritable hsilent version' d' hd' => ?_⟩
  have hlocal : decl.localName = payload.elementLocalName := by
    simpa using List.find?_some hnamed
  have hl : settings.layout.lineDelimiter = "\n" := rfl
  obtain ⟨e', child, hrefills⟩ :=
    Document.exists_refills url version unit hparsed hclose hstop hwritable
    hsilent hl 1 settings.codeAction.snippetEdits version'
  rw [← hd, hlocal] at hrefills
  rw [String.toList_ofList] at hd'
  have hrefills : d.Refills d' v.element e' child payload.elementLocalName := by
    rw [hd']
    exact hrefills
  rw [hpattern] at hdecl ⊢
  refine ⟨e', child, hrefills, fun h _ alt halt hname => hrefills.describes_iff halt hname,
    hrefills.unexpected_iff hc, ?_⟩
  rintro hnone ⟨alt, halt, hname, huri⟩
  exact hrefills.unexpected_eq_nil hdecl hc hnone halt
    ((hrefills.describes_iff halt hname).mpr huri)

/-! ## Elements in order -/

/-- A schema for an element with two children in order, all of them in one namespace. -/
def Schema.inOrder (ns : String) : Schema where
  patterns := #[.empty, .element (.name ns "a") 0 none, .element (.name ns "b") 0 none,
    .group [1, 2],
    .element (.name ns "r") 3 none]
  definitions := #[]
  start := 4

/-- The grammar of `Schema.inOrder`. -/
def Grammar.inOrder (ns : String) : Grammar :=
  .relaxNg (fileAtTop "a.rng") (.inOrder ns)

/-- A store that keeps the grammar. -/
def orderStore (ns : String) : GrammarStore :=
  ⟨[⟨⟨fileAtTop "a.rng", none⟩, "1", .inOrder ns⟩], 0⟩

/-- A document that is bound to the grammar. -/
def orderDocument (text : String) : Document :=
  .parse (fileAtTop "a.xml") 1 .utf16 ("<?xml-model href='a.rng'?>" ++ text).toList

/-- The document that is read again after an edit. -/
def rereadDocument (newText : String) : Document :=
  .parse (fileAtTop "a.xml") 2 .utf16 newText.toList

/-- Whether a text comes of a document by the edit of an action that inserts an element of a name,
listed for what the grammar reports about an element in which it expects all children. -/
def IsRepair (ns : String) (d : Document) (e : ElementNode) (name newText : String) : Prop :=
  choiceBindings.Offers d [.inOrder ns] (orderStore ns) ∧
  (∃ decl, (Grammar.inOrder ns).declarationOf? d.toTree e = some decl ∧
    (decl.checkContent (d.childElements e)).unexpected = []) ∧
  ∃ found x actions after a payload edit after',
    ((Grammar.inOrder ns).validate d).runFrom ⟨orderStore ns, .never⟩ =
      (.ok found, ⟨orderStore ns, .never⟩) ∧
    x ∈ found ∧ x.problem? = some .requiredElementMissing ∧ d.elementOf x = .ok (some e) ∧
    ((Advisor.builtIn {} choiceBindings).codeActions d [x]).runFrom ⟨orderStore ns, .never⟩ =
      (.ok actions, after) ∧
    a ∈ actions ∧ a.firstDiagnostic? = some x ∧ a.payload = .ok payload ∧
    payload.elementLocalName = name ∧
    ((Advisor.builtIn {} choiceBindings).resolveAction d a).runFrom ⟨orderStore ns, .never⟩ =
      (.ok { a with edit := some edit }, after') ∧
    d.applyEdits (edit.editsFor d) = .ok newText

/-- The elements of a document that can be repaired so, with the names that are inserted and the
texts that come of it. -/
def repairs (ns : String) (d : Document) : List (ElementNode × String × String) :=
  let advisor := Advisor.builtIn {} choiceBindings
  let gs := [Grammar.inOrder ns]
  ((Grammar.inOrder ns).findings d).flatMap fun x =>
    (advisor.actionsWith d gs [x]).filterMap fun a => do
      let e ← (d.elementOf x).toOption.join
      let decl ← (Grammar.inOrder ns).declarationOf? d.toTree e
      let payload ← a.payload.toOption
      let edit ← ((advisor.context d).resolvedWith gs a).edit
      let newText ← (d.applyEdits (edit.editsFor d)).toOption
      guard (x.problem? = some .requiredElementMissing ∧ a.firstDiagnostic? = some x ∧
        a.edit = none ∧
        (decl.checkContent (d.childElements e)).unexpected = [])
      return (e, payload.elementLocalName, newText)

lemma eq_ok_of_toOption {α ε : Type} {v : Except ε α} {a : α} (h : v.toOption = some a) :
    v = .ok a := by
  cases v with
  | error cause => cases h
  | ok b => exact congrArg _ (Option.some.inj h)

lemma isRepair_of_mem_repairs {ns : String} {d : Document} (hd : d.toTree.Nests)
    (hoffers : choiceBindings.Offers d [.inOrder ns] (orderStore ns)) {e : ElementNode}
    {name newText : String} (h : (e, name, newText) ∈ repairs ns d) :
    IsRepair ns d e name newText := by
  obtain ⟨x, hx, h⟩ := List.mem_flatMap.mp h
  obtain ⟨a, ha, h⟩ := List.mem_filterMap.mp h
  simp only [Option.bind_eq_bind, Option.bind_eq_some_iff, Option.join_eq_some_iff] at h
  obtain ⟨e, he, decl, hdecl, payload, hpayload, edit, hedit, newText, happlied, ⟨⟩, hguard, h⟩ := h
  cases h
  unfold guard at hguard
  split_ifs at hguard with hall
  obtain ⟨hproblem, hfirst, hnone, hunexpected⟩ := hall
  have happlicable := reads_applicable (b := choiceBindings) rfl hd [.inOrder ns]
  obtain ⟨s, hlists, -⟩ := Advisor.reads_codeActions happlicable {} [x] _ hoffers
  obtain ⟨s', hresolves, -⟩ := Advisor.reads_resolveAction happlicable {} a _ hoffers
  obtain ⟨edit?, hresolved, -⟩ :=
    exists_edit_of_resolvedWith ((Advisor.builtIn {} choiceBindings).context d) [.inOrder ns] hnone
  rw [hresolved] at hedit hresolves
  obtain rfl : edit? = some edit := hedit
  exact ⟨hoffers, ⟨decl, hdecl, hunexpected⟩, _, x, _, _, a, payload, edit, _,
    (reads_validate _).runFrom_eq _, hx, hproblem, eq_ok_of_toOption he, hlists, ha,
    hfirst, eq_ok_of_toOption hpayload, rfl, hresolves, eq_ok_of_toOption happlied⟩

/-- An element that is expected only behind what was there is inserted in place of it, and an
element whose namespace is not the default one is inserted without it. -/
theorem resolveAction_refills_unexpected :
    (∃ e newText, IsRepair "" (orderDocument "<r><a/></r>") e "b" newText ∧
      ∀ e' ∈ (rereadDocument newText).elements, e'.span.start = e.span.start → ∀ decl,
        (Grammar.inOrder "").declarationOf? (orderDocument "<r><a/></r>").toTree e = some decl →
        (decl.checkContent ((rereadDocument newText).childElements e')).unexpected ≠ []) ∧
    ∃ e newText, IsRepair "u" (orderDocument "<p:r xmlns:p='u'></p:r>") e "a" newText ∧
      ∀ e' ∈ (rereadDocument newText).elements, e'.span.start = e.span.start →
        (rereadDocument newText).childElements e' ≠ [] ∧
        ∀ child ∈ (rereadDocument newText).childElements e',
          ∀ alt ∈ (Grammar.inOrder "u").alternativesIn
          (orderDocument "<p:r xmlns:p='u'></p:r>").toTree e, alt.describes child = false := by
  constructor
  · obtain ⟨⟨e, name, newText⟩, hmem, rfl, hreported⟩ :
        ∃ r ∈ repairs "" (orderDocument "<r><a/></r>"), r.2.1 = "b" ∧
        ∀ e' ∈ (rereadDocument r.2.2).elements, e'.span.start = r.1.span.start →
          ((Grammar.inOrder "").declarationOf? (orderDocument "<r><a/></r>").toTree r.1).all
            fun decl =>
              (decl.checkContent ((rereadDocument r.2.2).childElements e')).unexpected ≠ [] := by
      decide +kernel
    have hoffers : choiceBindings.Offers (orderDocument "<r><a/></r>") [.inOrder ""]
        (orderStore "") := rfl
    refine ⟨e, newText, isRepair_of_mem_repairs (Tree.parse_nests _) hoffers hmem,
      fun e' he' hstart decl hdecl => ?_⟩
    have hall := hreported e' he' hstart
    rw [hdecl] at hall
    exact of_decide_eq_true hall
  · obtain ⟨⟨e, name, newText⟩, hmem, rfl, hunmatched⟩ :
        ∃ r ∈ repairs "u" (orderDocument "<p:r xmlns:p='u'></p:r>"), r.2.1 = "a" ∧
        ∀ e' ∈ (rereadDocument r.2.2).elements, e'.span.start = r.1.span.start →
          (rereadDocument r.2.2).childElements e' ≠ [] ∧
          ∀ child ∈ (rereadDocument r.2.2).childElements e',
            ∀ alt ∈ (Grammar.inOrder "u").alternativesIn
            (orderDocument "<p:r xmlns:p='u'></p:r>").toTree r.1, alt.describes child = false := by
      decide +kernel
    have hoffers : choiceBindings.Offers (orderDocument "<p:r xmlns:p='u'></p:r>") [.inOrder "u"]
        (orderStore "u") := rfl
    exact ⟨e, newText, isRepair_of_mem_repairs (Tree.parse_nests _) hoffers hmem, hunmatched⟩

/-- In an element that is empty and whose namespace is the default one, the child is expected. -/
theorem resolveAction_refills_default : ∃ e newText e' child,
    IsRepair "u" (orderDocument "<r xmlns='u'></r>") e "a" newText ∧
    (orderDocument "<r xmlns='u'></r>").Refills (rereadDocument newText) e e' child "a" ∧
    child.element.namespaceUri = some "u" ∧ ∀ decl,
      (Grammar.inOrder "u").declarationOf? (rereadDocument newText).toTree e' = some decl →
      (decl.checkContent ((rereadDocument newText).childElements e')).unexpected = [] := by
  obtain ⟨⟨e, name, newText⟩, hmem, rfl, hwritable, hnone, halternative, hdefault⟩ :
      ∃ r ∈ repairs "u" (orderDocument "<r xmlns='u'></r>"), r.2.1 = "a" ∧
        (((Grammar.inOrder "u").alternativeNamed? (orderDocument "<r xmlns='u'></r>").toTree
          r.1 "a").all fun decl =>
            decl.outline.isWritable && !decl.outline.declaresNamespace) ∧
        (orderDocument "<r xmlns='u'></r>").childElements r.1 = [] ∧
        (∃ alt ∈
            (Grammar.inOrder "u").alternativesIn (orderDocument "<r xmlns='u'></r>").toTree r.1,
          alt.localName = "a" ∧
            alt.namespaceUri = (orderDocument "<r xmlns='u'></r>").lookupNamespace r.1 none) ∧
        (orderDocument "<r xmlns='u'></r>").lookupNamespace r.1 none = some "u" := by
    decide +kernel
  have hoffers : choiceBindings.Offers (orderDocument "<r xmlns='u'></r>") [.inOrder "u"]
      (orderStore "u") := rfl
  have hrepair := isRepair_of_mem_repairs (Tree.parse_nests _) hoffers hmem
  obtain ⟨-, -, found, x, actions, after, a, payload, edit, after', hfound, hx, hproblem, he,
    hactions, ha,
    hfirst, hpayload, hname, hresolve, happlied⟩ := id hrepair
  obtain ⟨v, hv, id, content, payload', edit?, s₃, -, he', -, -, hpayload', hresolve', -, hedits⟩ :=
    resolveAction_refills (fileAtTop "a.xml") 1 .utf16 _ (orderDocument "<r xmlns='u'></r>") rfl {}
      choiceBindings rfl [.inOrder "u"] (orderStore "u") (orderStore "u")
      (orderStore "u") hoffers hoffers
      (fileAtTop "a.rng") (.inOrder "u") (List.mem_singleton_self _) found _ hfound [x]
        actions after
      hactions a ha x hx hfirst .requiredElementMissing hproblem (by decide)
  obtain rfl : e = v.element := Option.some.inj (Except.ok.inj (he.symm.trans he'))
  obtain rfl : payload = payload' := Except.ok.inj (hpayload.symm.trans hpayload')
  have hsame := (congrArg Prod.fst hresolve).symm.trans (congrArg Prod.fst hresolve')
  obtain rfl : some edit = edit? := congrArg CodeAction.edit (Except.ok.inj hsame)
  obtain ⟨g, decl, newText', ⟨before, behind, hgs, -⟩, hnamed, happlied', hrefills⟩ :=
    hedits edit rfl
  obtain rfl : newText = newText' := Except.ok.inj (happlied.symm.trans happlied')
  obtain rfl : g = .inOrder "u" := by
    have hg : g ∈ [Grammar.inOrder "u"] :=
      hgs ▸ List.mem_append_right before (List.mem_cons_self ..)
    exact List.mem_singleton.mp hg
  rw [hname] at hnamed hrefills
  rw [hnamed, Option.all_some, Bool.and_eq_true, Bool.not_eq_true'] at hwritable
  obtain ⟨e', child, hrefilled, -, -, hexpected⟩ :=
    hrefills hwritable.1 hwritable.2 2 (rereadDocument newText) rfl
  refine ⟨v.element, newText, e', child, hrepair, hrefilled,
    hrefilled.childNamespace.trans hdefault,
    fun decl hdecl => ?_⟩
  have hdeclared := declarationOf?_of_mem_visited (Tree.parse_nests _) hv
  obtain rfl : v.declaration = decl :=
    Option.some.inj (hdeclared.symm.trans ((hrefilled.declared _).symm.trans hdecl))
  exact hexpected hnone halternative

end XmlAdvisor
