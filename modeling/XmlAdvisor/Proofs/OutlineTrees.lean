import XmlAdvisor.Proofs.StartTags
import XmlAdvisor.Proofs.WrittenOutlines
import Mathlib.Data.List.Forall2

/-!
# Trees of outlines

What is generated for an outline is read as a tree, and the tree says what the outline says.
Outlines have names as texts, and a name with a colon in it is read as one with a qualifier.

* `QualifiedName.ofText` — the name that a text is read as; `WrittenContents.requalified` — contents
  with their names so.
* `WrittenContents.outlines` — what contents say, and `Tree.Mirrors` — that a tree says it.
* **`Outline.mirrors_parse`** — the text of an outline is read as one element that mirrors it.
* **`Outline.isBare_parse`** — where the names of an outline have nothing to do with namespaces, no
  element that is read is in one.
-/

namespace XmlAdvisor

/-! ## Names with qualifiers -/

/-- The name that a text is read as: what stands before its first colon qualifies the rest. -/
def QualifiedName.ofText (t : String) : QualifiedName :=
  match splitName t with
  | some (q, l) => ⟨some q, l⟩
  | none => ⟨none, t⟩

lemma QualifiedName.text_ofText (t : String) : (ofText t).text = t := by
  rw [ofText, splitName]
  cases hsplit : splitAtColon t.toList with
  | none => rfl
  | some parts =>
      rw [← String.toList_inj, ← Scan.append_of_splitAtColon hsplit]
      simp [text]

/-- Whether a text is a name that may have a qualifier. -/
def isQualifiedName (t : String) : Bool :=
  (QualifiedName.ofText t).isWritten

/-- What an attribute says as it is written. -/
def WrittenAttribute.said (a : WrittenAttribute) : String × String :=
  (a.name.text, a.value)

/-- An attribute with its name as it is read. -/
def WrittenAttribute.requalified (a : WrittenAttribute) : WrittenAttribute :=
  { a with name := .ofText a.name.text }

lemma WrittenAttribute.chars_requalified (a : WrittenAttribute) :
    a.requalified.chars = a.chars := by
  simp only [requalified, chars, QualifiedName.text_ofText]

lemma WrittenAttribute.said_requalified (a : WrittenAttribute) : a.requalified.said = a.said := by
  simp only [requalified, said, QualifiedName.text_ofText]

namespace WrittenTag

/-- A tag with its names as they are read. -/
def requalified (t : WrittenTag) : WrittenTag :=
  ⟨.ofText t.name.text, t.attributes.map (·.requalified), t.blanks⟩

lemma text_requalified (t : WrittenTag) : t.requalified.name.text = t.name.text :=
  QualifiedName.text_ofText _

lemma opening_requalified (t : WrittenTag) : t.requalified.opening = t.opening := by
  rw [opening, text_requalified, requalified, List.flatMap_map]
  simp only [WrittenAttribute.chars_requalified]
  rfl

lemma ending_requalified (t : WrittenTag) (blanks : List Char) :
    t.requalified.ending blanks = t.ending blanks := by
  rw [ending, text_requalified, ending]

lemma saids_requalified (t : WrittenTag) :
    t.requalified.attributes.map (·.said) = t.attributes.map (·.said) := by
  rw [requalified, List.map_map]
  exact List.map_congr_left fun a _ => a.said_requalified

end WrittenTag

namespace WrittenContents

/-- Contents with their names as they are read. -/
def requalified : WrittenContents → WrittenContents
  | .nil => .nil
  | .leaf l more => .leaf l more.requalified
  | .emptied tag more => .emptied tag.requalified more.requalified
  | .element tag inner blanks more =>
      .element tag.requalified inner.requalified blanks more.requalified

lemma chars_requalified (c : WrittenContents) : c.requalified.chars = c.chars := by
  induction c with
  | nil => rfl
  | leaf l more ih => rw [requalified, chars, ih, chars]
  | emptied tag more ih => rw [requalified, chars, ih, tag.opening_requalified, chars]
  | element tag inner blanks more ihinner ihmore =>
      rw [requalified, chars, ihinner, ihmore, tag.opening_requalified,
        tag.ending_requalified, chars]

lemma allTags_requalified (p : WrittenTag → Bool) (c : WrittenContents) :
    c.requalified.allTags p = c.allTags fun t => p t.requalified := by
  induction c with
  | nil => rfl
  | leaf l more ih => rw [requalified, allTags, ih, allTags]
  | emptied tag more ih => rw [requalified, allTags, ih, allTags]
  | element tag inner blanks more ihinner ihmore =>
      rw [requalified, allTags, ihinner, ihmore, allTags]

lemma isArranged_requalified (c : WrittenContents) : c.requalified.isArranged = c.isArranged := by
  have hruns (c : WrittenContents) : c.requalified.beginsWithRun = c.beginsWithRun := by
    cases c <;> rfl
  induction c with
  | nil => rfl
  | leaf l more ih => rw [requalified, isArranged, hruns, ih, isArranged]
  | emptied tag more ih => rw [requalified, isArranged, ih, isArranged]
  | element tag inner blanks more ihinner ihmore =>
      rw [requalified, isArranged, ihinner, ihmore, isArranged]

/-! ## What is said -/

/-- The elements of contents, each with what its attributes say and the elements inside it. -/
def outlines : WrittenContents → List Outline
  | .nil => []
  | .leaf _ more => more.outlines
  | .emptied tag more => .element tag.name.text (tag.attributes.map (·.said)) [] :: more.outlines
  | .element tag inner _ more =>
    .element tag.name.text (tag.attributes.map (·.said)) inner.outlines :: more.outlines

lemma outlines_requalified (c : WrittenContents) : c.requalified.outlines = c.outlines := by
  induction c with
  | nil => rfl
  | leaf l more ih => exact ih
  | emptied tag more ih =>
      rw [requalified, outlines, ih, tag.text_requalified, tag.saids_requalified, outlines]
  | element tag inner blanks more ihinner ihmore =>
      rw [requalified, outlines, ihinner, ihmore, tag.text_requalified,
        tag.saids_requalified, outlines]

end WrittenContents

namespace Printing

variable {s : Printing}

/-- In plain text fields are written as their defaults. -/
lemma saids_writtenAttributes (hs : s.asSnippet = false) (attributes : List (String × String)) :
    (s.writtenAttributes attributes).map (·.said) = attributes := by
  induction attributes generalizing s with
  | nil => rfl
  | cons a more ih =>
      have hvalue : s.text (.field a.2) = a.2 := if_neg (by rw [hs]; decide)
      have hmore : ((s.next (.field a.2)).writtenAttributes more).map (·.said) = more := ih hs
      rw [writtenAttributes, List.map_cons, hmore, writtenAttribute, WrittenAttribute.said, hvalue]
      rfl

end Printing

mutual
/-- In plain text an outline is written as what it says. -/
theorem Outline.outlines_written (l : Layout) (level : Nat) {s : Printing}
    (hs : s.asSnippet = false)
    (more : WrittenContents) :
      (o : Outline) → (o.written l level s more).outlines = o :: more.outlines
  | .element name attributes children => by
    have hplain : (s.after (attributes.flatMap attributePieces)).asSnippet = false :=
      (s.asSnippet_after _).trans hs
    have hinside : (if children.isEmpty then textContents
        ((s.after (attributes.flatMap attributePieces)).text .cursor)
        else Outline.writtenLines l level (s.after (attributes.flatMap attributePieces))
          children).outlines =
        children := by
      split_ifs with hempty
      · rw [List.isEmpty_iff.mp hempty, Printing.text, hplain]
        rfl
      · exact Outline.outlines_writtenLines l level hplain children
    rw [Outline.written, WrittenContents.outlines, hinside, Printing.saids_writtenAttributes hs]
    rfl

theorem Outline.outlines_writtenLines (l : Layout) (level : Nat) {s : Printing}
    (hs : s.asSnippet = false) :
    (os : List Outline) → (Outline.writtenLines l level s os).outlines = os
  | [] => rfl
  | o :: rest => by
    rw [Outline.writtenLines, WrittenContents.outlines,
      Outline.outlines_written l (level + 1) hs _ o,
      Outline.outlines_writtenLines l level ((s.asSnippet_after _).trans hs) rest]
end

/-! ## What a tree says -/

mutual
/-- Whether an element of a tree says what an outline says: its name, its attributes in order, and
inside it the outlines of its children. -/
def Tree.Mirrors (t : Tree) : Outline → ElementNode → Prop
  | .element name attributes children, e =>
    e.element.tagName = name ∧ e.element.attributes.map Attribute.said = attributes ∧
      t.MirrorAll children (t.childElements e)

def Tree.MirrorAll (t : Tree) : List Outline → List ElementNode → Prop
  | [], es => es = []
  | o :: os, es => ∃ e more, es = e :: more ∧ t.Mirrors o e ∧ t.MirrorAll os more
end

lemma Tree.mirrorAll_iff (t : Tree) (os : List Outline) (es : List ElementNode) :
    t.MirrorAll os es ↔ List.Forall₂ t.Mirrors os es := by
  induction os generalizing es with
  | nil => rw [MirrorAll, List.forall₂_nil_left_iff]
  | cons o os ih =>
      rw [MirrorAll, List.forall₂_cons_left_iff]
      constructor
      · rintro ⟨e, more, rfl, hfirst, hmore⟩
        exact ⟨e, more, hfirst, (ih more).mp hmore, rfl⟩
      · rintro ⟨e, more, hfirst, hmore, rfl⟩
        exact ⟨e, more, rfl, hfirst, (ih more).mpr hmore⟩

lemma map_said_attributesFrom (o : Nat) (attributes : List WrittenAttribute) :
    (attributesFrom o attributes).map Attribute.said = attributes.map (·.said) := by
  induction attributes generalizing o with
  | nil => rfl
  | cons a more ih =>
      rw [attributesFrom, List.map_cons, ih, List.map_cons]
      rfl

lemma Tree.element?_of_node {t : Tree} {id : Nat} {parent : Option Nat} {span : Span}
    {element : Element}
    (h : t.nodes[id]? = some ⟨parent, span, .element element⟩) :
    t.element? id = some ⟨id, parent, span, element⟩ := by
  rw [element?, h]
  rfl

/-- **Where the nodes of contents stand in a tree, its elements say what the contents say.** -/
lemma WrittenContents.mirrorAll {t : Tree} (c : WrittenContents) {scope : List Binding}
    {parent : Option Nat}
    {id o : Nat} {behind : List Node}
    (h : t.nodes.toList.drop id = c.nodes scope parent id o ++ behind) :
    t.MirrorAll c.outlines ((c.ids id).filterMap t.element?) := by
  have hnode {i : Nat} {n : Node} {rest : List Node} (hdrop : t.nodes.toList.drop i = n :: rest) :
      t.nodes[i]? = some n ∧ t.nodes.toList.drop (i + 1) = rest := by
    constructor
    · rw [← Array.getElem?_toList, ← List.head?_drop, hdrop, List.head?_cons]
    · rw [← List.tail_drop, hdrop, List.tail_cons]
  induction c generalizing scope parent id o behind with
  | nil => rfl
  | leaf l more ih =>
      rw [nodes] at h
      rw [outlines, ids]
      cases hkind : l.kind? with
      | none =>
          rw [hkind] at h
          exact ih h
      | some kind =>
          rw [hkind] at h
          obtain ⟨hfirst, hrest⟩ := hnode h
          have hother : t.element? id = none := by
            rw [Tree.element?, hfirst]
            cases l <;> cases hkind <;> rfl
          show t.MirrorAll more.outlines ((id :: more.ids (id + 1)).filterMap t.element?)
          rw [List.filterMap_cons_none hother]
          exact ih hrest
  | emptied tag more ih =>
      obtain ⟨hfirst, hrest⟩ := hnode h
      rw [outlines, ids, List.filterMap_cons_some (Tree.element?_of_node hfirst)]
      exact ⟨_, _, rfl, ⟨rfl, map_said_attributesFrom _ _, rfl⟩, ih hrest⟩
  | element tag inner blanks more ihinner ihmore =>
      rw [nodes, List.cons_append, List.append_assoc] at h
      obtain ⟨hfirst, hrest⟩ := hnode h
      have hbehind := congrArg (List.drop inner.size) hrest
      rw [List.drop_drop, List.drop_left' (length_nodes ..)] at hbehind
      rw [outlines, ids, List.filterMap_cons_some (Tree.element?_of_node hfirst)]
      exact ⟨_, _, rfl, ⟨rfl, map_said_attributesFrom _ _, ihinner hrest⟩, ihmore hbehind⟩

/-! ## Reading what is generated -/

/-- Whether a name and attributes can be written as a tag, where names may have qualifiers. -/
def isQualifiedTag (name : String) (attributes : List (String × String)) : Bool :=
  isQualifiedName name && attributes.all (fun a => isQualifiedName a.1 && canBeQuoted a.2.toList) &&
    decide (attributes.map Prod.fst).Nodup

lemma Printing.isWellFormed_requalifiedAttributes (s : Printing)
    {attributes : List (String × String)}
    (h : attributes.all (fun a => isQualifiedName a.1 && canBeQuoted a.2.toList) = true) :
    ((s.writtenAttributes attributes).map (·.requalified)).all (·.isWellFormed) = true := by
  induction attributes generalizing s with
  | nil => rfl
  | cons a more ih =>
      rw [List.all_cons, Bool.and_eq_true, Bool.and_eq_true] at h
      obtain ⟨⟨hname, hvalue⟩, hmore⟩ := h
      have hquoted := s.canBeQuoted_field hvalue
      rw [canBeQuoted] at hquoted
      have hwritten : (QualifiedName.ofText (QualifiedName.mk none a.1).text).isWritten = true :=
        hname
      have hfirst : (s.writtenAttribute a).requalified.isWellFormed = true := by
        rw [writtenAttribute, WrittenAttribute.requalified, WrittenAttribute.isWellFormed,
          hquoted, hwritten]
        rfl
      rw [writtenAttributes, List.map_cons, List.all_cons, hfirst, ih _ hmore]
      rfl

lemma Printing.suits_isQualifiedTag : Suits isQualifiedTag fun t => t.requalified.isWellFormed := by
  intro s name attributes h
  simp only [isQualifiedTag, Bool.and_eq_true, decide_eq_true_eq] at h
  obtain ⟨⟨hname, hattributes⟩, hnodup⟩ := h
  have hnames : ((s.writtenAttributes attributes).map (·.requalified)).map (·.name.text) =
      attributes.map Prod.fst := by
    have hnames := congrArg (List.map QualifiedName.text) (s.names_writtenAttributes attributes)
    rw [List.map_map, List.map_map] at hnames
    simp only [List.map_map, Function.comp_def, WrittenAttribute.requalified,
      QualifiedName.text_ofText]
    exact hnames
  have hwritten : (QualifiedName.ofText (QualifiedName.mk none name).text).isWritten = true := hname
  show (WrittenTag.requalified _).isWellFormed = true
  rw [WrittenTag.requalified, WrittenTag.isWellFormed, hwritten, hnames, decide_eq_true hnodup,
    s.isWellFormed_requalifiedAttributes hattributes]
  rfl

/-- The text that is generated for an outline is read as the tree of what the outline is written
as. -/
lemma Outline.parse_eq {l : Layout} (hl : l.IsBlank) (level : Nat) {o : Outline}
    (h : o.everywhere isQualifiedTag = true) :
    Tree.parse (plainText (o.pieces l {} level none)).toList =
      (o.written l level ⟨false, 0, false⟩ .nil).requalified.tree := by
  have hchars : (plainText (o.pieces l {} level none)).toList =
      (o.written l level ⟨false, 0, false⟩ .nil).requalified.chars := by
    rw [WrittenContents.chars_requalified, Outline.chars_written, WrittenContents.chars,
      List.append_nil]
    exact Printing.chars_plainText 0 false _
  have hwell : (o.written l level ⟨false, 0, false⟩ .nil).requalified.isWellFormed = true := by
    rw [WrittenContents.isWellFormed_iff, WrittenContents.allTags_requalified,
      WrittenContents.isArranged_requalified]
    exact ⟨Outline.allTags_written Printing.suits_isQualifiedTag l level _ rfl o h,
      Outline.isArranged_written hl level _ rfl o⟩
  rw [hchars, Tree.parse_chars]
  cases o
  exact hwell

/-- **The text that is generated for an outline is read as one element that mirrors it**, if its
names and its defaults can be written. -/
theorem Outline.mirrors_parse {l : Layout} (hl : l.IsBlank) (level : Nat) {o : Outline}
    (h : o.everywhere isQualifiedTag = true) {t : Tree}
    (ht : t = Tree.parse (plainText (o.pieces l {} level none)).toList) :
    t.fault = none ∧ ∃ e, t.topLevel = [e.id] ∧ t.root? = some e ∧ t.Mirrors o e := by
  have houtlines : (o.written l level ⟨false, 0, false⟩ .nil).requalified.outlines = [o] := by
    rw [WrittenContents.outlines_requalified, Outline.outlines_written l level rfl]
    rfl
  obtain ⟨tag, inner, hwritten⟩ : ∃ tag inner,
      (o.written l level ⟨false, 0, false⟩ .nil).requalified = .element tag inner [] .nil := by
    cases o
    exact ⟨_, _, rfl⟩
  rw [Outline.parse_eq hl level h] at ht
  rw [hwritten] at ht houtlines
  have hnodes : t.nodes.toList.drop 0 =
      (WrittenContents.element tag inner [] .nil).nodes [] none 0 0 ++ [] := by
    rw [ht, List.append_nil]
    rfl
  have htop : t.topLevel = [0] := by
    rw [ht]
    rfl
  have hmirrors := WrittenContents.mirrorAll _ hnodes
  rw [houtlines] at hmirrors
  obtain ⟨e, more, hfirst, hmirrors, rfl⟩ := hmirrors
  obtain ⟨i, hi, helement⟩ : ∃ i ∈ [0], t.element? i = some e :=
    List.mem_filterMap.mp (hfirst ▸ List.mem_singleton_self e)
  obtain rfl := List.mem_singleton.mp hi
  refine ⟨by rw [ht]; rfl, e, ?_, ?_, hmirrors⟩
  · rw [htop, (Tree.element?_eq_some helement).1]
  · rw [Tree.root?, htop, List.findSome?_cons, helement]

/-! ## Names without namespaces -/

/-- Whether a tag has no qualifier at its name and binds no namespace. -/
def WrittenTag.isBare (t : WrittenTag) : Bool :=
  t.name.qualifier.isNone && t.attributes.all fun a => (bindingOf a.name a.value).isNone

/-- Whether a tag that is written for a name and attributes has no qualifier and binds no
namespace. -/
def isBareTag (name : String) (attributes : List (String × String)) : Bool :=
  (QualifiedName.ofText name).qualifier.isNone &&
    attributes.all fun a => (bindingOf (.ofText a.1) a.2).isNone

/-- Whether an attribute binds a namespace is a matter of its name. -/
lemma isNone_bindingOf (name : QualifiedName) (value value' : String) :
    (bindingOf name value).isNone = (bindingOf name value').isNone := by
  rw [bindingOf, bindingOf]
  split <;> split_ifs <;> rfl

lemma Printing.suits_isBareTag : Suits isBareTag fun t => t.requalified.isBare := by
  intro s name attributes h
  rw [isBareTag, Bool.and_eq_true] at h
  obtain ⟨hname, hattributes⟩ := h
  have hall : ((s.writtenAttributes attributes).map (·.requalified)).all
      (fun a => (bindingOf a.name a.value).isNone) = true := by
    clear hname
    induction attributes generalizing s with
    | nil => rfl
    | cons a more ih =>
        rw [List.all_cons, Bool.and_eq_true] at hattributes
        obtain ⟨hfirst, hmore⟩ := hattributes
        rw [isNone_bindingOf _ _ (s.text (.field a.2))] at hfirst
        rw [writtenAttributes, List.map_cons, List.all_cons, ih _ hmore, Bool.and_true]
        exact hfirst
  show (WrittenTag.isBare ⟨.ofText name, _, _⟩) = true
  rw [WrittenTag.isBare, hname, hall]
  rfl

lemma WrittenTag.scopeIn_of_isBare {t : WrittenTag} (h : t.isBare = true) (scope : List Binding) :
    t.scopeIn scope = scope := by
  obtain ⟨name, attributes, blanks⟩ := t
  rw [isBare, Bool.and_eq_true] at h
  replace h := h.2
  rw [scopeIn]
  dsimp only at h ⊢
  induction attributes with
  | nil => rfl
  | cons a more ih =>
      rw [List.all_cons, Bool.and_eq_true, Option.isNone_iff_eq_none] at h
      rw [List.foldl_cons, h.1]
      exact ih h.2

/-- An element whose tag is bare is in no namespace where none is bound. -/
lemma WrittenTag.namespaceUri_elementAt {t : WrittenTag} (h : t.isBare = true) (o : Nat)
    (children : List Nat)
    (endTagOpen : Option Nat) : (t.elementAt o [] children endTagOpen).namespaceUri = none ∧
      (t.elementAt o [] children endTagOpen).name.qualifier = none := by
  have hqualifier : t.name.qualifier = none := by
    rw [isBare, Bool.and_eq_true, Option.isNone_iff_eq_none] at h
    exact h.1
  refine ⟨?_, hqualifier⟩
  rw [elementAt, scopeIn_of_isBare h, hqualifier]
  rfl

/-- Where all tags are bare, no element is in a namespace. -/
lemma WrittenContents.namespaceUri_of_mem_nodes {c : WrittenContents}
    (h : c.allTags (·.isBare) = true)
    {parent : Option Nat} {id o : Nat} {n : Node} (hn : n ∈ c.nodes [] parent id o) {e : Element}
    (helement : n.element? = some e) : e.namespaceUri = none ∧ e.name.qualifier = none := by
  induction c generalizing parent id o with
  | nil => cases hn
  | leaf l more ih =>
      rcases List.mem_append.mp hn with hn | hn
      · obtain ⟨kind, hleaf, rfl⟩ := Option.map_eq_some_iff.mp (Option.mem_toList.mp hn)
        cases l <;> cases hleaf <;> cases helement
      · exact ih h hn
  | emptied tag more ih =>
      rw [allTags, Bool.and_eq_true] at h
      rcases List.mem_cons.mp hn with rfl | hn
      · cases helement
        exact tag.namespaceUri_elementAt h.1 ..
      · exact ih h.2 hn
  | element tag inner blanks more ihinner ihmore =>
      rw [allTags, Bool.and_eq_true, Bool.and_eq_true] at h
      obtain ⟨⟨htag, hinner⟩, hmore⟩ := h
      rw [nodes, tag.scopeIn_of_isBare htag] at hn
      rcases List.mem_cons.mp hn with rfl | hn
      · cases helement
        exact tag.namespaceUri_elementAt htag ..
      · rcases List.mem_append.mp hn with hn | hn
        · exact ihinner hinner hn
        · exact ihmore hmore hn

/-- Whether the elements of a tree have names without qualifiers and are in no namespace. -/
def Tree.IsBare (t : Tree) : Prop :=
  ∀ i e, t.element? i = some e → e.element.namespaceUri = none ∧ e.element.name.qualifier = none

/-- **Where no name has a qualifier and no attribute binds a namespace, what is generated is read as
elements without one.** -/
theorem Outline.isBare_parse {l : Layout} (hl : l.IsBlank) (level : Nat) {o : Outline}
    (h : o.everywhere isQualifiedTag = true) (hbare : o.everywhere isBareTag = true) {t : Tree}
    (ht : t = Tree.parse (plainText (o.pieces l {} level none)).toList) : t.IsBare := by
  intro i e he
  obtain ⟨n, hn, helement, -⟩ := (Tree.element?_eq_some he).2
  rw [Outline.parse_eq hl level h] at ht
  have htags : (o.written l level ⟨false, 0, false⟩ .nil).requalified.allTags
      (·.isBare) = true := by
    rw [WrittenContents.allTags_requalified]
    exact Outline.allTags_written Printing.suits_isBareTag l level _ rfl o hbare
  have hmem : n ∈ (o.written l level ⟨false, 0, false⟩ .nil).requalified.nodes [] none 0 0 := by
    rw [ht] at hn
    have hmem := Array.mem_of_getElem? hn
    rwa [WrittenContents.tree, List.mem_toArray] at hmem
  exact WrittenContents.namespaceUri_of_mem_nodes htags hmem helement

end XmlAdvisor
