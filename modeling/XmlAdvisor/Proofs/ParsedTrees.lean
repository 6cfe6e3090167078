import XmlAdvisor.Proofs.TreeShape
import XmlAdvisor.Proofs.WrittenTokens

/-!
# Reading back what is written

The tokens of what is written lead the builder to the nodes of what is written.  They are added
behind the nodes that there are, and the element around them gets more children; nothing else is
changed.

* `Builder.extend` — a builder with more nodes.
* **`Builder.foldl_tokens`** — contents extend a builder by their nodes.
* `WrittenContents.slice_nodes` — a node stands where its text does.
* **`Tree.parse_written`** — the tree of a document is the one that was written, and its nodes stand
  where they were written.
-/

namespace XmlAdvisor

open Scan (spanAt)

/-! ## More nodes -/

lemma modify_append_of_lt {α : Type} {xs ys : Array α} {i : Nat} (h : i < xs.size) (f : α → α) :
    (xs ++ ys).modify i f = xs.modify i f ++ ys := by
  refine Array.ext_getElem? fun j => ?_
  rw [Array.getElem?_modify, Array.getElem?_append, Array.getElem?_append, Array.size_modify,
    Array.getElem?_modify]
  split_ifs <;> first | rfl | omega

lemma modify_append_size {α : Type} (xs : Array α) (x : α) (more : List α) (f : α → α) :
    (xs ++ (x :: more).toArray).modify xs.size f = xs ++ (f x :: more).toArray := by
  refine Array.ext_getElem? fun j => ?_
  rw [Array.getElem?_modify, Array.getElem?_append, Array.getElem?_append]
  split_ifs with hj hlt hlt
  · omega
  · subst hj
    simp
  · rfl
  · obtain ⟨k, hk⟩ : ∃ k, j - xs.size = k + 1 := ⟨j - xs.size - 1, by omega⟩
    simp [hk]

/-- An element with more children. -/
def Element.withChildren (ids : List Nat) (e : Element) : Element :=
  { e with children := e.children ++ ids }

namespace Builder

variable {b : Builder}

/-- The element around what comes next, if there is one. -/
def parent? (b : Builder) : Option Nat :=
  b.opened.head?.map (·.id)

/-- A builder with more nodes, some of which are inside the innermost open element. -/
def extend (b : Builder) (new : List Node) (ids : List Nat) : Builder :=
  match b.parent? with
  | none => { b with nodes := b.nodes ++ new.toArray, topLevel := b.topLevel ++ ids }
  | some p =>
    { b with nodes := b.nodes.modify p (Node.changeElement (Element.withChildren ids)) ++
      new.toArray }

/-- Whether the element around what comes next is one of the nodes. -/
def Founded (b : Builder) : Prop :=
  ∀ p ∈ b.parent?, p < b.nodes.size

@[simp] lemma opened_extend (new : List Node) (ids : List Nat) :
    (b.extend new ids).opened = b.opened := by
  rw [extend]
  split <;> rfl

@[simp] lemma scope_extend (new : List Node) (ids : List Nat) :
    (b.extend new ids).scope = b.scope := by
  rw [extend]
  split <;> rfl

@[simp] lemma pending_extend (new : List Node) (ids : List Nat) :
    (b.extend new ids).pending = b.pending := by
  rw [extend]
  split <;> rfl

@[simp] lemma parent?_extend (new : List Node) (ids : List Nat) :
    (b.extend new ids).parent? = b.parent? := by
  rw [parent?, opened_extend, parent?]

@[simp] lemma size_extend (new : List Node) (ids : List Nat) :
    (b.extend new ids).nodes.size = b.nodes.size + new.length := by
  rw [extend]
  split <;> simp

lemma Founded.extend (h : b.Founded) (new : List Node) (ids : List Nat) :
    (b.extend new ids).Founded := by
  intro p hp
  rw [parent?_extend] at hp
  have hlt := h p hp
  rw [size_extend]
  omega

lemma extend_nil (b : Builder) : b.extend [] [] = b := by
  have hkeep (n : Node) : n.changeElement (Element.withChildren []) = n := by
    rw [Node.changeElement]
    split
    · rename_i e hkind
      simp [Element.withChildren, ← hkind]
    · rfl
  rw [extend]
  split
  · simp
  · rename_i p hp
    have hsame : b.nodes.modify p (Node.changeElement (Element.withChildren [])) = b.nodes := by
      refine Array.ext_getElem? fun j => ?_
      rw [Array.getElem?_modify]
      split_ifs
      · cases b.nodes[j]? <;> simp [hkeep]
      · rfl
    simp [hsame]

lemma extend_of_none (h : b.parent? = none) (new : List Node) (ids : List Nat) :
    b.extend new ids =
      { b with nodes := b.nodes ++ new.toArray, topLevel := b.topLevel ++ ids } := by
  rw [extend, h]

lemma extend_of_some {p : Nat} (h : b.parent? = some p) (new : List Node) (ids : List Nat) :
    b.extend new ids = { b with
      nodes := b.nodes.modify p (Node.changeElement (Element.withChildren ids)) ++
        new.toArray } := by
  rw [extend, h]

lemma changeElement_withChildren (ids ids' : List Nat) (n : Node) :
    (n.changeElement (Element.withChildren ids)).changeElement (Element.withChildren ids') =
      n.changeElement (Element.withChildren (ids ++ ids')) := by
  obtain ⟨parent, span, kind⟩ := n
  cases kind <;> simp [Node.changeElement, Element.withChildren]

/-- More nodes and then some more. -/
lemma extend_extend (h : b.Founded) (new new' : List Node) (ids ids' : List Nat) :
    (b.extend new ids).extend new' ids' = b.extend (new ++ new') (ids ++ ids') := by
  have hparent := parent?_extend (b := b) new ids
  cases hp : b.parent? with
  | none =>
      rw [hp] at hparent
      rw [extend_of_none hparent, extend_of_none hp, extend_of_none hp]
      simp
  | some p =>
      rw [hp] at hparent
      have hlt : p < (b.nodes.modify p (Node.changeElement (Element.withChildren ids))).size := by
        rw [Array.size_modify]
        exact h p hp
      rw [extend_of_some hparent, extend_of_some hp, extend_of_some hp]
      dsimp only
      rw [modify_append_of_lt hlt]
      have hmodify : (b.nodes.modify p (Node.changeElement (Element.withChildren ids))).modify p
          (Node.changeElement (Element.withChildren ids')) =
          b.nodes.modify p (Node.changeElement (Element.withChildren (ids ++ ids'))) := by
        refine Array.ext_getElem? fun j => ?_
        simp only [Array.getElem?_modify]
        split_ifs
        · cases b.nodes[j]? <;> simp [changeElement_withChildren]
        · rfl
      simp [hmodify]

/-- What is added inside the innermost open element is one node more. -/
lemma push_eq_extend (h : b.Founded) (kind : NodeKind) (span : Span) :
    b.push kind span = b.extend [⟨b.parent?, span, kind⟩] [b.nodes.size] := by
  cases ho : b.opened with
  | nil =>
      have hp : b.parent? = none := by rw [parent?, ho]; rfl
      rw [extend_of_none hp, push, ho, hp]
      simp
  | cons p outer =>
      have hp : b.parent? = some p.id := by rw [parent?, ho]; rfl
      rw [extend_of_some hp, push, ho, hp]
      dsimp only
      rw [onElement_eq, onNode]
      dsimp only
      rw [Array.push_eq_append, modify_append_of_lt (h p.id hp)]
      rfl

/-- The first of the new nodes is changed. -/
lemma onNode_extend (x : Node) (more : List Node) (ids : List Nat) (f : Node → Node) :
    (b.extend (x :: more) ids).onNode b.nodes.size f = b.extend (f x :: more) ids := by
  cases hp : b.parent? with
  | none =>
      rw [extend_of_none hp, extend_of_none hp, onNode]
      dsimp only
      rw [modify_append_size]
  | some p =>
      have hsize : b.nodes.size =
          (b.nodes.modify p (Node.changeElement (Element.withChildren ids))).size := by
        rw [Array.size_modify]
      rw [extend_of_some hp, extend_of_some hp, onNode]
      dsimp only
      rw [hsize, modify_append_size]

/-! ## Tags -/

/-- A builder with more nodes that has gone on from where it was: the first of them is an element,
whose tag it is in, or whose contents. -/
def entered (b : Builder) (pending : Option OpenElement) (opened : List OpenElement)
    (scope : List Binding) (new : List Node) : Builder :=
  { b.extend new [b.nodes.size] with pending, opened, scope }

lemma onNode_entered (pending : Option OpenElement) (opened : List OpenElement)
    (scope : List Binding)
    (x : Node) (more : List Node) (f : Node → Node) :
    (b.entered pending opened scope (x :: more)).onNode b.nodes.size f =
      b.entered pending opened scope (f x :: more) :=
  congrArg (fun b' : Builder => { b' with pending, opened, scope }) (onNode_extend x more _ f)

lemma onElement_entered (pending : Option OpenElement) (opened : List OpenElement)
    (scope : List Binding)
    (parent : Option Nat) (span : Span) (e : Element) (more : List Node) (f : Element → Element) :
    (b.entered pending opened scope (⟨parent, span, .element e⟩ :: more)).onElement b.nodes.size f =
      b.entered pending opened scope (⟨parent, span, .element (f e)⟩ :: more) := by
  rw [onElement_eq, onNode_entered]
  rfl

lemma endAt_entered (pending : Option OpenElement) (opened : List OpenElement)
    (scope : List Binding)
    (x : Node) (more : List Node) (stop : Nat) :
    (b.entered pending opened scope (x :: more)).endAt b.nodes.size stop =
      b.entered pending opened scope ({ x with span.stop := stop } :: more) := by
  rw [endAt, onNode_entered]

/-- More of the new nodes. -/
lemma entered_append (pending : Option OpenElement) (opened : List OpenElement)
    (scope : List Binding)
    (new more : List Node) : b.entered pending opened scope (new ++ more) =
      { b.entered pending opened scope new with
        nodes := (b.entered pending opened scope new).nodes ++ more.toArray } := by
  rw [entered, entered]
  cases hp : b.parent? with
  | none =>
      rw [extend_of_none hp, extend_of_none hp]
      simp
  | some p =>
      rw [extend_of_some hp, extend_of_some hp]
      simp

/-- Without a tag, and with nothing open but what was, more nodes are all there is. -/
lemma entered_eq_extend (hpending : b.pending = none) (new : List Node) :
    b.entered none b.opened b.scope new = b.extend new [b.nodes.size] := by
  have hsame (b' : Builder) (hp : b'.pending = none) (ho : b'.opened = b.opened)
      (hs : b'.scope = b.scope) :
      ({ b' with pending := none, opened := b.opened, scope := b.scope } : Builder) = b' := by
    rw [← hp, ← ho, ← hs]
  exact hsame _ (by rw [pending_extend, hpending]) (opened_extend ..) (scope_extend ..)

/-- What is known of an element that is open, or whose tag is. -/
def opening (b : Builder) (name : QualifiedName) : OpenElement :=
  ⟨b.nodes.size, name.text, b.scope⟩

/-- A builder inside a start tag, whose element is one of its nodes already. -/
def inTag (b : Builder) (name : QualifiedName) (span : Span) (attributes : List Attribute)
    (scope : List Binding) : Builder :=
  b.entered (some (b.opening name)) b.opened scope
    [⟨b.parent?, span, .element ⟨name, none, attributes, [], none, none, false⟩⟩]

lemma openTag_eq (h : b.Founded) (name : QualifiedName) (span : Span) :
    b.openTag name span = b.inTag name span [] b.scope := by
  rw [openTag, push_eq_extend h, inTag, entered]
  simp only [scope_extend, opened_extend]
  rfl

/-- An attribute is put to those before it. -/
lemma addAttribute_inTag (name key : QualifiedName) (value : String)
    (span nameSpan valueSpan keySpan : Span) (attributes : List Attribute) (scope : List Binding) :
    (b.inTag name span attributes scope).addAttribute key value nameSpan valueSpan keySpan =
      b.inTag name { span with stop := max span.stop keySpan.stop }
        (putAttribute ⟨key.text, value, nameSpan, valueSpan⟩ attributes)
        ((bindingOf key value).toList ++ scope) := by
  show ((b.entered _ _ ((bindingOf key value).toList ++ scope) [_]).onNode b.nodes.size _).onElement
    b.nodes.size _ = _
  rw [onNode_entered, onElement_entered]
  rfl

/-- A builder inside an element, whose node comes before those of its contents. -/
def inElement (b : Builder) (name : QualifiedName) (span : Span) (e : Element)
    (scope : List Binding)
    (inner : List Node) : Builder :=
  b.entered none (b.opening name :: b.opened) scope (⟨b.parent?, span, .element e⟩ :: inner)

lemma resolve_inTag (name : QualifiedName) (span : Span) (attributes : List Attribute)
    (scope : List Binding) : (b.inTag name span attributes scope).resolve b.nodes.size =
      b.entered (some (b.opening name)) b.opened scope [⟨b.parent?, span, .element ⟨name,
        namespaceIn scope name.qualifier, attributes, [], none, none, false⟩⟩] := by
  rw [resolve, inTag, onElement_entered]
  rfl

/-- The end of a start tag leads into the element. -/
lemma closeTag_inTag (name : QualifiedName) (span close : Span) (attributes : List Attribute)
    (scope : List Binding) : (b.inTag name span attributes scope).closeTag close =
      b.inElement name ⟨span.start, close.stop⟩
      ⟨name, namespaceIn scope name.qualifier, attributes, [],
        some close.start, none, false⟩ scope [] := by
  show { ((((b.inTag name span attributes scope).resolve b.nodes.size).endAt b.nodes.size
    close.stop).onElement b.nodes.size fun e => { e with startTagClose := some close.start }) with
      pending := none, opened := b.opening name :: b.opened } = _
  rw [resolve_inTag, endAt_entered, onElement_entered]
  rfl

/-- The end of an element without content leads back to what is around it. -/
lemma selfCloseTag_inTag (hpending : b.pending = none) (name : QualifiedName) (span close : Span)
    (attributes : List Attribute) (scope : List Binding) :
    (b.inTag name span attributes scope).selfCloseTag close =
      b.extend [⟨b.parent?, ⟨span.start, close.stop⟩,
        .element ⟨name, namespaceIn scope name.qualifier,
        attributes, [], some (close.stop - 1), none, true⟩⟩] [b.nodes.size] := by
  show { ((((b.inTag name span attributes scope).resolve b.nodes.size).endAt b.nodes.size
    close.stop).onElement b.nodes.size fun e =>
      { e with startTagClose := some (close.stop - 1), selfClosed := true }) with
      pending := none, scope := b.scope } = _
  rw [resolve_inTag, endAt_entered, onElement_entered, ← entered_eq_extend hpending]
  rfl

/-- The end tag of an element leads back to what is around it. -/
lemma endTag_inElement (hpending : b.pending = none) (name : QualifiedName) (span close : Span)
    (e : Element) (scope : List Binding) (inner : List Node) :
    (b.inElement name span e scope inner).endTag name close =
      b.extend (⟨b.parent?, ⟨span.start, close.stop⟩,
        .element { e with endTagOpen := some close.start }⟩ :: inner) [b.nodes.size] := by
  have hopened : (b.inElement name span e scope inner).opened = b.opening name :: b.opened := rfl
  have hname : ((b.opening name).tag != name.text) = false := by simp [opening]
  rw [endTag, hopened, List.dropWhile_cons_of_neg (by simp [hname]),
    List.takeWhile_cons_of_neg (by simp [hname])]
  show { (((b.inElement name span e scope inner).endAt b.nodes.size close.stop).onElement
    b.nodes.size fun e => { e with endTagOpen := some close.start }) with
    opened := b.opened, scope := b.scope } = _
  rw [inElement, endAt_entered, onElement_entered, ← entered_eq_extend hpending]
  rfl

/-! ## Contents -/

/-- Contents that are added inside an element become its children. -/
lemma extend_inElement (name : QualifiedName) (span : Span) (e : Element) (scope : List Binding)
    (inner new : List Node) (ids : List Nat) :
    (b.inElement name span e scope inner).extend new ids =
      b.inElement name span (e.withChildren ids) scope (inner ++ new) := by
  have hparent : (b.inElement name span e scope inner).parent? = some b.nodes.size := rfl
  rw [extend_of_some hparent]
  show { (b.inElement name span e scope inner).onNode b.nodes.size
    (Node.changeElement (Element.withChildren ids)) with
      nodes := ((b.inElement name span e scope inner).onNode b.nodes.size
        (Node.changeElement (Element.withChildren ids))).nodes ++ new.toArray } = _
  rw [inElement, onNode_entered, inElement, ← List.cons_append, entered_append]
  rfl

lemma size_inElement (name : QualifiedName) (span : Span) (e : Element) (scope : List Binding)
    (inner : List Node) :
    (b.inElement name span e scope inner).nodes.size = b.nodes.size + (inner.length + 1) :=
  size_extend ..

lemma founded_inElement (name : QualifiedName) (span : Span) (e : Element) (scope : List Binding)
    (inner : List Node) : (b.inElement name span e scope inner).Founded := by
  rintro p ⟨⟩
  rw [size_inElement]
  exact Nat.lt_add_of_pos_right (Nat.succ_pos _)

/-- An attribute of a name that is not there yet comes last. -/
lemma putAttribute_of_notMem {a : Attribute} {attributes : List Attribute}
    (h : a.name ∉ attributes.map (·.name)) : putAttribute a attributes = attributes ++ [a] := by
  induction attributes with
  | nil => rfl
  | cons d more ih =>
      rw [List.map_cons, List.mem_cons, not_or] at h
      rw [putAttribute, if_neg (Ne.symm h.1), ih h.2, List.cons_append]

/-- The attributes of a tag are added to its element in their order. -/
lemma foldl_attributeTokens (text : List Char) (name : QualifiedName) (span : Span)
    (before : List Attribute) (scope : List Binding) (o : Nat) (attributes : List WrittenAttribute)
    (h : (before.map (·.name) ++ attributes.map (·.name.text)).Nodup) :
    ∃ stop, (attributeTokens o attributes).foldl (step text) (b.inTag name span before scope) =
      b.inTag name { span with stop } (before ++ attributesFrom o attributes)
        (attributes.foldl (fun scope a => (bindingOf a.name a.value).toList ++ scope) scope) := by
  induction attributes generalizing span before scope o with
  | nil => exact ⟨span.stop, by rw [attributesFrom, List.append_nil]; rfl⟩
  | cons a more ih =>
      have hnew : a.name.text ∉ before.map (·.name) := by
        intro hmem
        exact (List.nodup_append.mp h).2.2 _ hmem _ (List.mem_cons_self ..) rfl
      have hstep : step text (b.inTag name span before scope) (a.tokenAt o) =
          b.inTag name { span with stop := max span.stop (o + a.chars.length) }
            (before ++ [a.attributeAt o]) ((bindingOf a.name a.value).toList ++ scope) := by
        rw [WrittenAttribute.tokenAt, step, addAttribute_inTag, putAttribute_of_notMem hnew]
        rfl
      obtain ⟨stop, hmore⟩ := ih { span with stop := max span.stop (o + a.chars.length) }
        (before ++ [a.attributeAt o]) ((bindingOf a.name a.value).toList ++ scope)
        (o + a.chars.length)
        (by simpa [WrittenAttribute.attributeAt] using h)
      refine ⟨stop, ?_⟩
      rw [attributeTokens, List.foldl_cons, hstep, hmore, attributesFrom, List.append_assoc]
      rfl

/-- The tokens of a tag lead into it. -/
lemma foldl_tagTokens (hfounded : b.Founded) (text : List Char) {tag : WrittenTag}
    (h : tag.isWellFormed = true) (o : Nat) :
    ∃ stop, (tag.tokens o).foldl (step text) b = b.inTag tag.name ⟨o, stop⟩
      (attributesFrom (tag.attributesStart o) tag.attributes) (tag.scopeIn b.scope) := by
  simp only [WrittenTag.isWellFormed, Bool.and_eq_true, decide_eq_true_eq] at h
  obtain ⟨stop, hattributes⟩ := foldl_attributeTokens (b := b) text tag.name
    (spanAt o ('<' :: tag.name.text.toList)) [] b.scope (tag.attributesStart o) tag.attributes h.1.2
  refine ⟨stop, ?_⟩
  rw [WrittenTag.tokens, List.foldl_cons, step, openTag_eq hfounded, hattributes, List.nil_append]
  rfl

end Builder

namespace WrittenContents

/-- Whether all tags are of some sort. -/
def allTags (p : WrittenTag → Bool) : WrittenContents → Bool
  | .nil => true
  | .leaf _ more => more.allTags p
  | .emptied tag more => p tag && more.allTags p
  | .element tag inner _ more => p tag && inner.allTags p && more.allTags p

lemma allTags_of_isWellFormed {c : WrittenContents} (h : c.isWellFormed = true) :
    c.allTags (·.isWellFormed) = true := by
  induction c with
  | nil => rfl
  | leaf l more ih =>
      simp only [isWellFormed, Bool.and_eq_true] at h
      exact ih h.2
  | emptied tag more ih =>
      simp only [isWellFormed, Bool.and_eq_true] at h
      simp only [allTags, Bool.and_eq_true]
      exact ⟨h.1, ih h.2⟩
  | element tag inner blanks more ihinner ihmore =>
      simp only [isWellFormed, Bool.and_eq_true] at h
      simp only [allTags, Bool.and_eq_true]
      exact ⟨⟨h.1.1.1, ihinner h.1.1.2⟩, ihmore h.2⟩

lemma allTags_of_isEpilog {c : WrittenContents} (h : c.isEpilog = true) :
    c.allTags (·.isWellFormed) = true := by
  induction c with
  | nil => rfl
  | leaf l more ih =>
      simp only [isEpilog, Bool.and_eq_true] at h
      exact ih h.2
  | emptied tag more => cases h
  | element tag inner blanks more => cases h

lemma allTags_of_isDocument {c : WrittenContents} (h : c.isDocument = true) :
    c.allTags (·.isWellFormed) = true := by
  induction c with
  | nil => rfl
  | leaf l more ih =>
      simp only [isDocument, Bool.and_eq_true] at h
      exact ih h.2
  | emptied tag more =>
      simp only [isDocument, Bool.and_eq_true] at h
      simp only [allTags, Bool.and_eq_true]
      exact ⟨h.1, allTags_of_isEpilog h.2⟩
  | element tag inner blanks more =>
      simp only [isDocument, Bool.and_eq_true] at h
      simp only [allTags, Bool.and_eq_true]
      exact ⟨⟨h.1.1.1, allTags_of_isWellFormed h.1.1.2⟩, allTags_of_isEpilog h.2⟩

lemma length_nodes (scope : List Binding) (parent : Option Nat) (id o : Nat) (c : WrittenContents) :
    (c.nodes scope parent id o).length = c.size := by
  induction c generalizing scope parent id o with
  | nil => rfl
  | leaf l more ih =>
      rw [nodes, List.length_append, ih, size]
      cases l.kind? <;> rfl
  | emptied tag more ih =>
      rw [nodes, List.length_cons, ih, size, Nat.add_comm]
  | element tag inner blanks more ihinner ihmore =>
      rw [nodes, List.length_cons, List.length_append, ihinner, ihmore, size]
      omega

end WrittenContents

namespace Builder

variable {b : Builder}

/-- **Contents extend a builder by their nodes.** -/
theorem foldl_tokens (text : List Char) {c : WrittenContents}
    (h : c.allTags (·.isWellFormed) = true)
    (hfounded : b.Founded) (hpending : b.pending = none) (o : Nat) :
    (c.tokens o).foldl (step text) b =
      b.extend (c.nodes b.scope b.parent? b.nodes.size o) (c.ids b.nodes.size) := by
  induction c generalizing b o with
  | nil => exact (extend_nil b).symm
  | leaf l more ih =>
      rw [WrittenContents.tokens, List.foldl_append]
      have hleaf : (l.token? o).toList.foldl (step text) b =
          b.extend (l.kind?.map fun kind => ⟨b.parent?, spanAt o l.chars, kind⟩).toList
            (l.kind?.map fun _ => b.nodes.size).toList := by
        cases l with
        | blanks cs => exact (extend_nil b).symm
        | _ => exact push_eq_extend hfounded _ _
      rw [hleaf, ih h (hfounded.extend _ _) (by rw [pending_extend, hpending]),
        extend_extend hfounded,
        WrittenContents.nodes, WrittenContents.ids]
      have hlength : (l.kind?.map fun kind =>
          Node.mk b.parent? (spanAt o l.chars) kind).toList.length =
          l.kind?.toList.length := by cases l.kind? <;> rfl
      rw [scope_extend, parent?_extend, size_extend, hlength]
  | emptied tag more ih =>
      simp only [WrittenContents.allTags, Bool.and_eq_true] at h
      obtain ⟨stop, htag⟩ := foldl_tagTokens hfounded text h.1 o
      rw [WrittenContents.tokens_emptied, List.foldl_append, List.foldl_append, htag,
        List.foldl_cons,
        List.foldl_nil, step, selfCloseTag_inTag hpending,
        ih h.2 (hfounded.extend _ _) (by rw [pending_extend, hpending]), extend_extend hfounded,
        scope_extend, parent?_extend, size_extend]
      rfl
  | element tag inner blanks more ihinner ihmore =>
      simp only [WrittenContents.allTags, Bool.and_eq_true] at h
      obtain ⟨⟨htag, hinner⟩, hmore⟩ := h
      obtain ⟨stop, htag⟩ := foldl_tagTokens hfounded text htag o
      have hcount : b.nodes.size + (inner.size + 1) = b.nodes.size + 1 + inner.size := by omega
      simp only [WrittenContents.tokens_element, List.foldl_append, List.foldl_cons,
        List.foldl_nil, htag,
        step]
      rw [closeTag_inTag, ihinner hinner (founded_inElement _ _ _ _ _) rfl, extend_inElement,
        size_inElement, endTag_inElement hpending,
        ihmore hmore (hfounded.extend _ _) (by rw [pending_extend, hpending]),
        extend_extend hfounded,
        scope_extend, parent?_extend, size_extend, List.nil_append, List.length_cons,
        WrittenContents.length_nodes, hcount]
      rfl

end Builder

/-! ## Where the nodes stand -/

lemma slice_spanAt {text : List Char} (before cs behind : List Char)
    (h : text = before ++ (cs ++ behind)) :
    (spanAt before.length cs).slice text = String.ofList cs := by
  rw [Span.slice, sliceChars, spanAt, h]
  simp

namespace WrittenContents

/-- **A node stands where its text does.** -/
lemma slice_nodes (c : WrittenContents) (scope : List Binding) (parent : Option Nat) (id o : Nat)
    {text : List Char} (before behind : List Char) (h : text = before ++ (c.chars ++ behind))
    (ho : o = before.length) :
    ((c.nodes scope parent id o).map fun n => n.span.slice text) = c.pieces.map String.ofList := by
  induction c generalizing scope parent id o before behind with
  | nil => rfl
  | leaf l more ih =>
      subst ho
      rw [chars, List.append_assoc] at h
      have hleaf := slice_spanAt before l.chars (more.chars ++ behind) h
      have hmore := ih scope parent (id + l.kind?.toList.length) (before.length + l.chars.length)
        (before ++ l.chars) behind (by rw [h, List.append_assoc]) (List.length_append ..).symm
      rw [nodes, pieces, List.map_append, List.map_append, hmore]
      cases l.kind? with
      | none => rfl
      | some kind => exact congrArg (· :: more.pieces.map String.ofList) hleaf
  | emptied tag more ih =>
      subst ho
      have htag := slice_spanAt before (tag.opening ++ ['/', '>']) (more.chars ++ behind)
        (by simpa [chars] using h)
      have hmore := ih scope parent (id + 1) (before.length + tag.opening.length + 2)
        (before ++ (tag.opening ++ ['/', '>'])) behind (by simpa [chars] using h) (by simp; omega)
      rw [nodes, pieces, List.map_cons, List.map_cons, hmore]
      refine congrArg (· :: more.pieces.map String.ofList) ?_
      rw [← htag, spanAt, List.length_append, ← Nat.add_assoc]
      rfl
  | element tag inner blanks more ihinner ihmore =>
      subst ho
      have htag := slice_spanAt before (tag.opening ++ '>' :: (inner.chars ++ tag.ending blanks))
        (more.chars ++ behind) (by simpa [chars] using h)
      have hinner := ihinner (tag.scopeIn scope) (some id) (id + 1) (innerStart tag before.length)
        (before ++ (tag.opening ++ ['>'])) (tag.ending blanks ++ (more.chars ++ behind))
        (by simpa [chars] using h) (by simp [innerStart]; omega)
      have hmore := ihmore scope parent (id + 1 + inner.size)
        (innerStop tag inner before.length + (tag.ending blanks).length)
        (before ++ (tag.opening ++ '>' :: (inner.chars ++ tag.ending blanks))) behind
        (by simpa [chars] using h) (by simp [innerStop, innerStart]; omega)
      have hspan : spanAt before.length (tag.opening ++ '>' :: (inner.chars ++ tag.ending blanks)) =
          ⟨before.length, innerStop tag inner before.length + (tag.ending blanks).length⟩ := by
        simp only [innerStop, innerStart, List.length_append, List.length_cons,
          Span.mk.injEq, true_and]
        omega
      rw [hspan] at htag
      rw [nodes, pieces, List.map_cons, List.map_cons, List.map_append, List.map_append,
        ← hinner, ← hmore,
        ← htag]
      rfl

end WrittenContents

/-- The tree of a document is the one that was written. -/
lemma Tree.parse_chars {c : WrittenContents} (h : c.isDocument = true) :
    Tree.parse c.chars = c.tree := by
  have hfounded : Builder.empty.Founded := by
    rintro p ⟨⟩
  rw [Tree.parse, WrittenContents.scanAll_chars h]
  dsimp only
  rw [Builder.foldl_tokens c.chars (WrittenContents.allTags_of_isDocument h) hfounded rfl,
    Builder.extend_of_none rfl]
  show Tree.mk _ (#[] ++ _) ([] ++ _) none none = _
  rw [Array.empty_append, List.nil_append]
  rfl

/-- **Reading a document gives back the tree that was written**: its nodes in the order in which
they begin, with what they are inside and what is inside them, and each at the place where it was
written. -/
theorem Tree.parse_written (c : WrittenContents) (h : c.isDocument = true) :
    Tree.parse c.chars = c.tree ∧
      (c.tree.nodes.toList.map fun n => n.span.slice c.chars) = c.pieces.map String.ofList :=
  ⟨Tree.parse_chars h, c.slice_nodes [] none 0 0 [] [] (by simp) rfl⟩

/-- A document with elements of one name inside each other, and with all that can stand in it. -/
def writtenSample : WrittenContents :=
  .leaf (.comment "c") <| .leaf (.blanks ['\n']) <|
    .element ⟨⟨some "p", "a"⟩, [⟨[' '], ⟨some "xmlns", "p"⟩, [' '], [], '\'', "u"⟩,
      ⟨[' '], ⟨none, "é"⟩, [], [], '"', "it's > €"⟩], [' ']⟩
      (.leaf (.text "€ ") <| .element ⟨⟨some "p", "a"⟩, [], []⟩ (.leaf (.cdata "<&]]") .nil) [] <|
        .leaf (.instruction "t" [' '] "?") <| .emptied ⟨⟨none, "a"⟩, [], [' ']⟩ .nil)
      ['\n'] .nil

theorem Tree.parse_writtenSample : Tree.parse writtenSample.chars = writtenSample.tree ∧
    String.ofList writtenSample.chars = "<!--c-->\n" ++ "<p:a xmlns:p ='u' é=\"it's > €\" >" ++
      "€ <p:a><![CDATA[<&]]]]></p:a><?t ??><a /></p:a\n>" :=
  ⟨(Tree.parse_written writtenSample (by decide +kernel)).1, by decide +kernel⟩

end XmlAdvisor
