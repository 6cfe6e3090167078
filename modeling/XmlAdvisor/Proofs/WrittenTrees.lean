import XmlAdvisor.Tree.Build
import Mathlib.Tactic.Lemma
import Mathlib.Tactic.SplitIfs

/-!
# Trees as they are written

A tree can be written in many ways: with blanks inside its tags, with either kind of quotation mark,
with or without an end tag where an element is empty.  What is written is described here together
with these choices, so that its text is determined, and so is the tree that has to be read from that
text.

**Contents** are what follows one another inside an element, or at the top of a document.  They go
on to the next sibling as a list does, and into an element as a tree does.

* `WrittenContents.chars` — the characters of what is written.
* `WrittenContents.isWellFormed`, `isDocument` — whether it can be written so inside an element, or
  as a document.
* `WrittenContents.nodes`, `tree` — its nodes in the order in which they begin, and the tree of
  them.
* `WrittenContents.pieces` — the texts of its nodes.
-/

namespace XmlAdvisor

/-! ## What is written -/

/-- Whether the characters can stand as one part of a name. -/
def isNamePart (cs : List Char) : Bool :=
  cs.head?.any isNameStart && cs.all isNameChar && !cs.contains ':'

/-- Whether a name can be written: its parts begin as names do and have no colon. -/
def QualifiedName.isWritten (n : QualifiedName) : Bool :=
  isNamePart n.localName.toList && n.qualifier.all fun q => isNamePart q.toList

/-- An attribute and the blanks around it: those before its name, and those around the equals
sign. -/
structure WrittenAttribute where
  blanks : List Char
  name : QualifiedName
  beforeEquals : List Char
  afterEquals : List Char
  mark : Char
  value : String
  deriving DecidableEq, Repr

/-- A start tag up to its end, or an element without content up to its end. -/
structure WrittenTag where
  name : QualifiedName
  attributes : List WrittenAttribute
  blanks : List Char
  deriving DecidableEq, Repr

/-- What has nothing inside. -/
inductive WrittenLeaf
  | text (content : String)
  | cdata (content : String)
  | comment (content : String)
  /-- Data that is empty is absent. -/
  | instruction (target : String) (gap : List Char) (data : String)
  /-- Blanks outside the document element, which are no text. -/
  | blanks (cs : List Char)
  deriving DecidableEq, Repr

/-- What follows one another inside an element, or at the top of a document. -/
inductive WrittenContents
  | nil
  | leaf (l : WrittenLeaf) (more : WrittenContents)
  /-- An element that ends where its start tag does. -/
  | emptied (tag : WrittenTag) (more : WrittenContents)
  /-- An element with an end tag, and the blanks in that. -/
  | element (tag : WrittenTag) (inner : WrittenContents) (blanks : List Char)
      (more : WrittenContents)
  deriving DecidableEq, Repr

/-! ## Its characters -/

namespace WrittenAttribute

def chars (a : WrittenAttribute) : List Char :=
  a.blanks ++ (a.name.text.toList ++ (a.beforeEquals ++
    '=' :: (a.afterEquals ++ a.mark :: (a.value.toList ++ [a.mark]))))

end WrittenAttribute

namespace WrittenTag

/-- A tag without the `>` or `/>` at its end. -/
def opening (t : WrittenTag) : List Char :=
  '<' :: (t.name.text.toList ++ (t.attributes.flatMap (·.chars) ++ t.blanks))

/-- The end tag that goes with a start tag. -/
def ending (t : WrittenTag) (blanks : List Char) : List Char :=
  ['<', '/'] ++ (t.name.text.toList ++ (blanks ++ ['>']))

end WrittenTag

def WrittenLeaf.chars : WrittenLeaf → List Char
  | .text content => content.toList
  | .cdata content =>
    ['<', '!', '[', 'C', 'D', 'A', 'T', 'A', '['] ++ (content.toList ++ [']', ']', '>'])
  | .comment content => ['<', '!', '-', '-'] ++ (content.toList ++ ['-', '-', '>'])
  | .instruction target gap data =>
    ['<', '?'] ++ (target.toList ++ (gap ++ (data.toList ++ ['?', '>'])))
  | .blanks cs => cs

def WrittenContents.chars : WrittenContents → List Char
  | .nil => []
  | .leaf l more => l.chars ++ more.chars
  | .emptied tag more => tag.opening ++ '/' :: '>' :: more.chars
  | .element tag inner blanks more =>
    tag.opening ++ '>' :: (inner.chars ++ (tag.ending blanks ++ more.chars))

/-! ## What can be written -/

/-- Whether an attribute can be written: its value has neither its quotation mark nor a `<`. -/
def WrittenAttribute.isWellFormed (a : WrittenAttribute) : Bool :=
  !a.blanks.isEmpty && a.blanks.all isXmlSpace && a.name.isWritten &&
    a.beforeEquals.all isXmlSpace &&
    a.afterEquals.all isXmlSpace && (a.mark == '\'' || a.mark == '"') &&
    a.value.toList.all fun c => isDocumentChar c && c != a.mark && c != '<'

/-- Whether a start tag can be written: no name stands at two of its attributes. -/
def WrittenTag.isWellFormed (t : WrittenTag) : Bool :=
  t.name.isWritten && t.attributes.all (·.isWellFormed) &&
    decide (t.attributes.map (·.name.text)).Nodup && t.blanks.all isXmlSpace

namespace WrittenLeaf

/-- Whether a leaf goes on until something else begins. -/
def isRun : WrittenLeaf → Bool
  | .text _ | .blanks _ => true
  | _ => false

/-- Whether a comment or an instruction can be written. -/
def isMisc : WrittenLeaf → Bool
  | .comment content =>
    content.toList.all isDocumentChar && !occursIn "--".toList content.toList &&
      content.toList.getLast? != some '-'
  | .instruction target gap data =>
    target.toList.head?.any isNameStart && target.toList.all isNameChar && target != "xml" &&
      gap.all isXmlSpace && data.toList.all isDocumentChar && !occursIn "?>".toList data.toList &&
      !data.toList.head?.any isXmlSpace && (data.isEmpty || !gap.isEmpty)
  | _ => false

/-- Whether a leaf can be written inside an element. -/
def isInside : WrittenLeaf → Bool
  | .text content =>
    !content.isEmpty && content.toList.all isDocumentChar && !content.toList.contains '<' &&
      !occursIn "]]>".toList content.toList
  | .cdata content => content.toList.all isDocumentChar && !occursIn "]]>".toList content.toList
  | .blanks _ => false
  | l => l.isMisc

/-- Whether a leaf can be written outside the document element. -/
def isOutside : WrittenLeaf → Bool
  | .blanks cs => !cs.isEmpty && cs.all isXmlSpace
  | l => l.isMisc

end WrittenLeaf

namespace WrittenContents

/-- Whether something begins that goes on until something else does. -/
def beginsWithRun : WrittenContents → Bool
  | .leaf l _ => l.isRun
  | _ => false

/-- Whether contents can be written inside an element: no text stands next to another one. -/
def isWellFormed : WrittenContents → Bool
  | .nil => true
  | .leaf l more => l.isInside && !(l.isRun && more.beginsWithRun) && more.isWellFormed
  | .emptied tag more => tag.isWellFormed && more.isWellFormed
  | .element tag inner blanks more =>
    tag.isWellFormed && inner.isWellFormed && blanks.all isXmlSpace && more.isWellFormed

/-- Whether contents can follow the document element. -/
def isEpilog : WrittenContents → Bool
  | .nil => true
  | .leaf l more => l.isOutside && !(l.isRun && more.beginsWithRun) && more.isEpilog
  | .emptied .. | .element .. => false

/-- Whether contents can be written as a document, which has one element at its top. -/
def isDocument : WrittenContents → Bool
  | .nil => false
  | .leaf l more => l.isOutside && !(l.isRun && more.beginsWithRun) && more.isDocument
  | .emptied tag more => tag.isWellFormed && more.isEpilog
  | .element tag inner blanks more =>
    tag.isWellFormed && inner.isWellFormed && blanks.all isXmlSpace && more.isEpilog

end WrittenContents

/-! ## Its tree -/

namespace WrittenAttribute

/-- Where the name of an attribute begins that is written at an offset. -/
def nameStart (a : WrittenAttribute) (o : Nat) : Nat :=
  o + a.blanks.length

def nameStop (a : WrittenAttribute) (o : Nat) : Nat :=
  a.nameStart o + a.name.text.toList.length

/-- Where the value begins, behind the quotation mark. -/
def valueStart (a : WrittenAttribute) (o : Nat) : Nat :=
  a.nameStop o + a.beforeEquals.length + 1 + a.afterEquals.length + 1

def valueStop (a : WrittenAttribute) (o : Nat) : Nat :=
  a.valueStart o + a.value.toList.length

/-- The attribute of the tree that is written at an offset. -/
def attributeAt (a : WrittenAttribute) (o : Nat) : Attribute :=
  ⟨a.name.text, a.value, ⟨a.nameStart o, a.nameStop o⟩, ⟨a.valueStart o, a.valueStop o⟩⟩

end WrittenAttribute

/-- The attributes that are written one behind another, from an offset on. -/
def attributesFrom (o : Nat) : List WrittenAttribute → List Attribute
  | [] => []
  | a :: more => a.attributeAt o :: attributesFrom (o + a.chars.length) more

namespace WrittenTag

/-- Where the attributes of a tag begin. -/
def attributesStart (t : WrittenTag) (o : Nat) : Nat :=
  o + ('<' :: t.name.text.toList).length

/-- The bindings in force inside a start tag: its own are the innermost ones. -/
def scopeIn (t : WrittenTag) (scope : List Binding) : List Binding :=
  t.attributes.foldl (fun scope a => (bindingOf a.name a.value).toList ++ scope) scope

/-- The element of the tree that a tag at an offset begins. -/
def elementAt (t : WrittenTag) (o : Nat) (scope : List Binding) (children : List Nat)
    (endTagOpen : Option Nat) : Element where
  name := t.name
  namespaceUri := namespaceIn (t.scopeIn scope) t.name.qualifier
  attributes := attributesFrom (t.attributesStart o) t.attributes
  children := children
  startTagClose := some (o + t.opening.length + if endTagOpen.isNone then 1 else 0)
  endTagOpen := endTagOpen
  selfClosed := endTagOpen.isNone

end WrittenTag

/-- What a leaf is in the tree; blanks outside the document element are nothing there. -/
def WrittenLeaf.kind? : WrittenLeaf → Option NodeKind
  | .text content => some (.text content)
  | .cdata content => some (.cdata content)
  | .comment content => some (.comment content)
  | .instruction target _ data =>
      some (.instruction target (if data.isEmpty then none else some data))
  | .blanks _ => none

namespace WrittenContents

/-- The number of nodes. -/
def size : WrittenContents → Nat
  | .nil => 0
  | .leaf l more => l.kind?.toList.length + more.size
  | .emptied _ more => 1 + more.size
  | .element _ inner _ more => 1 + inner.size + more.size

/-- The numbers of the nodes that are not inside an element, from a number on. -/
def ids (id : Nat) : WrittenContents → List Nat
  | .nil => []
  | .leaf l more => (l.kind?.map fun _ => id).toList ++ more.ids (id + l.kind?.toList.length)
  | .emptied _ more => id :: more.ids (id + 1)
  | .element _ inner _ more => id :: more.ids (id + 1 + inner.size)

/-- The nodes of contents that are written at an offset, with some bindings in force: the contents
of an element are between it and its next sibling. -/
def nodes (scope : List Binding) (parent : Option Nat) (id o : Nat) : WrittenContents → List Node
  | .nil => []
  | .leaf l more =>
    (l.kind?.map fun kind => ⟨parent, ⟨o, o + l.chars.length⟩, kind⟩).toList ++
      more.nodes scope parent (id + l.kind?.toList.length) (o + l.chars.length)
  | .emptied tag more =>
    let stop := o + tag.opening.length + 2
    ⟨parent, ⟨o, stop⟩, .element (tag.elementAt o scope [] none)⟩ ::
      more.nodes scope parent (id + 1) stop
  | .element tag inner blanks more =>
    let innerStart := o + tag.opening.length + 1
    let innerStop := innerStart + inner.chars.length
    let stop := innerStop + (tag.ending blanks).length
    ⟨parent, ⟨o, stop⟩, .element (tag.elementAt o scope (inner.ids (id + 1)) (some innerStop))⟩ ::
      (inner.nodes (tag.scopeIn scope) (some id) (id + 1) innerStart ++
        more.nodes scope parent (id + 1 + inner.size) stop)

/-- The texts of the nodes, in their order. -/
def pieces : WrittenContents → List (List Char)
  | .nil => []
  | .leaf l more => (l.kind?.map fun _ => l.chars).toList ++ more.pieces
  | .emptied tag more => (tag.opening ++ ['/', '>']) :: more.pieces
  | .element tag inner blanks more =>
    (tag.opening ++ '>' :: (inner.chars ++ tag.ending blanks)) :: (inner.pieces ++ more.pieces)

/-- The tree of a document. -/
def tree (c : WrittenContents) : Tree :=
  ⟨c.chars, (c.nodes [] none 0 0).toArray, c.ids 0, none, none⟩

end WrittenContents

end XmlAdvisor
