import XmlAdvisor.Tree.Basic

/-!
# Finding nodes and names in a tree

**By offset.**  An offset belongs to a node when it lies after the node's start and not after its
end.  `nodeAt?` descends from the top level, at each level into the first node that has the offset.
Children are numbered after their parents, which bounds the descent; parents are numbered before
their children, which bounds the way up.

**By namespace.**  `lookupNamespace` walks from an element outwards to the nearest declaration of a
qualifier.
-/

namespace XmlAdvisor.Tree

/-- Whether an offset belongs to a node. -/
def holdsOffset (t : Tree) (offset id : Nat) : Bool :=
  t.nodes[id]?.any fun n => n.span.start < offset && offset ≤ n.span.stop

/-- The last of the nodes met by descending from `candidates` along an offset, in at most `depth`
levels. -/
def descend (t : Tree) (offset : Nat) : (depth : Nat) → (candidates : List Nat) → Option Nat
  | 0, _ => none
  | depth + 1, candidates =>
    match candidates.find? (t.holdsOffset offset) with
    | none => none
    | some id =>
      let children := (t.nodes[id]?.map Node.children).getD []
      some ((t.descend offset depth children).getD id)

/-- The deepest node that an offset belongs to. -/
def nodeAt? (t : Tree) (offset : Nat) : Option Nat :=
  t.descend offset t.nodes.size t.topLevel

/-- The deepest node that an offset belongs to, if it is an element. -/
def elementAt? (t : Tree) (offset : Nat) : Option ElementNode := do
  t.element? (← t.nodeAt? offset)

/-- A node and its ancestors, outwards, in at most `steps` steps. -/
def outwards (t : Tree) : (steps : Nat) → Nat → List Nat
  | 0, _ => []
  | steps + 1, id =>
    id :: match t.nodes[id]?.bind Node.parent with
      | some parent => t.outwards steps parent
      | none => []

/-- The elements from a node outwards, the node first if it is an element. -/
def elementsOutwards (t : Tree) (id : Nat) : List ElementNode :=
  (t.outwards (id + 1) id).filterMap t.element?

/-- The innermost element around an offset. -/
def enclosingElement? (t : Tree) (offset : Nat) : Option ElementNode := do
  (t.elementsOutwards (← t.nodeAt? offset)).head?

/-- The elements from the document element down to the given one. -/
def pathFromRoot (t : Tree) (e : ElementNode) : List ElementNode :=
  (t.elementsOutwards e.id).reverse

/-- The written name of the attribute that declares a qualifier. -/
def declaringName : Option String → String
  | some q => "xmlns:" ++ q
  | none => "xmlns"

/-- The namespace that a qualifier stands for at an element: that of the nearest declaration
outwards, or none if that one is empty. -/
def lookupNamespace (t : Tree) (e : ElementNode) (qualifier : Option String) : Option String :=
  if qualifier = some "xml" then some xmlNamespace
  else
    let declared := (t.elementsOutwards e.id).findSome? fun a =>
      a.element.attribute? (declaringName qualifier)
    match declared with
    | some a => if a.value.isEmpty then none else some a.value
    | none => none

end XmlAdvisor.Tree
