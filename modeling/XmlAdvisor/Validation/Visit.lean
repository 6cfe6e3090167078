import XmlAdvisor.Grammar.Basic

/-!
# The elements that are validated

Validation goes from the document element down to all elements that have a declaration, each before
its children.  A child has the declaration that its parent's declaration gives it, or else the one
that the grammar finds from the document element.  Below a child without a declaration nothing is
validated.  A child is numbered after its parent, which bounds the way down.
-/

namespace XmlAdvisor.Grammar

/-- An element that is validated, and its declaration. -/
structure Visit where
  element : ElementNode
  declaration : Declaration
  deriving Repr

/-- The declaration of a child of an element that is validated. -/
def childDeclaration? (g : Grammar) (t : Tree) (parent : Declaration) (child : ElementNode) :
    Option Declaration :=
  (parent.child? child).or (g.declarationOf? t child)

/-- The children of an element that are validated too. -/
def childVisits (g : Grammar) (t : Tree) (v : Visit) : List Visit :=
  (t.childElements v.element).filterMap fun child =>
    (g.childDeclaration? t v.declaration child).map fun decl => ⟨child, decl⟩

/-- An element and what is validated below it, in at most so many levels. -/
def visitsFrom (g : Grammar) (t : Tree) : (levels : Nat) → Visit → List Visit
  | 0, _ => []
  | levels + 1, v => v :: (g.childVisits t v).flatMap (g.visitsFrom t levels)

/-- The elements that are validated below a document element with the given declaration. -/
def visits (g : Grammar) (t : Tree) (root : ElementNode) (decl : Declaration) : List Visit :=
  g.visitsFrom t t.nodes.size ⟨root, decl⟩

end XmlAdvisor.Grammar
