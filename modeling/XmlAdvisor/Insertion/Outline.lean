import XmlAdvisor.Grammar.Declaration
import XmlAdvisor.Insertion.Snippet

/-!
# Outlines of elements

**The outline** of a declaration is the smallest element that it asks for: its required attributes
with their defaults, and inside it the outlines of the children it must have.  Declarations may ask
for themselves, so an outline has a bounded number of levels.

**Laying out** an outline turns it into pieces.  Children stand on lines of their own, one level
deeper than their parent; where no child stands, the cursor may end up.
-/

namespace XmlAdvisor

/-- An element with no more than it must have: required attributes with their defaults, and
children. -/
inductive Outline
  | element (name : String) (attributes : List (String × String)) (children : List Outline)
  deriving Repr

/-- How many levels of children an outline has at most. -/
def outlineLevels : Nat :=
  8

namespace Declaration

/-- The attributes that must be there, with their defaults. -/
def requiredAttributes (d : Declaration) : List (String × String) :=
  (d.attributes.filter (·.required)).map fun a => (a.name, a.default.getD "")

/-- The outline of a declaration with at most so many levels of children. -/
def outlineWithin : (levels : Nat) → Declaration → Outline
  | 0, d => .element d.localName d.requiredAttributes []
  | levels + 1, d =>
    let children := if d.isEmptyContent then [] else d.requiredChildren
    .element d.localName d.requiredAttributes (children.map (outlineWithin levels))

/-- The outline of a declaration. -/
def outline (d : Declaration) : Outline :=
  d.outlineWithin outlineLevels

end Declaration

/-! ## Laying out -/

/-- How generated text is indented. -/
structure Indentation where
  tabSize : Nat := 2
  insertSpaces : Bool := true
  deriving DecidableEq, Repr, Inhabited

/-- What one level is indented by. -/
def Indentation.unit (i : Indentation) : String :=
  if i.insertSpaces then String.ofList (List.replicate i.tabSize ' ') else "\t"

/-- How generated text is indented and cut into lines. -/
structure Layout where
  indentation : Indentation := {}
  lineDelimiter : String := "\n"
  deriving DecidableEq, Repr, Inhabited

/-- What stands before a line at a level. -/
def Layout.lineAt (l : Layout) (level : Nat) : String :=
  l.lineDelimiter ++ String.join (List.replicate level l.indentation.unit)

/-- How tags are written. -/
structure TagForm where
  /-- Whether the end tag is written. -/
  endTag : Bool := true
  /-- Whether an element without a body is written as one tag. -/
  selfClosing : Bool := false
  deriving DecidableEq, Repr, Inhabited

/-- An attribute whose value is to be filled in. -/
def attributePieces (a : String × String) : List Piece :=
  [.markup (" " ++ a.1 ++ "=\""), .field a.2, .markup "\""]

mutual
/-- The pieces of an outline whose start tag stands at a level, around a body that is there
already or else around its children. -/
def Outline.pieces (l : Layout) (f : TagForm) (level : Nat) (body : Option String) :
    Outline → List Piece
  | .element name attributes children =>
    let start := .markup ("<" ++ name) :: attributes.flatMap attributePieces
    if body.isNone && children.isEmpty && f.selfClosing then start ++ [.markup "/>"]
    else
      let inside := match body with
        | some text => [.content text]
        | none =>
          if children.isEmpty then [.cursor]
          else Outline.linePieces l f (level + 1) children ++ [.markup (l.lineAt level)]
      let stop := if f.endTag then [.markup ("</" ++ name ++ ">")] else []
      start ++ [.markup ">"] ++ inside ++ stop

/-- The pieces of outlines that stand on lines of their own. -/
def Outline.linePieces (l : Layout) (f : TagForm) (level : Nat) : List Outline → List Piece
  | [] => []
  | o :: more =>
    .markup (l.lineAt level) :: o.pieces l f level none ++ Outline.linePieces l f level more
end

/-- The text of the element that a declaration asks for. -/
def Declaration.insertion (d : Declaration) (l : Layout) (f : TagForm) (level : Nat)
    (body : Option String) (asSnippet : Bool) : String :=
  insertionText asSnippet (d.outline.pieces l f level body)

end XmlAdvisor
