import XmlAdvisor.Schema.NameClass

/-!
# Schemas

A schema is a table of patterns that refer to each other by number, with a table of definitions
that references go through, and the number of the pattern it starts from.  Only the pattern kinds
below are kept; the others of the schema language are written in terms of them when a schema is
compiled.
-/

namespace XmlAdvisor

/-- A pattern; its parts are numbers of other patterns. -/
inductive Pattern
  | empty
  | text
  | notAllowed
  | data (datatype : String)
  | value (literal : String)
  | list (body : Nat)
  | element (name : NameClass) (content : Nat) (documentation : Option String)
  | attribute (name : NameClass) (value : Nat) (documentation : Option String)
    (default : Option String)
  | choice (members : List Nat)
  /-- All members in order. -/
  | group (members : List Nat)
  /-- All members, their contents mingled. -/
  | interleave (members : List Nat)
  | oneOrMore (body : Nat)
  /-- A definition, by number. -/
  | ref (definition : Nat)
  deriving DecidableEq, Repr, Inhabited

/-- A named definition; it has no body as long as only its name has been met. -/
structure Definition where
  name : String
  body : Option Nat
  deriving DecidableEq, Repr, Inhabited

/-- A compiled schema. -/
structure Schema where
  patterns : Array Pattern
  definitions : Array Definition
  start : Nat
  deriving DecidableEq, Repr, Inhabited

namespace Schema

/-- The pattern with the given number; a number that is none allows nothing. -/
def pattern (s : Schema) (id : Nat) : Pattern :=
  s.patterns.getD id .notAllowed

/-- The body of a definition. -/
def body? (s : Schema) (definition : Nat) : Option Nat :=
  s.definitions[definition]?.bind Definition.body

/-- Whether a pattern is an element. -/
def isElement (s : Schema) (id : Nat) : Bool :=
  match s.pattern id with
  | .element .. => true
  | _ => false

/-- The name class of an element pattern. -/
def elementName? (s : Schema) (id : Nat) : Option NameClass :=
  match s.pattern id with
  | .element name _ _ => some name
  | _ => none

/-- The content of an element pattern. -/
def elementContent? (s : Schema) (id : Nat) : Option Nat :=
  match s.pattern id with
  | .element _ content _ => some content
  | _ => none

/-- Follows at most `hops` references to a pattern that is none. -/
def resolveWithin (s : Schema) : (hops : Nat) → Nat → Option Nat
  | hops, id =>
    match s.pattern id with
    | .ref d =>
      match hops, s.body? d with
      | hops + 1, some body => s.resolveWithin hops body
      | _, _ => none
    | _ => some id

/-- The pattern that a chain of references leads to; none if the chain is circular. -/
def resolve (s : Schema) (id : Nat) : Option Nat :=
  s.resolveWithin s.definitions.size id

end Schema

end XmlAdvisor
