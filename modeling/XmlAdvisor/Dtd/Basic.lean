/-!
# Document type definitions

A document type definition declares each element once, by the name it is written with, and gives it
a content and a list of attributes.  Declarations are global: they hold wherever an element stands.
-/

namespace XmlAdvisor

/-- How often a part of a content may stand. -/
inductive Occurrence
  | once
  | optional
  | zeroOrMore
  | oneOrMore
  deriving DecidableEq, Repr, Inhabited

/-- Whether a part with this occurrence must stand at least once. -/
def Occurrence.isMandatory : Occurrence → Bool
  | .once | .oneOrMore => true
  | .optional | .zeroOrMore => false

/-- A part of a content. -/
inductive Particle
  | name (name : String) (occurrence : Occurrence)
  | sequence (members : List Particle) (occurrence : Occurrence)
  | choice (members : List Particle) (occurrence : Occurrence)
  deriving Repr, Inhabited, BEq

/-- The content of an element. -/
inductive ContentSpec
  | empty
  | any
  /-- Text with elements among it. -/
  | mixed (names : List String)
  | children (particle : Particle)
  deriving Repr, Inhabited, BEq

/-- What the values of an attribute are. -/
inductive AttributeType
  | cdata
  | id
  | idref
  | idrefs
  | entity
  | entities
  | nmtoken
  | nmtokens
  | notations (names : List String)
  | enumeration (names : List String)
  deriving DecidableEq, Repr, Inhabited

/-- What holds for an attribute that is not written. -/
inductive DefaultDecl
  | required
  | implied
  | fixed (value : String)
  | value (value : String)
  deriving DecidableEq, Repr, Inhabited

/-- A declared attribute. -/
structure DtdAttribute where
  name : String
  type : AttributeType
  default : DefaultDecl
  deriving DecidableEq, Repr, Inhabited

/-- A declared element with the attributes of all its lists. -/
structure DtdElement where
  name : String
  content : ContentSpec
  attributes : List DtdAttribute
  documentation : Option String
  deriving Repr, Inhabited, BEq

/-- The declarations of a document type, in the order of the elements. -/
structure Dtd where
  elements : List DtdElement
  deriving Repr, Inhabited, BEq

/-- The declaration of the element with the given name. -/
def Dtd.element? (d : Dtd) (name : String) : Option DtdElement :=
  d.elements.find? (·.name = name)

/-! ## Names in a content -/

namespace Particle

mutual
/-- The names in a particle, each where it first stands, after those found before. -/
def namesAfter : List String → Particle → List String
  | found, .name n _ => if found.contains n then found else found ++ [n]
  | found, .sequence members _ => namesAfterAll found members
  | found, .choice members _ => namesAfterAll found members

/-- The names in particles, after those found before. -/
def namesAfterAll : List String → List Particle → List String
  | found, [] => found
  | found, p :: more => namesAfterAll (namesAfter found p) more
end

/-- The names in a particle, each once. -/
def names (p : Particle) : List String :=
  namesAfter [] p

mutual
/-- The names that must stand at least once, in order.  A choice between several parts makes none of
them necessary. -/
def mandatoryNames : Particle → List String
  | .name n occurrence => if occurrence.isMandatory then [n] else []
  | .sequence members occurrence =>
    if occurrence.isMandatory then mandatoryNamesOfAll members else []
  | .choice members occurrence =>
    match members with
    | [only] => if occurrence.isMandatory then mandatoryNames only else []
    | _ => []

/-- The names that must stand at least once in each of several particles. -/
def mandatoryNamesOfAll : List Particle → List String
  | [] => []
  | p :: more => mandatoryNames p ++ mandatoryNamesOfAll more
end

end Particle

namespace Dtd

/-- The names of the elements that may stand inside an element. -/
def allowedNames (d : Dtd) (e : DtdElement) : List String :=
  match e.content with
  | .empty => []
  | .any => d.elements.map (·.name)
  | .mixed names => names
  | .children p => p.names

end Dtd

/-- The names of the elements that must stand inside an element. -/
def DtdElement.mandatoryNames (e : DtdElement) : List String :=
  match e.content with
  | .children p => p.mandatoryNames
  | _ => []

end XmlAdvisor
