import XmlAdvisor.Schema.Pattern

/-!
# Content models and what is left of them

**Residuals.**  A content model is matched against the names of child elements alone; attributes,
text and values count as empty.  What a content model still asks for after some children is a
`Residual`.  A pattern of the schema stands in it by number and is written out one level at a time,
so circular definitions do no harm.

**Simplifying.**  The functions `choice`, `group`, `interleave` and `oneOrMore` drop what cannot
matter as they put residuals together: alternatives that allow nothing, parts that are empty, and an
alternative that repeats the one before it.

**Depth.**  Each question about a residual is answered down to a fixed depth; what lies deeper
counts as allowing nothing.
-/

namespace XmlAdvisor

/-- What a content model asks for. -/
inductive Residual
  | empty
  | notAllowed
  /-- A pattern of the schema that is not written out. -/
  | pattern (id : Nat)
  | choice (a b : Residual)
  | group (a b : Residual)
  | interleave (a b : Residual)
  | oneOrMore (a : Residual)
  deriving DecidableEq, Repr, Inhabited

namespace Residual

/-- One of two residuals. -/
def either : Residual → Residual → Residual
  | .notAllowed, b => b
  | a, .notAllowed => a
  | a, b => if a = b then a else .choice a b

/-- One residual after another. -/
def followedBy : Residual → Residual → Residual
  | .notAllowed, _ => .notAllowed
  | _, .notAllowed => .notAllowed
  | .empty, b => b
  | a, .empty => a
  | a, b => .group a b

/-- Two residuals mingled. -/
def mingledWith : Residual → Residual → Residual
  | .notAllowed, _ => .notAllowed
  | _, .notAllowed => .notAllowed
  | .empty, b => b
  | a, .empty => a
  | a, b => .interleave a b

/-- A residual once or more often. -/
def repeated : Residual → Residual
  | .notAllowed => .notAllowed
  | .empty => .empty
  | a => .oneOrMore a

/-- How deep a residual is looked into. -/
def depthLimit : Nat :=
  512

end Residual

namespace Schema

/-- A pattern written out one level.  Elements stand for themselves. -/
def expand (s : Schema) (id : Nat) : Residual :=
  match s.pattern id with
  | .element .. => .pattern id
  | .empty | .text | .data _ | .value _ | .list _ | .attribute .. => .empty
  | .notAllowed => .notAllowed
  | .choice members => members.foldl (fun acc m => acc.either (.pattern m)) .notAllowed
  | .group members => members.foldl (fun acc m => acc.followedBy (.pattern m)) .empty
  | .interleave members => members.foldl (fun acc m => acc.mingledWith (.pattern m)) .empty
  | .oneOrMore body => Residual.repeated (.pattern body)
  | .ref d =>
    match s.body? d with
    | some body => .pattern body
    | none => .notAllowed

/-! ## Questions about a residual, answered within a depth -/

/-- Whether a residual allows no children. -/
def nullableWithin (s : Schema) : (depth : Nat) → Residual → Bool
  | 0, _ => false
  | depth + 1, r =>
    match r with
    | .empty => true
    | .notAllowed => false
    | .pattern id => if s.isElement id then false else s.nullableWithin depth (s.expand id)
    | .choice a b => s.nullableWithin depth a || s.nullableWithin depth b
    | .group a b | .interleave a b => s.nullableWithin depth a && s.nullableWithin depth b
    | .oneOrMore a => s.nullableWithin depth a

/-- What is left of a residual after a child with the given name. -/
def derivativeWithin (s : Schema) (ns localName : String) : (depth : Nat) → Residual → Residual
  | 0, _ => .notAllowed
  | depth + 1, r =>
    match r with
    | .empty | .notAllowed => .notAllowed
    | .pattern id =>
      match s.elementName? id with
      | some name => if name.contains ns localName then .empty else .notAllowed
      | none => s.derivativeWithin ns localName depth (s.expand id)
    | .choice a b =>
      (s.derivativeWithin ns localName depth a).either (s.derivativeWithin ns localName depth b)
    | .group a b =>
      let ahead := (s.derivativeWithin ns localName depth a).followedBy b
      if s.nullableWithin depth a then ahead.either (s.derivativeWithin ns localName depth b)
      else ahead
    | .interleave a b =>
      ((s.derivativeWithin ns localName depth a).mingledWith b).either
        (a.mingledWith (s.derivativeWithin ns localName depth b))
    | .oneOrMore a =>
      (s.derivativeWithin ns localName depth a).followedBy ((Residual.oneOrMore a).either .empty)

/-- Adds a pattern to a list that does not hold it yet. -/
def addOnce (found : List Nat) (id : Nat) : List Nat :=
  if found.contains id then found else found ++ [id]

/-- Adds the element patterns that the next child may match, in the order of the schema. -/
def firstWithin (s : Schema) : (depth : Nat) → List Nat → Residual → List Nat
  | 0, found, _ => found
  | depth + 1, found, r =>
    match r with
    | .empty | .notAllowed => found
    | .pattern id =>
      if s.isElement id then addOnce found id else s.firstWithin depth found (s.expand id)
    | .choice a b | .interleave a b => s.firstWithin depth (s.firstWithin depth found a) b
    | .group a b =>
      let found := s.firstWithin depth found a
      if s.nullableWithin depth a then s.firstWithin depth found b else found
    | .oneOrMore a => s.firstWithin depth found a

/-- Adds the element patterns of the part that must come next.  Optional parts are passed over: a
choice with an alternative that may be empty adds nothing. -/
def requiredFirstWithin (s : Schema) : (depth : Nat) → List Nat → Residual → List Nat
  | 0, found, _ => found
  | depth + 1, found, r =>
    match r with
    | .empty | .notAllowed => found
    | .pattern id =>
      if s.isElement id then addOnce found id else s.requiredFirstWithin depth found (s.expand id)
    | .choice a b =>
      if s.nullableWithin depth a || s.nullableWithin depth b then found
      else s.requiredFirstWithin depth (s.requiredFirstWithin depth found a) b
    | .interleave a b =>
      s.requiredFirstWithin depth (s.requiredFirstWithin depth found a) b
    | .group a b =>
      if s.nullableWithin depth a then s.requiredFirstWithin depth found b
      else s.requiredFirstWithin depth found a
    | .oneOrMore a => s.requiredFirstWithin depth found a

/-! ## The same within the limit -/

/-- Whether a residual allows no children. -/
def nullable (s : Schema) (r : Residual) : Bool :=
  s.nullableWithin (Residual.depthLimit + 1) r

/-- What is left of a residual after a child with the given name. -/
def derivative (s : Schema) (r : Residual) (ns localName : String) : Residual :=
  s.derivativeWithin ns localName (Residual.depthLimit + 1) r

/-- The element patterns that the next child may match. -/
def first (s : Schema) (r : Residual) : List Nat :=
  s.firstWithin (Residual.depthLimit + 1) [] r

/-- The element patterns of the part that must come next. -/
def requiredFirst (s : Schema) (r : Residual) : List Nat :=
  s.requiredFirstWithin (Residual.depthLimit + 1) [] r

end Schema

end XmlAdvisor
