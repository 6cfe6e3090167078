import XmlAdvisor.Schema.Pattern
import XmlAdvisor.Schema.Source

/-!
# Compiling a schema

**Lowering** numbers the patterns of a schema document in the order in which they are finished, so
every pattern comes after its parts and only references can lead in a circle.  `optional`,
`zeroOrMore` and `mixed` are written out as choices, repetitions and interleavings.  Several
patterns in one place become a group, one stands for itself, and none is the empty pattern.

**Definitions** are numbered when their name is first met.  A second body of a start or a definition
is joined to the first as its `combine` attribute says, or else by choice.
-/

namespace XmlAdvisor

/-- A schema that is being compiled. -/
structure SchemaBuilder where
  patterns : Array Pattern
  definitions : Array Definition
  start : Option Nat
  deriving Repr

namespace SchemaBuilder

/-- Before the first pattern. -/
def empty : SchemaBuilder :=
  ⟨#[], #[], none⟩

/-- Adds a pattern and gives its number. -/
def push (b : SchemaBuilder) (p : Pattern) : Nat × SchemaBuilder :=
  (b.patterns.size, { b with patterns := b.patterns.push p })

/-- The number of the definition with the given name, which is new if the name is. -/
def definition (b : SchemaBuilder) (name : String) : Nat × SchemaBuilder :=
  match b.definitions.findIdx? (·.name == name) with
  | some i => (i, b)
  | none => (b.definitions.size, { b with definitions := b.definitions.push ⟨name, none⟩ })

/-- Makes one pattern of several in one place. -/
def group (b : SchemaBuilder) (members : List Nat) : Nat × SchemaBuilder :=
  match members with
  | [] => b.push .empty
  | [one] => (one, b)
  | _ => b.push (.group members)

/-- Joins a body to the one before it. -/
def join (b : SchemaBuilder) (before : Option Nat) (body : Nat) (combine : Option Combine) :
    Nat × SchemaBuilder :=
  match before, combine with
  | none, _ => (body, b)
  | some p, some .interleave => b.push (.interleave [p, body])
  | some p, _ => b.push (.choice [p, body])

mutual
/-- Adds a written pattern with all its parts. -/
def lower : SourcePattern → SchemaBuilder → Nat × SchemaBuilder
  | .element name content documentation, b =>
    let (body, b) := lowerBody content b
    b.push (.element name body documentation)
  | .attribute name value documentation default, b =>
    let (body, b) := if value.isEmpty then b.push .text else lowerBody value b
    b.push (.attribute name body documentation default)
  | .empty, b => b.push .empty
  | .text, b => b.push .text
  | .notAllowed, b => b.push .notAllowed
  | .data datatype, b => b.push (.data datatype)
  | .value literal, b => b.push (.value literal)
  | .list body, b =>
    let (body, b) := lowerBody body b
    b.push (.list body)
  | .group members, b => lowerBody members b
  | .interleave members, b =>
    let (members, b) := lowerAll members b
    b.push (.interleave members)
  | .choice members, b =>
    let (members, b) := lowerAll members b
    b.push (.choice members)
  | .optional body, b =>
    let (body, b) := lowerBody body b
    let (nothing, b) := b.push .empty
    b.push (.choice [body, nothing])
  | .zeroOrMore body, b =>
    let (body, b) := lowerBody body b
    let (repeated, b) := b.push (.oneOrMore body)
    let (nothing, b) := b.push .empty
    b.push (.choice [repeated, nothing])
  | .oneOrMore body, b =>
    let (body, b) := lowerBody body b
    b.push (.oneOrMore body)
  | .mixed body, b =>
    let (body, b) := lowerBody body b
    let (text, b) := b.push .text
    b.push (.interleave [body, text])
  | .ref name, b =>
    let (d, b) := b.definition name
    b.push (.ref d)

/-- Adds written patterns one after the other. -/
def lowerAll : List SourcePattern → SchemaBuilder → List Nat × SchemaBuilder
  | [], b => ([], b)
  | p :: more, b =>
    let (id, b) := lower p b
    let (ids, b) := lowerAll more b
    (id :: ids, b)

/-- Adds written patterns as the one pattern they stand for. -/
def lowerBody : List SourcePattern → SchemaBuilder → Nat × SchemaBuilder
  | ps, b =>
    let (members, b) := lowerAll ps b
    b.group members
end

/-- Adds a start or a definition. -/
def addPart (b : SchemaBuilder) : SourcePart → SchemaBuilder
  | .start combine body =>
    let (body, b) := lowerBody body b
    let (merged, b) := b.join b.start body combine
    { b with start := some merged }
  | .define name combine body =>
    let (body, b) := lowerBody body b
    let (d, b) := b.definition name
    let before := b.definitions[d]?.bind Definition.body
    let (merged, b) := b.join before body combine
    { b with definitions := b.definitions.modify d fun old => { old with body := some merged } }

/-- The finished schema, in which every name that is referred to must be defined. -/
def finish (b : SchemaBuilder) (start : Nat) : SchemaResult Schema :=
  match b.definitions.find? (·.body.isNone) with
  | some missing => .error (.undefinedReference missing.name)
  | none => .ok ⟨b.patterns, b.definitions, start⟩

end SchemaBuilder

/-- The schema that a written schema compiles to. -/
def SourceSchema.compile : SourceSchema → SchemaResult Schema
  | .grammar parts =>
    let b := parts.foldl SchemaBuilder.addPart .empty
    match b.start with
    | some start => b.finish start
    | none => .error .noStart
  | .pattern p =>
    let (start, b) := SchemaBuilder.lower p .empty
    b.finish start

/-- The schema that the text of a schema document stands for. -/
def Schema.compile (text : List Char) : SchemaResult Schema := do
  (← (Tree.parse text).readSchema).compile

end XmlAdvisor
