import XmlAdvisor.Json.Basic

/-!
# Records in JSON

A record is written as an object that names its members or as an array that lists them in their
order.  Members that the record does not know are passed over; a known member that stands twice
spoils the record, and so does an array that is too long.

Three kinds of member are told apart: those that must be there (`needed`), those that have a
default when they are missing (`orElse`), and those that may be `null` or missing from an object
(`optional`).
-/

namespace XmlAdvisor.Json

/-- The members of a record that are there. -/
structure Record where
  /-- Whether the members are named; else they are listed in order. -/
  isNamed : Bool
  members : List (String × Json)
  deriving Repr

/-- Whether every text stands once. -/
def areDistinct : List String → Bool
  | [] => true
  | s :: rest => !rest.contains s && areDistinct rest

/-- The record with the given members that a value is. -/
def record? (names : List String) : Json → Option Record
  | .object members =>
    let known := members.filter fun (key, _) => names.contains key
    if areDistinct (known.map (·.1)) then some ⟨true, known⟩ else none
  | .array items =>
    if items.length ≤ names.length then some ⟨false, names.zip items⟩ else none
  | _ => none

namespace Record

variable {α : Type}

/-- A member that must be there. -/
def needed (r : Record) (name : String) (read : Json → Option α) : Option α :=
  (r.members.lookup name).bind read

/-- A member with a default. -/
def orElse (r : Record) (name : String) (default : α) (read : Json → Option α) : Option α :=
  match r.members.lookup name with
  | some value => read value
  | none => some default

/-- A member that may be `null`, or missing where members are named. -/
def optional (r : Record) (name : String) (read : Json → Option α) : Option (Option α) :=
  match r.members.lookup name with
  | some .null => some none
  | some value => (read value).map some
  | none => if r.isNamed then some none else none

end Record

/-- The values that the items of an array stand for, if each stands for one. -/
def list? {α : Type} (read : Json → Option α) : Json → Option (List α)
  | .array items => items.mapM read
  | _ => none

/-- The values that the members of an object stand for, with their keys. -/
def table? {α : Type} (read : Json → Option α) : Json → Option (List (String × α))
  | .object members => members.mapM fun (key, value) => (read value).map fun a => (key, a)
  | _ => none

/-- The signed 32-bit number that a value is. -/
def int32? : Json → Option Int
  | .integer n => if -Int.pow 2 31 ≤ n && n < Int.pow 2 31 then some n else none
  | _ => none

/-- The unsigned 32-bit number that a value is. -/
def uint32? (j : Json) : Option Nat :=
  j.natural? (Nat.pow 2 32)

end XmlAdvisor.Json
