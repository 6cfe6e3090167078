import XmlAdvisor.Schema.Pattern

/-!
# What a content model can lead to

**Walks.**  The functions here walk from a pattern through its members and through references, but
not into elements and attributes.  Each pattern is visited once, which both keeps the results free
of repetitions and ends the walk: every further step down visits a pattern not visited before, so
its depth is bounded by the number of patterns.

**Attributes** are visited at most twice, once where they must be present and once where they need
not; one is required as soon as some way to it goes through no choice.
-/

namespace XmlAdvisor

/-- The patterns visited so far and those found among them, in the order of the walk. -/
structure Walk where
  seen : List Nat
  found : List Nat
  deriving Repr

namespace Schema

/-! ## Elements -/

/-- Walks from a pattern to the elements it leads to, through choices only if told so. -/
def walkElements (s : Schema) (throughChoices : Bool) : (depth : Nat) → Walk → Nat → Walk
  | 0, w, _ => w
  | depth + 1, w, id =>
    if w.seen.contains id then w
    else
      let w := { w with seen := id :: w.seen }
      match s.pattern id with
      | .element .. => { w with found := w.found ++ [id] }
      | .group members | .interleave members =>
        members.foldl (s.walkElements throughChoices depth) w
      | .choice members =>
        if throughChoices then members.foldl (s.walkElements throughChoices depth) w else w
      | .oneOrMore body => s.walkElements throughChoices depth w body
      | .ref d =>
        match s.body? d with
        | some body => s.walkElements throughChoices depth w body
        | none => w
      | _ => w

/-- The element patterns that a pattern leads to. -/
def elementPatterns (s : Schema) (id : Nat) : List Nat :=
  (s.walkElements true (s.patterns.size + 1) ⟨[], []⟩ id).found

/-- The element patterns that a pattern leads to without a choice. -/
def requiredElementPatterns (s : Schema) (id : Nat) : List Nat :=
  (s.walkElements false (s.patterns.size + 1) ⟨[], []⟩ id).found

/-! ## Attributes -/

/-- The attribute patterns visited so far, each with whether it was met as required, and those
found, each with whether it is required. -/
structure AttributeWalk where
  seen : List (Nat × Bool)
  found : List (Nat × Bool)
  deriving Repr

/-- Records that an attribute was met. -/
def meetAttribute (id : Nat) (required : Bool) : List (Nat × Bool) → List (Nat × Bool)
  | [] => [(id, required)]
  | (other, r) :: more =>
    if other = id then (other, r || required) :: more
    else (other, r) :: meetAttribute id required more

/-- Walks from a pattern to the attributes it leads to. -/
def walkAttributes (s : Schema) : (depth : Nat) → (required : Bool) → AttributeWalk → Nat →
    AttributeWalk
  | 0, _, w, _ => w
  | depth + 1, required, w, id =>
    if w.seen.contains (id, required) then w
    else
      let w := { w with seen := (id, required) :: w.seen }
      match s.pattern id with
      | .attribute .. => { w with found := meetAttribute id required w.found }
      | .group members | .interleave members => members.foldl (s.walkAttributes depth required) w
      | .choice members => members.foldl (s.walkAttributes depth false) w
      | .oneOrMore body => s.walkAttributes depth required w body
      | .ref d =>
        match s.body? d with
        | some body => s.walkAttributes depth required w body
        | none => w
      | _ => w

/-- The attribute patterns that a pattern leads to, each with whether it is required. -/
def attributePatterns (s : Schema) (id : Nat) : List (Nat × Bool) :=
  (s.walkAttributes (2 * s.patterns.size + 1) true ⟨[], []⟩ id).found

/-- The name class of an attribute pattern. -/
def attributeName? (s : Schema) (id : Nat) : Option NameClass :=
  match s.pattern id with
  | .attribute name _ _ _ => some name
  | _ => none

/-- Whether a pattern leads to an attribute that is not written with one name. -/
def hasWildcardAttribute (s : Schema) (id : Nat) : Bool :=
  (s.attributePatterns id).any fun (a, _) =>
    (s.attributeName? a).any fun name => name.simple?.isNone

/-! ## Values -/

/-- The literals of a pattern that is a choice of values, through at most `hops` references. -/
def valuesWithin (s : Schema) : (depth hops : Nat) → Nat → Option (List String)
  | 0, _, _ => none
  | depth + 1, hops, id =>
    match s.pattern id with
    | .value literal => some [literal]
    | .choice members => (members.mapM (s.valuesWithin depth hops)).map List.flatten
    | .ref d =>
      match hops, s.body? d with
      | hops + 1, some body => s.valuesWithin depth hops body
      | _, _ => none
    | _ => none

/-- The literals of a pattern that is a choice of values; none of any other. -/
def enumeratedValues (s : Schema) (id : Nat) : List String :=
  let hops := s.definitions.size + 1
  (s.valuesWithin ((hops + 1) * (s.patterns.size + 1)) hops id).getD []

end Schema

end XmlAdvisor
