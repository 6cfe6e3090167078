/-!
# JSON values

**Values.**  An object keeps its members in the order in which they were written, repeated keys
included; `Json.settled` is the value in which a later member takes the place of an earlier one with
its key and keys are in order.  Integers are kept as numbers, all other number literals as they are
written.

**Unpaired halves.**  A string may escape half of a surrogate pair alone.  It is written well, so
what passes over it need not mind, but no text is meant by it.

**Writing** is compact: no blanks, and only those characters escaped that have to be.
-/

namespace XmlAdvisor

/-- A JSON value. -/
inductive Json
  | null
  | bool (b : Bool)
  | integer (n : Int)
  /-- A number that is not written as an integer. -/
  | fraction (literal : String)
  | string (s : String)
  | array (items : List Json)
  | object (members : List (String × Json))
  /-- A value that is well written but stands for none, since half of a surrogate pair is in it. -/
  | unpaired
  deriving Repr, Inhabited

namespace Json

/-! ## Equality -/

mutual
/-- Whether two values are the same. -/
def same : Json → Json → Bool
  | .null, .null => true
  | .bool a, .bool b => a == b
  | .integer m, .integer n => m == n
  | .fraction s, .fraction t => s == t
  | .string s, .string t => s == t
  | .array items, .array items' => sameItems items items'
  | .object members, .object members' => sameMembers members members'
  | .unpaired, .unpaired => true
  | _, _ => false

/-- Whether the items of two arrays are the same. -/
def sameItems : List Json → List Json → Bool
  | [], [] => true
  | item :: more, item' :: more' => item.same item' && sameItems more more'
  | _, _ => false

/-- Whether the members of two objects are the same. -/
def sameMembers : List (String × Json) → List (String × Json) → Bool
  | [], [] => true
  | (key, value) :: more, (key', value') :: more' =>
    key == key' && value.same value' && sameMembers more more'
  | _, _ => false
end

mutual
theorem same_iff (a b : Json) : a.same b = true ↔ a = b := by
  cases a with
  | array items =>
      cases b with
      | array items' => simp [same, sameItems_iff items items']
      | _ => simp [same]
  | object members =>
      cases b with
      | object members' => simp [same, sameMembers_iff members members']
      | _ => simp [same]
  | _ => cases b <;> simp [same]

theorem sameItems_iff (items items' : List Json) :
    sameItems items items' = true ↔ items = items' := by
  cases items with
  | nil => cases items' <;> simp [sameItems]
  | cons item more =>
      cases items' with
      | nil => simp [sameItems]
      | cons item' more' => simp [sameItems, same_iff item item', sameItems_iff more more']

theorem sameMembers_iff (members members' : List (String × Json)) :
    sameMembers members members' = true ↔ members = members' := by
  match members, members' with
  | [], [] => simp [sameMembers]
  | [], _ :: _ => simp [sameMembers]
  | _ :: _, [] => simp [sameMembers]
  | (key, value) :: more, (key', value') :: more' =>
      simp [sameMembers, same_iff value value', sameMembers_iff more more']
end

instance : DecidableEq Json :=
  fun a b => decidable_of_iff (a.same b = true) (same_iff a b)

/-! ## Members and items -/

/-- The value of the last member with the given key. -/
def lookup? (members : List (String × Json)) (key : String) : Option Json :=
  members.reverse.lookup key

/-- The value of a member of an object. -/
def get? (j : Json) (key : String) : Option Json :=
  match j with
  | .object members => lookup? members key
  | _ => none

/-- The value of a member of an object; a member that is `null` counts as none. -/
def given? (j : Json) (key : String) : Option Json :=
  match j.get? key with
  | some .null => none
  | other => other

/-- The text that a value is. -/
def string? : Json → Option String
  | .string s => some s
  | _ => none

/-- The truth value that a value is. -/
def bool? : Json → Option Bool
  | .bool b => some b
  | _ => none

/-- The integer that a value is. -/
def integer? : Json → Option Int
  | .integer n => some n
  | _ => none

/-- The natural number below `bound` that a value is. -/
def natural? (bound : Nat) : Json → Option Nat
  | .integer n => if 0 ≤ n && n < bound then some n.toNat else none
  | _ => none

/-- The items of an array. -/
def items? : Json → Option (List Json)
  | .array items => some items
  | _ => none

/-- The members of an object. -/
def members? : Json → Option (List (String × Json))
  | .object members => some members
  | _ => none

/-- A value, or `null` without one. -/
def ofOption (value : Option Json) : Json :=
  value.getD .null

/-- An object of the members that are present. -/
def objectOf (members : List (String × Option Json)) : Json :=
  .object (members.filterMap fun (key, value) => value.map fun v => (key, v))

/-! ## Settled values -/

/-- Puts a member where its key belongs, in place of one with the same key. -/
def putMember (key : String) (value : Json) : List (String × Json) → List (String × Json)
  | [] => [(key, value)]
  | (k, v) :: rest =>
    if key = k then (key, value) :: rest
    else if key < k then (key, value) :: (k, v) :: rest
    else (k, v) :: putMember key value rest

mutual
/-- The value with the members of every object in the order of their keys, each key once. -/
def settled : Json → Json
  | .array items => .array (settledItems items)
  | .object members => .object (settledMembers [] members)
  | other => other

/-- The items of an array, settled. -/
def settledItems : List Json → List Json
  | [] => []
  | item :: more => item.settled :: settledItems more

/-- Settles members one after the other into those before them. -/
def settledMembers : List (String × Json) → List (String × Json) → List (String × Json)
  | before, [] => before
  | before, (key, value) :: more => settledMembers (putMember key value.settled before) more
end

/-! ## Writing -/

/-- A character inside a string. -/
def escapedInString (c : Char) : String :=
  if c = '"' then "\\\""
  else if c = '\\' then "\\\\"
  else if c = '\n' then "\\n"
  else if c = '\r' then "\\r"
  else if c = '\t' then "\\t"
  else if c.toNat = 8 then "\\b"
  else if c.toNat = 12 then "\\f"
  else if c.toNat < 0x20 then
    let digits := Nat.toDigits 16 c.toNat
    "\\u" ++ String.ofList (List.replicate (4 - digits.length) '0' ++ digits)
  else c.toString

/-- A string between quotation marks. -/
def quote (s : String) : String :=
  "\"" ++ String.join (s.toList.map escapedInString) ++ "\""

mutual
/-- The value as a text. -/
def render : Json → String
  | .null => "null"
  | .bool true => "true"
  | .bool false => "false"
  | .integer n => toString n
  | .fraction literal => literal
  | .string s => quote s
  | .array items => "[" ++ ",".intercalate (renderItems items) ++ "]"
  | .object members => "\x7b" ++ ",".intercalate (renderMembers members) ++ "\x7d"
  | .unpaired => "\"\\ufffd\""

/-- The items of an array as texts. -/
def renderItems : List Json → List String
  | [] => []
  | item :: more => item.render :: renderItems more

/-- The members of an object as texts. -/
def renderMembers : List (String × Json) → List String
  | [] => []
  | (key, value) :: more => (quote key ++ ":" ++ value.render) :: renderMembers more
end

end Json

end XmlAdvisor
