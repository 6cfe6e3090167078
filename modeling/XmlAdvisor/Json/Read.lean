import XmlAdvisor.Json.Basic

/-!
# Reading JSON

`Json.read?` accepts exactly one value with blanks around it.  Each reading function takes the rest
of the text and gives what it read together with what follows; the number of steps is bounded by the
length of the text, since a value and the list it stands in take at least one character away.
-/

namespace XmlAdvisor.Json

/-- Whether a character may stand between the pieces of a value. -/
def isGap (c : Char) : Bool :=
  c == ' ' || c == '\t' || c == '\n' || c == '\r'

/-- The text after the blanks at its start. -/
def skipGap (cs : List Char) : List Char :=
  cs.dropWhile isGap

/-! ## Strings -/

/-- The code unit that four hexadecimal digits stand for. -/
def codeUnit? : List Char → Option (Nat × List Char)
  | a :: b :: c :: d :: rest => do
    let digit (c : Char) : Option Nat :=
      if c.isDigit then some (c.toNat - 0x30)
      else if 'a' ≤ c && c ≤ 'f' then some (c.toNat - 0x57)
      else if 'A' ≤ c && c ≤ 'F' then some (c.toNat - 0x37)
      else none
    some ((((← digit a) * 16 + (← digit b)) * 16 + (← digit c)) * 16 + (← digit d), rest)
  | _ => none

/-- The code units after a backslash: one, which may be half of a pair. -/
def escape? : List Char → Option (Nat × List Char)
  | '"' :: rest => some (0x22, rest)
  | '\\' :: rest => some (0x5c, rest)
  | '/' :: rest => some (0x2f, rest)
  | 'b' :: rest => some (0x08, rest)
  | 'f' :: rest => some (0x0c, rest)
  | 'n' :: rest => some (0x0a, rest)
  | 'r' :: rest => some (0x0d, rest)
  | 't' :: rest => some (0x09, rest)
  | 'u' :: rest => codeUnit? rest
  | _ => none

/-- A string as it is written: its characters, and the code units that are escaped. -/
abbrev Written : Type :=
  List (Char ⊕ Nat)

/-- The text that is written, if every escaped half of a pair is followed by its other half; `read`
holds the characters before, last first. -/
def textOf? (read : List Char) : Written → Option (List Char)
  | [] => some read.reverse
  | .inl c :: rest => textOf? (c :: read) rest
  | .inr unit :: rest =>
    if 0xd800 ≤ unit && unit < 0xdc00 then
      match rest with
      | .inr low :: rest =>
        if 0xdc00 ≤ low && low < 0xe000 then
          textOf? (Char.ofNat (0x10000 + (unit - 0xd800) * 0x400 + (low - 0xdc00)) :: read) rest
        else none
      | _ => none
    else if 0xdc00 ≤ unit && unit < 0xe000 then none
    else textOf? (Char.ofNat unit :: read) rest

/-- A string after its opening mark; `read` holds what comes before, last first. -/
def writtenRest? : (steps : Nat) → (read : Written) → List Char → Option (Written × List Char)
  | 0, _, _ => none
  | _, _, [] => none
  | steps + 1, read, c :: rest =>
    if c == '"' then some (read.reverse, rest)
    else if c == '\\' then do
      let (unit, rest) ← escape? rest
      writtenRest? steps (.inr unit :: read) rest
    else if c.toNat < 0x20 then none
    else writtenRest? steps (.inl c :: read) rest

/-- The string after its opening mark, if it stands for a text. -/
def stringRest? (cs : List Char) : Option (Option String × List Char) :=
  (writtenRest? (cs.length + 1) [] cs).map fun (written, rest) =>
    ((textOf? [] written).map String.ofList, rest)

/-! ## Numbers -/

/-- The digits at the start of a text, of which there must be at least one. -/
def digits? (cs : List Char) : Option (List Char × List Char) :=
  let ds := cs.takeWhile Char.isDigit
  if ds.isEmpty then none else some (ds, cs.drop ds.length)

/-- The fraction of a number, with its point. -/
def fractionPart? (cs : List Char) : Option (List Char × List Char) :=
  match cs with
  | '.' :: rest => (digits? rest).map fun (ds, rest) => ('.' :: ds, rest)
  | _ => some ([], cs)

/-- The exponent of a number, with its letter. -/
def exponentPart? (cs : List Char) : Option (List Char × List Char) :=
  match cs with
  | e :: rest =>
    if e == 'e' || e == 'E' then
      let (sign, rest) := match rest with
        | '+' :: more => (['+'], more)
        | '-' :: more => (['-'], more)
        | _ => ([], rest)
      (digits? rest).map fun (ds, rest) => (e :: sign ++ ds, rest)
    else some ([], cs)
  | [] => some ([], [])

/-- The number that digits stand for. -/
def decimalValue (ds : List Char) : Nat :=
  ds.foldl (fun acc d => acc * 10 + (d.toNat - 0x30)) 0

/-- A number.  One with a fraction or an exponent, minus zero, and one too large for a machine word
are no integers. -/
def number? (cs : List Char) : Option (Json × List Char) := do
  let (negative, unsigned) := match cs with
    | '-' :: more => (true, more)
    | _ => (false, cs)
  let (whole, rest) ← digits? unsigned
  if whole.length > 1 && whole.head? == some '0' then none
  let (decimals, rest) ← fractionPart? rest
  let (exponent, rest) ← exponentPart? rest
  let n := decimalValue whole
  let fits := if negative then n ≠ 0 && n ≤ Nat.pow 2 63 else n < Nat.pow 2 64
  if decimals.isEmpty && exponent.isEmpty && fits then
    some (.integer (if negative then -n else n), rest)
  else
    let sign := if negative then ['-'] else []
    some (.fraction (String.ofList (sign ++ whole ++ decimals ++ exponent)), rest)

/-! ## Values -/

/-- The rest after a keyword. -/
def keyword? (word : String) (value : Json) (cs : List Char) : Option (Json × List Char) :=
  if word.toList.isPrefixOf cs then some (value, cs.drop word.length) else none

/-- The object of members as they are written, if every key stands for a text. -/
def objectOfWritten (members : List (Option String × Json)) : Json :=
  match members.mapM fun (key, value) => key.map fun k => (k, value) with
  | some members => .object members
  | none => .unpaired

mutual
/-- A value. -/
def value? : (steps : Nat) → List Char → Option (Json × List Char)
  | 0, _ => none
  | steps + 1, cs =>
    match cs with
    | [] => none
    | '"' :: rest =>
      (stringRest? rest).map fun (s, rest) => ((s.map Json.string).getD .unpaired, rest)
    | '[' :: rest =>
      match skipGap rest with
      | ']' :: rest => some (.array [], rest)
      | rest => (itemsRest? steps [] rest).map fun (items, rest) => (.array items, rest)
    | '\x7b' :: rest =>
      match skipGap rest with
      | '\x7d' :: rest => some (.object [], rest)
      | rest =>
        (membersRest? steps [] rest).map fun (members, rest) => (objectOfWritten members, rest)
    | 'n' :: _ => keyword? "null" .null cs
    | 't' :: _ => keyword? "true" (.bool true) cs
    | 'f' :: _ => keyword? "false" (.bool false) cs
    | _ => number? cs

/-- The items of an array up to its end; `read` holds those before, last first. -/
def itemsRest? : (steps : Nat) → (read : List Json) → List Char → Option (List Json × List Char)
  | 0, _, _ => none
  | steps + 1, read, cs => do
    let (item, rest) ← value? steps (skipGap cs)
    match skipGap rest with
    | ',' :: rest => itemsRest? steps (item :: read) rest
    | ']' :: rest => some ((item :: read).reverse, rest)
    | _ => none

/-- The members of an object up to its end; `read` holds those before, last first. -/
def membersRest? : (steps : Nat) → (read : List (Option String × Json)) → List Char →
    Option (List (Option String × Json) × List Char)
  | 0, _, _ => none
  | steps + 1, read, cs => do
    match skipGap cs with
    | '"' :: rest =>
      let (key, rest) ← stringRest? rest
      match skipGap rest with
      | ':' :: rest =>
        let (value, rest) ← value? steps (skipGap rest)
        match skipGap rest with
        | ',' :: rest => membersRest? steps ((key, value) :: read) rest
        | '\x7d' :: rest => some (((key, value) :: read).reverse, rest)
        | _ => none
      | _ => none
    | _ => none
end

/-- The value that a text is, with its members as they are written. -/
def read? (text : String) : Option Json := do
  let cs := text.toList
  let (value, rest) ← value? (2 * cs.length + 2) (skipGap cs)
  if (skipGap rest).isEmpty then some value else none

end XmlAdvisor.Json
