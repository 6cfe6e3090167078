import XmlAdvisor.Domain.Basic
import XmlAdvisor.Location.Percent
import XmlAdvisor.Text.Search

/-!
# Hosts

The host of a location in one of the special schemes is a domain in lower case, an IPv4 address in
dotted form, or an IPv6 address in brackets; other schemes keep the host as it is written.
-/

namespace XmlAdvisor

/-! ## Numbers -/

/-- The value of a text of digits in the given base, which is at most 16. -/
def digitsValue? (base : Nat) (cs : List Char) : Option Nat :=
  cs.foldlM (fun acc c => do
    let d ← hexValue? c
    if d < base then some (acc * base + d) else none) 0

/-- A part of an IPv4 address: decimal, octal after `0`, or hexadecimal after `0x`. -/
def addressPart? (cs : List Char) : Option Nat :=
  match cs with
  | [] => none
  | '0' :: x :: rest =>
    if x == 'x' || x == 'X' then digitsValue? 16 rest else digitsValue? 8 (x :: rest)
  | _ => digitsValue? 10 cs

/-- The labels of a domain without the empty one after a final dot. -/
def labelsOf (cs : List Char) : List (List Char) :=
  let labels := splitOnChar '.' cs
  match labels.getLast? with
  | some [] => if labels.length > 1 then labels.dropLast else labels
  | _ => labels

/-- Whether a domain ends in a number and so has to be an IPv4 address. -/
def endsInNumber (cs : List Char) : Bool :=
  match (labelsOf cs).getLast? with
  | none => false
  | some last =>
    (!last.isEmpty && last.all Char.isDigit) ||
      (match last with
        | '0' :: x :: rest => (x == 'x' || x == 'X') && (digitsValue? 16 rest).isSome
        | _ => false)

/-- The address that the parts of an IPv4 address give: each part but the last is one byte, the
last fills the rest. -/
def addressOfParts? (parts : List Nat) : Option Nat :=
  match parts.reverse with
  | [] => none
  | last :: before =>
    if parts.length > 4 || before.any (· > 255) || last ≥ Nat.pow 256 (5 - parts.length) then none
    else
      some (before.reverse.zipIdx.foldl (fun acc (p, i) => acc + p * Nat.pow 256 (3 - i)) last)

/-- An IPv4 address in dotted form. -/
def showAddress (n : Nat) : String :=
  ".".intercalate ([3, 2, 1, 0].map fun i => toString (n / Nat.pow 256 i % 256))

/-! ## IPv6 -/

/-- The four hexadecimal digits at most that make a piece of an address. -/
def pieceValue? (cs : List Char) : Option Nat :=
  if cs.isEmpty || cs.length > 4 then none else digitsValue? 16 cs

/-- The pieces that a run between colons stands for: one, or two for a dotted address at the end. -/
def piecesOf? (isLast : Bool) (cs : List Char) : Option (List Nat) :=
  if isLast && cs.contains '.' then do
    let bytes ← (splitOnChar '.' cs).mapM fun part =>
      if part.isEmpty || part.length > 3 || (part.length > 1 && part.head? == some '0') then none
      else digitsValue? 10 part
    match bytes with
    | [a, b, c, d] =>
      if bytes.all (· < 256) then some [a * 256 + b, c * 256 + d] else none
    | _ => none
  else (pieceValue? cs).map fun v => [v]

/-- The pieces that a side of an address stands for; an empty side has none. -/
def sidePieces? (isLast : Bool) (cs : List Char) : Option (List Nat) :=
  if cs.isEmpty then some []
  else do
    let runs := splitOnChar ':' cs
    let n := runs.length
    let pieces ← runs.zipIdx.mapM fun (r, i) => piecesOf? (isLast && i + 1 = n) r
    some pieces.flatten

/-- The eight pieces of an IPv6 address.  A double colon stands for one or more pieces of zero. -/
def ipv6Pieces? (cs : List Char) : Option (List Nat) :=
  match splitAtFirst "::".toList cs with
  | none => do
    let pieces ← sidePieces? true cs
    if pieces.length = 8 then some pieces else none
  | some (before, after) => do
    if occursIn "::".toList after then none
    let left ← sidePieces? false before
    let right ← sidePieces? true after
    if left.length + right.length < 8 then
      some (left ++ List.replicate (8 - left.length - right.length) 0 ++ right)
    else none

/-- The length of the run of zeros at the start. -/
def zerosAhead : List Nat → Nat
  | 0 :: rest => zerosAhead rest + 1
  | _ => 0

/-- The first longest run of zeros, as its place and length. -/
def longestZeros (pieces : List Nat) : Nat × Nat :=
  (List.range pieces.length).foldl (fun best i =>
    let n := zerosAhead (pieces.drop i)
    if n > best.2 then (i, n) else best) (0, 0)

/-- An IPv6 address in its shortest form. -/
def showIpv6 (pieces : List Nat) : String :=
  let hex (ps : List Nat) : String :=
    ":".intercalate (ps.map fun p => String.ofList (Nat.toDigits 16 p))
  let (start, n) := longestZeros pieces
  if n > 1 then hex (pieces.take start) ++ "::" ++ hex (pieces.drop (start + n))
  else hex pieces

/-! ## Reading a host -/

/-- What no host may contain. -/
def forbiddenInHost (c : Char) : Bool :=
  c.toNat == 0 || c == '\t' || c == '\n' || c == '\r' || c == ' ' || c == '#' ||
    c == '/' || c == ':'
    || c == '<' || c == '>' || c == '?' || c == '@' || c == '[' || c == '\\' || c == ']' || c == '^'
    || c == '|'

/-- What no domain may contain. -/
def forbiddenInDomain (c : Char) : Bool :=
  forbiddenInHost c || c.toNat ≤ 0x1f || c == '%' || c.toNat == 0x7f

/-- An IPv6 address between brackets, if the text is one. -/
def bracketedHost? (cs : List Char) : Option String := do
  if cs.getLast? = some ']' then
    let pieces ← ipv6Pieces? (cs.dropLast.drop 1)
    some ("[" ++ showIpv6 pieces ++ "]")
  else none

/-- The host of a location in one of the special schemes. -/
def domainHost? (cs : List Char) : Option String := do
  if cs.head? = some '[' then bracketedHost? cs
  else
    let domain ← Domain.asciiDomain? (decodeText (percentDecode cs)).toList
    if domain.isEmpty || domain.any forbiddenInDomain then none
    else if endsInNumber domain then
      let parts ← (labelsOf domain).mapM addressPart?
      showAddress <$> addressOfParts? parts
    else some (String.ofList domain)

/-- The host of a location in any other scheme. -/
def opaqueHost? (cs : List Char) : Option String := do
  if cs.head? = some '[' then bracketedHost? cs
  else if cs.any forbiddenInHost then none
  else some (String.ofList (percentEncode encodedAlways cs))

end XmlAdvisor
