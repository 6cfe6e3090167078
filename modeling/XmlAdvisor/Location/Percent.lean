/-!
# Percent-encoding

**Encoding** writes the bytes of a character as `%` and two hexadecimal digits each.  Which
characters are written so depends on where in a location they stand; each such set is a predicate
below, and each contains the control characters and everything outside ASCII.

**Decoding** turns every well-formed escape back into its byte and leaves all else as it is, so the
result is bytes, not always a text.  `decodeText` reads bytes as text and puts U+FFFD for what is
none.
-/

namespace XmlAdvisor

/-! ## Sets of characters to encode -/

/-- Control characters and everything outside ASCII. -/
def encodedAlways (c : Char) : Bool :=
  c.toNat < 0x20 || 0x7e < c.toNat

/-- What is encoded in a fragment. -/
def encodedInFragment (c : Char) : Bool :=
  encodedAlways c || c == ' ' || c == '"' || c == '<' || c == '>' || c == '\x60'

/-- What is encoded in a query. -/
def encodedInQuery (c : Char) : Bool :=
  encodedAlways c || c == ' ' || c == '"' || c == '#' || c == '<' || c == '>'

/-- What is encoded in a query of one of the special schemes. -/
def encodedInSpecialQuery (c : Char) : Bool :=
  encodedInQuery c || c == '\''

/-- What is encoded in a path. -/
def encodedInPath (c : Char) : Bool :=
  encodedInQuery c || c == '?' || c == '\x60' || c == '\x7b' || c == '\x7d'

/-- What is encoded in the name of a file. -/
def encodedInFileName (c : Char) : Bool :=
  encodedInPath c || c == '/' || c == '%' || c == '\\'

/-- What is encoded in the name of a user and in a password. -/
def encodedInUserInfo (c : Char) : Bool :=
  encodedInPath c || c == '/' || c == ':' || c == ';' || c == '=' || c == '@' || c == '['
    || c == '\\' || c == ']' || c == '^' || c == '|'

/-! ## Encoding -/

/-- A hexadecimal digit in upper case. -/
def upperHexDigit (n : Nat) : Char :=
  if n < 10 then Char.ofNat (0x30 + n) else Char.ofNat (0x37 + n)

/-- A byte written as an escape. -/
def escapeByte (b : UInt8) : List Char :=
  ['%', upperHexDigit (b.toNat / 16), upperHexDigit (b.toNat % 16)]

/-- A text in which the characters of a set are written as escapes. -/
def percentEncode (encoded : Char → Bool) (cs : List Char) : List Char :=
  cs.flatMap fun c =>
    if encoded c then (String.utf8EncodeChar c).flatMap escapeByte else [c]

/-! ## Decoding -/

/-- The value of a hexadecimal digit. -/
def hexValue? (c : Char) : Option Nat :=
  let n := c.toNat
  if 0x30 ≤ n && n ≤ 0x39 then some (n - 0x30)
  else if 0x41 ≤ n && n ≤ 0x46 then some (n - 0x37)
  else if 0x61 ≤ n && n ≤ 0x66 then some (n - 0x57)
  else none

/-- The bytes of a text after its escapes are read. -/
def percentDecode : List Char → List UInt8
  | '%' :: a :: b :: rest =>
    match hexValue? a, hexValue? b with
    | some x, some y => UInt8.ofNat (16 * x + y) :: percentDecode rest
    | _, _ => 0x25 :: percentDecode (a :: b :: rest)
  | c :: rest => String.utf8EncodeChar c ++ percentDecode rest
  | [] => []

/-- Whether a byte continues a character. -/
def isContinuation (b : UInt8) : Bool :=
  0x80 ≤ b && b < 0xc0

/-- How many bytes the character takes that begins with this byte, and the range of the byte after
it; none if no character begins so. -/
def sequenceShape (b : UInt8) : Option (Nat × UInt8 × UInt8) :=
  if b < 0x80 then some (1, 0x80, 0xbf)
  else if b < 0xc2 then none
  else if b < 0xe0 then some (2, 0x80, 0xbf)
  else if b == 0xe0 then some (3, 0xa0, 0xbf)
  else if b == 0xed then some (3, 0x80, 0x9f)
  else if b < 0xf0 then some (3, 0x80, 0xbf)
  else if b == 0xf0 then some (4, 0x90, 0xbf)
  else if b < 0xf4 then some (4, 0x80, 0xbf)
  else if b == 0xf4 then some (4, 0x80, 0x8f)
  else none

/-- The code point that a complete sequence of bytes stands for. -/
def codePointOf : List UInt8 → Nat
  | [] => 0
  | b :: more =>
    let lead := b.toNat
    let first := match more.length with
      | 0 => lead
      | 1 => lead - 0xc0
      | 2 => lead - 0xe0
      | _ => lead - 0xf0
    more.foldl (fun acc m => acc * 64 + (m.toNat - 0x80)) first

/-- The bytes after the first that belong to the same character, as far as they are in place. -/
def continuationOf (size : Nat) (low high : UInt8) : List UInt8 → List UInt8
  | [] => []
  | second :: others =>
    if size = 1 || second < low || high < second then []
    else second :: (others.take (size - 2)).takeWhile isContinuation

/-- Reads at most `count` characters from bytes; none stands for a sequence that is broken off. -/
def decodeUpTo : (count : Nat) → List UInt8 → List (Option Char)
  | 0, _ => []
  | _, [] => []
  | count + 1, b :: rest =>
    match sequenceShape b with
    | none => none :: decodeUpTo count rest
    | some (size, low, high) =>
      let more := continuationOf size low high rest
      let read :=
        if more.length + 1 = size then some (Char.ofNat (codePointOf (b :: more))) else none
      read :: decodeUpTo count (rest.drop more.length)

/-- The text that bytes stand for, with U+FFFD for each sequence that is broken off. -/
def decodeText (bytes : List UInt8) : String :=
  String.ofList ((decodeUpTo bytes.length bytes).map (·.getD '\ufffd'))

end XmlAdvisor
