/-!
# Labels in ASCII

A label outside ASCII is written as its ASCII characters, a hyphen, and a sequence of numbers that
tells which other characters go where.  Each number is how many steps to go on through all places
for all characters.  Numbers are written with thresholds that adapt to the numbers before, so that
small ones take few digits.
-/

namespace XmlAdvisor.Domain

/-! ## Numbers -/

/-- The threshold of the digit at place `k`. -/
def digitThreshold (k bias : Nat) : Nat :=
  if k ≤ bias then 1 else if bias + 26 ≤ k then 26 else k - bias

/-- A digit of base 36: the letters first, then the decimal digits. -/
def base36Digit (d : Nat) : Char :=
  if d < 26 then Char.ofNat (0x61 + d) else Char.ofNat (0x16 + d)

/-- A number with thresholds that grow along its digits; `fuel` bounds their count. -/
def variableDigits (bias : Nat) : (fuel k q : Nat) → List Char
  | 0, _, _ => []
  | fuel + 1, k, q =>
    let t := digitThreshold k bias
    if q < t then [base36Digit q]
    else base36Digit (t + (q - t) % (36 - t))
      :: variableDigits bias fuel (k + 36) ((q - t) / (36 - t))

/-- Divides by 35 until the rest is small, counting 36 for each division. -/
def scaleDown : (fuel delta k : Nat) → Nat × Nat
  | 0, delta, k => (delta, k)
  | fuel + 1, delta, k => if delta > 455 then scaleDown fuel (delta / 35) (k + 36) else (delta, k)

/-- The bias after a delta was written. -/
def adaptBias (delta points : Nat) (isFirst : Bool) : Nat :=
  let d := if isFirst then delta / 700 else delta / 2
  let (d, k) := scaleDown 32 (d + d / points) 0
  k + 36 * d / (d + 38)

/-! ## Writing -/

/-- What the encoder keeps between two characters. -/
structure LabelEncoder where
  output : List Char
  delta : Nat
  bias : Nat
  written : Nat

/-- Passes over one character of the label while code point `m` is due. -/
def LabelEncoder.pass (basic m : Nat) (s : LabelEncoder) (c : Char) : LabelEncoder :=
  if c.toNat < m then { s with delta := s.delta + 1 }
  else if c.toNat = m then
    { output := s.output ++ variableDigits s.bias 32 36 s.delta
      delta := 0
      bias := adaptBias s.delta (s.written + 1) (s.written = basic)
      written := s.written + 1 }
  else s

/-- Writes the characters outside ASCII, in the order of their code points. -/
def encodeDue (label : List Char) (basic : Nat) : List Nat → Nat → LabelEncoder → LabelEncoder
  | [], _, s => s
  | m :: more, n, s =>
    let s := { s with delta := s.delta + (m - n) * (s.written + 1) }
    let s := label.foldl (LabelEncoder.pass basic m) s
    encodeDue label basic more (m + 1) { s with delta := s.delta + 1 }

/-- A label in ASCII: its ASCII characters, a hyphen, and where the others go. -/
def punycode (label : List Char) : List Char :=
  let basic := label.filter (·.toNat < 0x80)
  let due := ((label.filter (0x80 ≤ ·.toNat)).map Char.toNat).mergeSort.eraseDups
  let start : LabelEncoder := ⟨[], 0, 72, basic.length⟩
  basic ++ (if basic.isEmpty then [] else ['-']) ++
    (encodeDue label basic.length due 0x80 start).output

/-! ## Reading -/

/-- The value of a digit of base 36. -/
def digitValue? (c : Char) : Option Nat :=
  if 'a' ≤ c && c ≤ 'z' then some (c.toNat - 0x61)
  else if c.isDigit then some (c.toNat - 0x16)
  else none

/-- The largest number that is read. -/
def numberLimit : Nat :=
  Nat.pow 2 32 - 1

/-- A number at the start of a text, added to `sum`, and what follows it.  The next digit stands at
place `k` and counts `weight`. -/
def readNumber? (bias : Nat) : (k weight sum : Nat) → List Char → Option (Nat × List Char)
  | _, _, _, [] => none
  | k, weight, sum, c :: rest => do
    let d ← digitValue? c
    let t := digitThreshold k bias
    let sum := sum + d * weight
    if sum > numberLimit then none
    else if d < t then some (sum, rest)
    else if weight * (36 - t) > numberLimit then none
    else readNumber? bias (k + 36) (weight * (36 - t)) sum rest

/-- Puts characters into a label as numbers tell, until the text ends; at most `fuel` of them.  The
last character was `code`, and counting goes on at place `i`. -/
def readDue? : (fuel bias code i : Nat) → (label : List Char) → List Char → Option (List Char)
  | _, _, _, _, label, [] => some label
  | 0, _, _, _, _, _ => none
  | fuel + 1, bias, code, i, label, cs => do
    let (sum, rest) ← readNumber? bias 36 1 i cs
    let points := label.length + 1
    let code := code + sum / points
    if 0x10ffff < code || (0xd800 ≤ code && code < 0xe000) then none
    else
      let place := sum % points
      let label := label.take place ++ Char.ofNat code :: label.drop place
      readDue? fuel (adaptBias (sum - i) points (i = 0)) code (place + 1) label rest

/-- The label that a text in ASCII stands for. -/
def fromPunycode? (cs : List Char) : Option (List Char) :=
  let digits := (cs.reverse.takeWhile (· != '-')).reverse
  let basic := cs.take (cs.length - digits.length - 1)
  let digits := if basic.isEmpty then cs else digits
  if basic.any (0x80 ≤ ·.toNat) then none else readDue? digits.length 72 0x80 0 basic digits

end XmlAdvisor.Domain
