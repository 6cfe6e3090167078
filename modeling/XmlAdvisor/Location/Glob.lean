import XmlAdvisor.Text.Search

/-!
# File patterns

**Reading.**  A pattern is read from left to right into tokens; braces hold alternatives, which may
hold braces again.  Two stars stand for any directories only when they fill a component; elsewhere
they are two single stars.  What a star pair means depends on the tokens before it in the same
alternative, so the reader keeps the open alternatives on a stack, innermost first.

**Matching** is on bytes, and a token is described by what it may leave over: `Token.rests` lists
the ends of a text that remain when the token has taken a beginning of it.  A pattern matches a text
when it can leave nothing over.
-/

namespace XmlAdvisor.Glob

/-- A piece of a pattern. -/
inductive Token
  | literal (c : Char)
  /-- `?` -/
  | one
  /-- `*` -/
  | many
  /-- Any leading directories, or none. -/
  | leadingDirs
  /-- Everything below. -/
  | everythingBelow
  /-- A slash, or any directories between two slashes. -/
  | innerDirs
  | set (negated : Bool) (ranges : List (Char × Char))
  | alternatives (branches : List (List Token))
  deriving Repr

/-- Why a text is no pattern. -/
inductive PatternError
  | unclosedSet
  | reversedRange
  | unopenedAlternatives
  | unclosedAlternatives
  | danglingEscape
  deriving DecidableEq, Repr

/-! ## Reading -/

/-- The reader between two characters: the finished branches of each open brace, the tokens of the
branch being read, last first, and the character before. -/
structure Reader where
  /-- For each open brace, innermost first: its finished branches, last first, and the tokens
  before the brace, last first. -/
  stack : List (List (List Token) × List Token)
  tokens : List Token
  previous : Option Char

/-- Adds a token to the branch being read. -/
def Reader.add (r : Reader) (t : Token) : Reader :=
  { r with tokens := t :: r.tokens }

/-- The ranges of a set after its opening, and what follows its end.  A closing bracket or a hyphen
is literal at the start, and so is a hyphen at the end. -/
def readSet : (isFirst inRange : Bool) → List (Char × Char) → List Char →
    Except PatternError (List (Char × Char) × List Char)
  | _, _, _, [] => .error .unclosedSet
  | isFirst, inRange, ranges, c :: rest =>
    if c == ']' && !isFirst then
      .ok ((if inRange then ('-', '-') :: ranges else ranges).reverse, rest)
    else if c == '-' && !isFirst && !inRange then readSet false true ranges rest
    else if inRange then
      match ranges with
      | (low, _) :: before =>
        if c < low then .error .reversedRange
        else readSet false false ((low, c) :: before) rest
      | [] => readSet false false [(c, c)] rest
    else readSet false false ((c, c) :: ranges) rest

/-- The token that a pair of stars gives in place of the token before it, if that one goes on. -/
def joinStars (isSuffix : Bool) (before : Token) : Token :=
  match before with
  | .leadingDirs => .leadingDirs
  | .everythingBelow => .everythingBelow
  | _ => if isSuffix then .everythingBelow else .innerDirs

/-- Whether a pair of stars read next begins a component: after a slash, and within braces also
after an escaped comma or an escaped opening brace. -/
def Reader.beginsComponent (r : Reader) : Bool :=
  r.previous == some '/' ||
    (!r.stack.isEmpty && (r.previous == some ',' || r.previous == some '\x7b'))

/-- Reads a pair of stars that is followed by `rest`; gives what is left to read. -/
def Reader.stars (r : Reader) (rest : List Char) : Reader × List Char :=
  let plain : Reader × List Char :=
    ({ r with tokens := .many :: .many :: r.tokens, previous := some '*' }, rest)
  let afterSlash (tokens : List Token) : Reader × List Char :=
    match rest with
    | [] => ({ r with tokens, previous := some '*' }, [])
    | c :: more => ({ r with tokens, previous := some c }, more)
  match r.tokens with
  | [] => if rest.head?.all (· == '/') then afterSlash [.leadingDirs] else plain
  | before :: earlier =>
    if !r.beginsComponent then plain
    else
      match rest with
      | [] => afterSlash (joinStars true before :: earlier)
      | c :: _ =>
        if (c == ',' || c == '\x7d') && !r.stack.isEmpty then
          ({ r with tokens := joinStars true before :: earlier, previous := some '*' }, rest)
        else if c == '/' then afterSlash (joinStars false before :: earlier)
        else plain

/-- Reads at most `steps` pieces of a pattern. -/
def readPieces : (steps : Nat) → Reader → List Char → Except PatternError Reader
  | 0, r, _ => .ok r
  | _, r, [] => .ok r
  | steps + 1, r, c :: rest =>
    let next (r : Reader) : Except PatternError Reader :=
      readPieces steps { r with previous := some c } rest
    if c == '?' then next (r.add .one)
    else if c == '*' then
      match rest with
      | '*' :: more =>
        let (r, rest) := r.stars more
        readPieces steps r rest
      | _ => next (r.add .many)
    else if c == '[' then
      let (negated, inside) := match rest with
        | '!' :: more => (true, more)
        | '^' :: more => (true, more)
        | _ => (false, rest)
      match readSet true false [] inside with
      | .error e => .error e
      | .ok (ranges, rest) =>
        readPieces steps { r.add (.set negated ranges) with previous := some ']' } rest
    else if c == '\x7b' then next { r with stack := ([], r.tokens) :: r.stack, tokens := [] }
    else if c == '\x7d' then
      match r.stack with
      | [] => .error .unopenedAlternatives
      | (branches, before) :: stack =>
        let all := (r.tokens.reverse :: branches).reverse
        next { r with stack, tokens := .alternatives all :: before }
    else if c == ',' then
      match r.stack with
      | [] => next (r.add (.literal c))
      | (branches, before) :: stack =>
        next { r with stack := (r.tokens.reverse :: branches, before) :: stack, tokens := [] }
    else if c == '\\' then
      match rest with
      | [] => .error .danglingEscape
      | d :: more => readPieces steps { r.add (.literal d) with previous := some d } more
    else next (r.add (.literal c))

/-- The tokens of a pattern. -/
def read (pattern : String) : Except PatternError (List Token) :=
  let cs := pattern.toList
  match readPieces cs.length ⟨[], [], none⟩ cs with
  | .error e => .error e
  | .ok r => if r.stack.isEmpty then .ok r.tokens.reverse else .error .unclosedAlternatives

/-! ## Matching -/

/-- The ends of a text, the whole text first. -/
def ends : List UInt8 → List (List UInt8)
  | [] => [[]]
  | b :: bs => (b :: bs) :: ends bs

/-- The ends of a text that come after a slash. -/
def endsAfterSlash : List UInt8 → List (List UInt8)
  | [] => []
  | b :: bs => if b == 0x2f then bs :: endsAfterSlash bs else endsAfterSlash bs

/-- What is left of a text after a beginning of it. -/
def stripBytes : (beginning text : List UInt8) → Option (List UInt8)
  | [], text => some text
  | _ :: _, [] => none
  | a :: more, b :: rest => if a == b then stripBytes more rest else none

/-- Whether a byte lies in a range of characters; a bound outside ASCII counts by its bytes. -/
def byteInRange (b : UInt8) (range : Char × Char) : Bool :=
  let low := String.utf8EncodeChar range.1
  let high := String.utf8EncodeChar range.2
  if range.1 == range.2 then low.contains b
  else
    low.dropLast.contains b || (high.drop 1).contains b ||
      (low.getLast?.any (· ≤ b) && high.head?.any (b ≤ ·))

/-- Ends of one text, each of them once. -/
def distinctEnds (rests : List (List UInt8)) : List (List UInt8) :=
  rests.foldr (fun r kept => if kept.any (·.length == r.length) then kept else r :: kept) []

mutual
/-- Whether a token is written as alternatives of which none says anything. -/
def Token.isVoid : Token → Bool
  | .alternatives branches => areVoid branches
  | _ => false

/-- Whether all tokens of a branch are void. -/
def isVoidBranch : List Token → Bool
  | [] => true
  | t :: ts => t.isVoid && isVoidBranch ts

/-- Whether all branches are void. -/
def areVoid : List (List Token) → Bool
  | [] => true
  | branch :: more => isVoidBranch branch && areVoid more
end

mutual
/-- The ends of a text that a token may leave over. -/
def Token.rests : Token → List UInt8 → List (List UInt8)
  | .literal c, text => (stripBytes (String.utf8EncodeChar c) text).toList
  | .one, text => (text.tail?).toList
  | .many, text => ends text
  | .leadingDirs, text => text :: endsAfterSlash text
  | .everythingBelow, text => if text.head? == some 0x2f then ends (text.drop 1) else []
  | .innerDirs, text => if text.head? == some 0x2f then text.drop 1 :: endsAfterSlash (text.drop 1)
    else []
  | .set negated ranges, text =>
    match text with
    | [] => []
    | b :: rest => if (ranges.any (byteInRange b)) != negated then [rest] else []
  | .alternatives branches, text => if areVoid branches then [text] else branchRests branches text

/-- The ends of a text that one of the branches may leave over; a void branch is none. -/
def branchRests : List (List Token) → List UInt8 → List (List UInt8)
  | [], _ => []
  | branch :: more, text =>
    (if isVoidBranch branch then [] else sequenceRests branch [text]) ++ branchRests more text

/-- The ends that a sequence of tokens may leave over of any of the texts. -/
def sequenceRests : List Token → List (List UInt8) → List (List UInt8)
  | [], texts => texts
  | t :: ts, texts => sequenceRests ts (distinctEnds (texts.flatMap t.rests))
end

/-- Whether a pattern matches a whole path. -/
def isMatch (pattern : List Token) (path : List UInt8) : Bool :=
  match pattern with
  | [.leadingDirs] => true
  | _ => (sequenceRests pattern [path]).any List.isEmpty

end XmlAdvisor.Glob
