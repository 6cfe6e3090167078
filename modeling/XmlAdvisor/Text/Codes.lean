/-!
# Sets and tables of characters

**Ranges.**  A set of characters is a list of ranges of code points.  A large set is written as a
text: its ranges in hexadecimal with blanks between them, a range of one code point as that code
point alone (`41-5a 61-7a aa`).

**Tables** are written in the same way, with what belongs to a range after it.
-/

namespace XmlAdvisor

/-- Ranges of code points, both ends included. -/
abbrev CodeRanges := List (Nat × Nat)

/-- Whether a character falls into one of the ranges. -/
def inRanges (ranges : CodeRanges) (c : Char) : Bool :=
  ranges.any fun r => r.1 ≤ c.toNat && c.toNat ≤ r.2

/-! ## Reading written tables -/

/-- The value of a hexadecimal digit; of another character none is asked for. -/
def codeDigit (c : Char) : Nat :=
  if c.isDigit then c.toNat - 0x30 else c.toNat - 0x57

/-- The code point that hexadecimal digits stand for. -/
def readCode (cs : List Char) : Nat :=
  cs.foldl (fun n c => 16 * n + codeDigit c) 0

/-- The number that decimal digits stand for. -/
def readCount (cs : List Char) : Nat :=
  cs.foldl (fun n c => 10 * n + codeDigit c) 0

/-- A text before and after a mark; without the mark the second part is empty. -/
def cutAtMark (mark : Char) (cs : List Char) : List Char × List Char :=
  (cs.takeWhile (· != mark), (cs.dropWhile (· != mark)).drop 1)

/-- The range that a word stands for. -/
def readRange (word : List Char) : Nat × Nat :=
  let (first, last) := cutAtMark '-' word
  (readCode first, if last.isEmpty then readCode first else readCode last)

/-- Puts one more character in front of words. -/
def extendWords (c : Char) (words : List (List Char)) : List (List Char) :=
  if c == ' ' then [] :: words
  else
    match words with
    | word :: more => (c :: word) :: more
    | [] => [[c]]

/-- The words of a line. -/
def wordsOf (line : String) : List (List Char) :=
  line.toList.foldr extendWords [[]]

/-- The entries of a written table. -/
def readTable {α : Type} (entry : List Char → α) (lines : List String) : List α :=
  lines.flatMap fun line => (wordsOf line).map entry

/-- The ranges that lines stand for. -/
def readRanges (lines : List String) : CodeRanges :=
  readTable readRange lines

end XmlAdvisor
