import XmlAdvisor.Text.Blank
import XmlAdvisor.Text.Search

/-!
# Pseudo-attributes

The data of a processing instruction often looks like the attributes of a start tag.
`pseudoAttributes` reads such pairs in order and ignores what follows the last complete one.  Each
pair takes at least its equals sign and two quotation marks away, so the rest gets shorter.
-/

namespace XmlAdvisor

/-- The first pair of the data and what follows it, if a pair is complete.  A name is all that
stands before the next equals sign, without blanks around it. -/
def pseudoAttribute? (data : List Char) : Option ((String × String) × List Char) := do
  let (before, after) ← splitAtFirst ['='] data
  match trimStart after with
  | [] => none
  | mark :: rest =>
    if mark == '"' || mark == '\'' then
      let (value, rest) ← splitAtFirst [mark] rest
      some ((String.ofList (trim before), String.ofList value), rest)
    else none

/-- At most `count` pairs of the data. -/
def pseudoAttributesUpTo : (count : Nat) → List Char → List (String × String)
  | 0, _ => []
  | count + 1, data =>
    match pseudoAttribute? data with
    | none => []
    | some (pair, rest) => pair :: pseudoAttributesUpTo count rest

/-- The pairs that the data of a processing instruction consists of. -/
def pseudoAttributes (data : Option String) : List (String × String) :=
  match data with
  | none => []
  | some s => pseudoAttributesUpTo s.length s.toList

/-- The value of the first pair with the given name. -/
def pseudoValue? (data : Option String) (name : String) : Option String :=
  (pseudoAttributes data).lookup name

end XmlAdvisor
