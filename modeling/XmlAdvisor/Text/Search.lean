/-!
# Looking for a text inside another

Plain searches over characters: whether a text stands somewhere inside another, and the parts of a
text around the first place where another begins.
-/

namespace XmlAdvisor

/-- Whether `needle` stands somewhere in the text. -/
def occursIn (needle : List Char) : List Char → Bool
  | [] => needle.isEmpty
  | c :: cs => needle.isPrefixOf (c :: cs) || occursIn needle cs

/-- The parts of a text before and after the first place where `needle` stands. -/
def splitAtFirst (needle : List Char) : List Char → Option (List Char × List Char)
  | [] => if needle.isEmpty then some ([], []) else none
  | c :: cs =>
    if needle.isPrefixOf (c :: cs) then some ([], (c :: cs).drop needle.length)
    else (splitAtFirst needle cs).map fun (before, after) => (c :: before, after)

/-- The pieces of a text between the places where a separator stands; one piece without any. -/
def splitOnChar (sep : Char) : List Char → List (List Char)
  | [] => [[]]
  | c :: cs =>
    if c == sep then [] :: splitOnChar sep cs
    else
      match splitOnChar sep cs with
      | [] => [[c]]
      | piece :: more => (c :: piece) :: more

end XmlAdvisor
