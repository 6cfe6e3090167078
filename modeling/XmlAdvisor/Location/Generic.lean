import XmlAdvisor.Location.Host
import XmlAdvisor.Location.Percent
import XmlAdvisor.Text.Search

/-!
# Generic resource identifiers

Editors exchange identifiers in the generic syntax, which is narrower than what `Url.read?` lets
through: each part has its own set of plain characters, and a percent sign must begin an escape.
`isIdentifier` decides whether a text is an absolute identifier in this syntax.
-/

namespace XmlAdvisor

/-- The characters that stand for themselves everywhere. -/
def isUnreserved (c : Char) : Bool :=
  c.isAlphanum || c == '-' || c == '.' || c == '_' || c == '~'

/-- The characters that separate parts of a part. -/
def isSubDelimiter (c : Char) : Bool :=
  c == '!' || c == '$' || c == '&' || c == '\'' || c == '(' || c == ')' || c == '*' || c == '+'
    || c == ',' || c == ';' || c == '='

/-- The characters of a path besides its slashes. -/
def isPathChar (c : Char) : Bool :=
  isUnreserved c || isSubDelimiter c || c == ':' || c == '@'

/-- Whether a text holds only characters of a set and complete escapes. -/
def isPlainOrEscaped (plain : Char → Bool) : List Char → Bool
  | [] => true
  | '%' :: a :: b :: rest =>
    (hexValue? a).isSome && (hexValue? b).isSome && isPlainOrEscaped plain rest
  | c :: rest => plain c && isPlainOrEscaped plain rest

/-- Whether a text can be a scheme. -/
def isScheme : List Char → Bool
  | [] => false
  | c :: rest => c.isAlpha && rest.all fun d => d.isAlphanum || d == '+' || d == '-' || d == '.'

/-- Whether a text is an IPv6 address in brackets. -/
def isBracketed (cs : List Char) : Bool :=
  cs.head? == some '[' && (bracketedHost? cs).isSome

/-- Whether a text can be an authority. -/
def isAuthority (cs : List Char) : Bool :=
  let (info, place) := match splitAtFirst ['@'] cs with
    | some (info, place) => (info, place)
    | none => ([], cs)
  let infoOk := isPlainOrEscaped (fun c => isUnreserved c || isSubDelimiter c || c == ':') info
  let (host, port) :=
    if place.head? == some '[' then
      let tail := place.dropWhile (· != ']')
      (place.takeWhile (· != ']') ++ tail.take 1, tail.drop 1)
    else (place.takeWhile (· != ':'), place.dropWhile (· != ':'))
  let portOk := match port with
    | [] => true
    | ':' :: digits => digits.all Char.isDigit
    | _ => false
  infoOk && portOk &&
    (isBracketed host || isPlainOrEscaped (fun c => isUnreserved c || isSubDelimiter c) host)

/-- Whether a text can be what follows a scheme: an authority and a path, or a path alone. -/
def isHierarchy (cs : List Char) : Bool :=
  let isPathOrSlash (c : Char) : Bool := isPathChar c || c == '/'
  match cs with
  | '/' :: '/' :: after =>
    isAuthority (after.takeWhile (· != '/')) &&
      isPlainOrEscaped isPathOrSlash (after.dropWhile (· != '/'))
  | _ => isPlainOrEscaped isPathOrSlash cs

/-- Whether a text can be a query or a fragment. -/
def isTail (cs : List Char) : Bool :=
  isPlainOrEscaped (fun c => isPathChar c || c == '/' || c == '?') cs

/-- The part of an identifier before its query and fragment, if these are well formed. -/
def hierarchyPart? (s : String) : Option (List Char) :=
  let (main, fragment) := (splitAtFirst ['#'] s.toList).getD (s.toList, [])
  let (hierarchy, query) := (splitAtFirst ['?'] main).getD (main, [])
  if isTail query && isTail fragment then some hierarchy else none

/-- Whether a text is an absolute identifier. -/
def isIdentifier (s : String) : Bool :=
  match (hierarchyPart? s).bind (splitAtFirst [':']) with
  | some (scheme, rest) => isScheme scheme && isHierarchy rest
  | none => false

/-- Whether a text is an identifier or a reference relative to one, whose first segment has no
colon. -/
def isReference (s : String) : Bool :=
  match hierarchyPart? s with
  | some hierarchy =>
    isIdentifier s || (isHierarchy hierarchy && !(hierarchy.takeWhile (· != '/')).contains ':')
  | none => false

end XmlAdvisor
