import XmlAdvisor.Dtd.Basic
import XmlAdvisor.Text.Blank
import XmlAdvisor.Text.Search

/-!
# Reading a document type definition

**Pieces.**  A definition is read into a list of pieces, one for each markup: declarations that are
understood, comments, and all else, which is skipped.  A declaration that is not understood, for
instance one that is put together from parameter entities, is skipped as well; only markup that does
not end and text between declarations make a definition unreadable.

**Assembling** the pieces keeps the first declaration of each element and of each of its attributes.
A comment documents the element that is declared next, unless a piece that breaks the connection
stands between them.
-/

namespace XmlAdvisor

/-- The markup that can be left without an end. -/
inductive DtdMarkup
  | comment
  | instruction
  | conditional
  | declaration
  | entityReference
  deriving DecidableEq, Repr

/-- Why a definition cannot be read, with the place as a number of bytes. -/
inductive DtdError
  | unterminated (what : DtdMarkup) (offset : Nat)
  | unexpectedContent (offset : Nat)
  deriving DecidableEq, Repr

def DtdMarkup.label : DtdMarkup → String
  | .comment => "comment"
  | .instruction => "processing instruction"
  | .conditional => "conditional section"
  | .declaration => "declaration"
  | .entityReference => "parameter entity reference"

/-- The wording of a definition error. -/
def DtdError.message : DtdError → String
  | .unterminated what o => "unterminated " ++ what.label ++ s!" at offset {o}"
  | .unexpectedContent o => s!"unexpected content at offset {o}"

/-- A piece of a definition. -/
inductive DtdPiece
  /-- A comment, with its text unless it is blank. -/
  | comment (text : Option String)
  | element (name : String) (content : ContentSpec)
  | attributes (element : String) (attributes : List DtdAttribute)
  /-- Markup that a comment before it looks past. -/
  | passing
  /-- Markup that ends the connection of a comment before it. -/
  | breaking
  deriving Repr, BEq

/-! ## Reading a declaration -/

/-- A reading step on the rest of a definition. -/
abbrev DtdScan := StateT (List Char) Option

namespace DtdScan

/-- Skips blanks; tells whether there were any. -/
def blanks : DtdScan Bool := do
  let cs ← get
  let rest := cs.dropWhile isXmlSpace
  set rest
  return rest.length < cs.length

/-- Skips blanks, of which there must be some. -/
def someBlanks : DtdScan Unit := do
  if !(← blanks) then failure

/-- Reads a text if it comes next; tells whether it did. -/
def take (s : String) : DtdScan Bool := do
  let cs ← get
  if s.toList.isPrefixOf cs then
    set (cs.drop s.length)
    return true
  else return false

/-- Reads a text that must come next. -/
def need (s : String) : DtdScan Unit := do
  if !(← take s) then failure

/-- Whether a character ends a name. -/
def endsName (c : Char) : Bool :=
  isBlank c || "()|,?*+>\"'%;[]".toList.contains c

/-- Reads a name. -/
def name : DtdScan String := do
  let cs ← get
  let n := cs.takeWhile (!endsName ·)
  if n.isEmpty then failure
  set (cs.drop n.length)
  return String.ofList n

/-- Reads a text between quotation marks of one kind. -/
def quotedText : DtdScan String := do
  match ← get with
  | [] => failure
  | mark :: cs =>
    if mark == '"' || mark == '\'' then
      let (value, rest) ← (splitAtFirst [mark] cs : Option (List Char × List Char))
      set rest
      return String.ofList value
    else failure

/-- Reads what separates two members of a group. -/
def separator : DtdScan Char := do
  if ← take "," then return ','
  else
    need "|"
    return '|'

/-- Reads how often a part may stand. -/
def occurrence : DtdScan Occurrence := do
  if ← take "?" then return .optional
  else if ← take "*" then return .zeroOrMore
  else if ← take "+" then return .oneOrMore
  else return .once

/-- Reads names with bars between them up to a closing parenthesis, `count` at most. -/
def alternatives : (count : Nat) → DtdScan (List String)
  | 0 => failure
  | count + 1 => do
    let _ ← blanks
    let n ← name
    let _ ← blanks
    if ← take ")" then return [n]
    else
      need "|"
      return n :: (← alternatives count)

/-- Reads the rest of a mixed content after its keyword, `count` names at most. -/
def mixedRest : (count : Nat) → DtdScan (List String)
  | 0 => failure
  | count + 1 => do
    let _ ← blanks
    if ← take ")" then
      let _ ← take "*"
      return []
    else
      need "|"
      let _ ← blanks
      let n ← name
      return n :: (← mixedRest count)

mutual
/-- Reads a particle. -/
def particle : (steps : Nat) → DtdScan Particle
  | 0 => failure
  | steps + 1 => do
    let _ ← blanks
    if ← take "(" then group steps
    else
      let n ← name
      return .name n (← occurrence)

/-- Reads a group after its opening parenthesis. -/
def group : (steps : Nat) → DtdScan Particle
  | 0 => failure
  | steps + 1 => do
    let first ← particle steps
    let (sep, more) ← members steps none
    if sep = some '|' then return .choice (first :: more) (← occurrence)
    else return .sequence (first :: more) (← occurrence)

/-- Reads the members of a group after the first, with one separator between all of them. -/
def members : (steps : Nat) → (before : Option Char) → DtdScan (Option Char × List Particle)
  | 0, _ => failure
  | steps + 1, before => do
    let _ ← blanks
    if ← take ")" then return (before, [])
    else
      let sep ← separator
      if before.any (· != sep) then failure
      let p ← particle steps
      let (last, more) ← members steps (some sep)
      return (last, p :: more)
end

/-- The number of steps that is enough for what is left to read. -/
def enough : DtdScan Nat := do
  return 2 * (← get).length + 2

/-- Reads the content of an element. -/
def contentSpec : DtdScan ContentSpec := do
  if ← take "EMPTY" then return .empty
  else if ← take "ANY" then return .any
  else
    need "("
    let _ ← blanks
    if ← take "#PCDATA" then return .mixed (← mixedRest (← enough))
    else return .children (← group (← enough))

/-- Reads an element declaration after its keyword. -/
def elementDeclaration : DtdScan DtdPiece := do
  someBlanks
  let n ← name
  someBlanks
  let content ← contentSpec
  let _ ← blanks
  need ">"
  return .element n content

/-- Reads the type of an attribute. -/
def attributeType : DtdScan AttributeType := do
  if ← take "(" then return .enumeration (← alternatives (← enough))
  else
    match ← name with
    | "CDATA" => return .cdata
    | "ID" => return .id
    | "IDREF" => return .idref
    | "IDREFS" => return .idrefs
    | "ENTITY" => return .entity
    | "ENTITIES" => return .entities
    | "NMTOKEN" => return .nmtoken
    | "NMTOKENS" => return .nmtokens
    | "NOTATION" =>
      let _ ← blanks
      need "("
      return .notations (← alternatives (← enough))
    | _ => failure

/-- Reads what holds for an attribute that is not written. -/
def defaultDeclaration : DtdScan DefaultDecl := do
  if ← take "#REQUIRED" then return .required
  else if ← take "#IMPLIED" then return .implied
  else if ← take "#FIXED" then
    let _ ← blanks
    return .fixed (← quotedText)
  else return .value (← quotedText)

/-- Reads attributes up to the end of their list, `count` at most. -/
def attributeList : (count : Nat) → DtdScan (List DtdAttribute)
  | 0 => failure
  | count + 1 => do
    let _ ← blanks
    if ← take ">" then return []
    else
      let n ← name
      someBlanks
      let type ← attributeType
      someBlanks
      let default ← defaultDeclaration
      return ⟨n, type, default⟩ :: (← attributeList count)

/-- Reads an attribute list declaration after its keyword. -/
def attributesDeclaration : DtdScan DtdPiece := do
  someBlanks
  let n ← name
  return .attributes n (← attributeList (← enough))

end DtdScan

/-! ## Reading pieces -/

/-- What follows the `>` that ends a declaration; one between quotation marks ends none. -/
def skipDeclaration? : (mark : Option Char) → List Char → Option (List Char)
  | _, [] => none
  | some q, c :: rest => skipDeclaration? (if c == q then none else some q) rest
  | none, c :: rest =>
    if c == '>' then some rest
    else skipDeclaration? (if c == '"' || c == '\'' then some c else none) rest

/-- The text before an end mark and what follows it. -/
def readUntil (ending : String) (cs : List Char) : Option (List Char × List Char) :=
  splitAtFirst ending.toList cs

/-- The text of a comment, unless it is blank. -/
def commentText (cs : List Char) : Option String :=
  let body := trim cs
  if body.isEmpty then none else some (String.ofList body)

/-- The piece at the start of a text that begins with no blank, and what follows it.  The cause of
a failure is given without its place. -/
def readPiece (cs : List Char) : Except (Option DtdMarkup) (DtdPiece × List Char) :=
  let after (s : String) : Option (List Char) :=
    if s.toList.isPrefixOf cs then some (cs.drop s.length) else none
  let skipped (what : DtdMarkup) (piece : DtdPiece) (rest : Option (List Char)) :
      Except (Option DtdMarkup) (DtdPiece × List Char) :=
    match rest with
    | some rest => .ok (piece, rest)
    | none => .error (some what)
  if let some rest := after "<!--" then
    match readUntil "-->" rest with
    | some (body, rest) => .ok (.comment (commentText body), rest)
    | none => .error (some .comment)
  else if let some rest := after "<?" then
    skipped .instruction .passing ((readUntil "?>" rest).map (·.2))
  else if let some rest := after "<![" then
    skipped .conditional .breaking ((readUntil "]]>" rest).map (·.2))
  else if let some rest := after "<!ELEMENT" then
    match DtdScan.elementDeclaration rest with
    | some read => .ok read
    | none => skipped .declaration .passing (skipDeclaration? none (cs.drop 2))
  else if let some rest := after "<!ATTLIST" then
    match DtdScan.attributesDeclaration rest with
    | some read => .ok read
    | none => skipped .declaration .breaking (skipDeclaration? none (cs.drop 2))
  else if let some rest := after "<!" then
    skipped .declaration .breaking (skipDeclaration? none rest)
  else if let some rest := after "%" then
    skipped .entityReference .passing ((readUntil ";" rest).map (·.2))
  else .error none

/-- The number of bytes of a text. -/
def byteLength (cs : List Char) : Nat :=
  (cs.map Char.utf8Size).foldr (· + ·) 0

/-- At most `count` pieces of a text that starts at byte `offset`. -/
def readPieces : (count offset : Nat) → List Char → Except DtdError (List DtdPiece)
  | 0, _, _ => .ok []
  | count + 1, offset, cs =>
    let blank := cs.takeWhile isXmlSpace
    let start := offset + blank.length
    match cs.drop blank.length with
    | [] => .ok []
    | c :: cs =>
      match readPiece (c :: cs) with
      | .error (some what) => .error (.unterminated what start)
      | .error none => .error (.unexpectedContent start)
      | .ok (piece, rest) => do
        let stop := start + (byteLength (c :: cs) - byteLength rest)
        return piece :: (← readPieces count stop rest)

/-- The pieces of a definition. -/
def dtdPieces (text : List Char) : Except DtdError (List DtdPiece) :=
  readPieces text.length 0 text

/-! ## Assembling -/

/-- A definition that is being assembled. -/
structure DtdAssembly where
  elements : List DtdElement
  /-- The attributes declared for each name so far. -/
  attributes : List (String × List DtdAttribute)
  /-- The comment that the next declared element is documented by. -/
  comment : Option String

namespace DtdAssembly

/-- Adds the attributes that are not declared yet. -/
def addNew (known : List DtdAttribute) (more : List DtdAttribute) : List DtdAttribute :=
  more.foldl (fun known a => if known.any (·.name = a.name) then known else known ++ [a]) known

/-- Adds attributes for an element name. -/
def addAttributes (element : String) (more : List DtdAttribute) :
    List (String × List DtdAttribute) → List (String × List DtdAttribute)
  | [] => [(element, addNew [] more)]
  | (other, known) :: rest =>
    if other = element then (other, addNew known more) :: rest
    else (other, known) :: addAttributes element more rest

/-- Takes one piece. -/
def add (s : DtdAssembly) : DtdPiece → DtdAssembly
  | .comment text => { s with comment := text }
  | .element name content =>
    let elements :=
      if s.elements.any (·.name = name) then s.elements
      else s.elements ++ [⟨name, content, [], s.comment⟩]
    { s with elements, comment := none }
  | .attributes element more =>
    { s with attributes := addAttributes element more s.attributes, comment := none }
  | .passing => s
  | .breaking => { s with comment := none }

end DtdAssembly

/-- The definition that pieces make. -/
def Dtd.ofPieces (pieces : List DtdPiece) : Dtd :=
  let s := pieces.foldl DtdAssembly.add ⟨[], [], none⟩
  ⟨s.elements.map fun e => { e with attributes := (s.attributes.lookup e.name).getD [] }⟩

/-- The definition that a text stands for. -/
def Dtd.read (text : List Char) : Except DtdError Dtd :=
  (dtdPieces text).map Dtd.ofPieces

end XmlAdvisor
