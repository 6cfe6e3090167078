import XmlAdvisor.Markup.Fault
import XmlAdvisor.Markup.Token
import XmlAdvisor.Text.Blank
import XmlAdvisor.Text.Search

/-!
# Reading text as tokens

**Cursor.**  A `Scan` reads from a cursor, the rest of the text together with the offset it starts
at, and either moves the cursor on or stops with a cause.

**Constructs** have one scan each (`comment`, `instruction`, `doctype`, …).  References are left as
they are written, and of an entity declaration only the form is checked.

**Modes.**  Which construct may begin at the cursor depends on where in the document it stands
(`Mode`).  Inside an internal subset, declarations other than entities are skipped to their `>`
without being looked at.  The depth counts open start tags without comparing names, so end tags are
paired by number alone here.

**Reading on.**  `scanAll` repeats `step` until the text ends or a step fails; what has been read
before a fault stays.  Each step moves the cursor, but for two changes of mode at the start, which
bounds their number.
-/

namespace XmlAdvisor

/-- The unread rest of a text and the offset at which it starts. -/
structure Cursor where
  offset : Nat
  rest : List Char
  deriving Repr

/-- The cursor `n` characters further on. -/
def Cursor.advance (c : Cursor) (n : Nat) : Cursor :=
  ⟨c.offset + n, c.rest.drop n⟩

/-- Whether the given text comes next. -/
def Cursor.startsWith (c : Cursor) (s : String) : Bool :=
  s.toList.isPrefixOf c.rest

/-- A reading step that moves the cursor or stops with a cause. -/
abbrev Scan := StateT Cursor (Except Cause)

namespace Scan

/-- Stops with a cause. -/
def stop {α : Type} (cause : Cause) : Scan α :=
  fun _ => .error cause

/-- The offset of the cursor. -/
def offset : Scan Nat := do
  return (← get).offset

/-- The next character, if there is one. -/
def peek : Scan (Option Char) := do
  return (← get).rest.head?

/-- Whether the given text comes next. -/
def comesNext (s : String) : Scan Bool := do
  return (← get).startsWith s

/-- Moves on by `n` characters. -/
def skip (n : Nat) : Scan Unit :=
  modify (·.advance n)

/-- Reads the characters that satisfy `p`, as many as there are. -/
def run (p : Char → Bool) : Scan (List Char) := do
  let cs := (← get).rest.takeWhile p
  skip cs.length
  return cs

/-- Skips blank characters, if any. -/
def spaces : Scan Unit := do
  let _ ← run isXmlSpace

/-- Reads the given text. -/
def literal (s : String) : Scan Unit := do
  if ← comesNext s then skip s.length
  else stop (.expectedText [s] (← offset))

/-- Reads the given character. -/
def char (c : Char) : Scan Unit := do
  match ← peek with
  | none => stop .endOfText
  | some d => if c = d then skip 1 else stop (.expectedChars [c] d (← offset))

/-- Skips blank characters, of which there must be at least one. -/
def someSpaces : Scan Unit := do
  match ← peek with
  | none => stop .endOfText
  | some c => if isXmlSpace c then spaces else stop (.expectedSpace c (← offset))

/-- Reads a quotation mark of either kind. -/
def quote : Scan Char := do
  match ← peek with
  | none => stop .endOfText
  | some c =>
    if c == '\'' || c == '"' then
      skip 1
      return c
    else stop (.expectedQuote c (← offset))

/-- Reads an equals sign with blanks around it. -/
def equals : Scan Unit := do
  spaces
  char '='
  spaces

/-- Reads the characters up to the closing quotation mark, and the mark. -/
def quotedWith (mark : Char) : Scan (List Char) := do
  let cs ← run (· != mark)
  char mark
  return cs

/-- Reads characters of a document until `last` holds of what comes next.  A character that no
document may contain stops the reading before `last` is asked. -/
def contentUntil (last : List Char → Bool) : Nat → List Char → Except Cause (List Char)
  | _, [] => .ok []
  | o, c :: cs =>
    if !isDocumentChar c then .error (.badChar c o)
    else if last (c :: cs) then .ok []
    else (contentUntil last (o + 1) cs).map (c :: ·)

/-- Reads characters of a document until `last` holds of what comes next. -/
def content (last : List Char → Bool) : Scan (List Char) := do
  let c ← get
  let cs ← (contentUntil last c.offset c.rest : Except Cause (List Char))
  skip cs.length
  return cs

/-! ## Names -/

/-- Reads a name, or nothing at the end of the text. -/
def nameOrEnd : Scan (List Char) := do
  match ← peek with
  | none => return []
  | some c => if isNameStart c then run isNameChar else stop .badName

/-- Reads a name. -/
def name : Scan String := do
  match ← nameOrEnd with
  | [] => stop .badName
  | cs => return String.ofList cs

/-- Whether the characters can stand as one part of a qualified name, if there are any. -/
def partBegins (cs : List Char) : Bool :=
  match cs with
  | [] => true
  | c :: _ => isNameStart c

/-- Reads a name with at most one colon.  The part before the colon may be empty, the other may
not, and each part begins as a name does. -/
def qualifiedName : Scan QualifiedName := do
  let cs ← run isNameChar
  let (q, l) := match splitAtColon cs with
    | some (q, l) => (q, l)
    | none => ([], cs)
  if l.contains ':' || l.isEmpty || !partBegins q || !partBegins l then stop .badName
  else return ⟨qualifierOf (String.ofList q), String.ofList l⟩

/-! ## Constructs

The scans below start at the first character of their construct.
-/

/-- The span from `start` to the cursor. -/
def spanFrom (start : Nat) : Scan Span := do
  return ⟨start, ← offset⟩

/-- What must follow a value of the XML declaration: blanks, or its end. -/
def declarationGap : Scan Unit := do
  match ← peek with
  | none => return
  | some c =>
    if isXmlSpace c then spaces
    else if ← comesNext "?>" then return
    else stop (.expectedSpace c (← offset))

/-- The XML declaration, which leaves no token. -/
def declaration : Scan (Option Token) := do
  skip "<?xml ".length
  spaces
  literal "version"
  equals
  let mark ← quote
  literal "1."
  let _ ← run Char.isDigit
  char mark
  declarationGap
  if ← comesNext "encoding" then
    skip "encoding".length
    equals
    let mark ← quote
    let _ ← run fun c => c.isAlphanum || c == '.' || c == '-' || c == '_'
    char mark
    declarationGap
  if ← comesNext "standalone" then
    skip "standalone".length
    equals
    let mark ← quote
    let start ← offset
    let flag ← name
    if flag != "yes" && flag != "no" then stop (.expectedText ["yes", "no"] start)
    char mark
  spaces
  literal "?>"
  return none

/-- A comment.  Two hyphens may not stand inside it, nor one before its end. -/
def comment : Scan (Option Token) := do
  let start ← offset
  skip "<!--".length
  let cs ← content ("-->".toList.isPrefixOf ·)
  literal "-->"
  if occursIn "--".toList cs then stop .dashesInComment
  if cs.getLast? == some '-' then stop .dashAtCommentEnd
  return some (.comment (String.ofList cs) (← spanFrom start))

/-- A processing instruction; its data is absent if it is empty. -/
def instruction : Scan (Option Token) := do
  let start ← offset
  skip "<?".length
  let target ← name
  spaces
  let cs ← content ("?>".toList.isPrefixOf ·)
  literal "?>"
  let data := if cs.isEmpty then none else some (String.ofList cs)
  return some (.instruction target data (← spanFrom start))

/-- An external identifier, if a keyword for one comes next. -/
def externalId : Scan (Option ExternalId) := do
  if ← comesNext "SYSTEM" then
    skip "SYSTEM".length
    someSpaces
    let systemId ← quotedWith (← quote)
    return some ⟨none, String.ofList systemId⟩
  else if ← comesNext "PUBLIC" then
    skip "PUBLIC".length
    someSpaces
    let publicId ← quotedWith (← quote)
    someSpaces
    let systemId ← quotedWith (← quote)
    return some ⟨some (String.ofList publicId), String.ofList systemId⟩
  else
    return none

/-- The opening of a document type, up to its `[` or `>`. -/
def doctype : Scan (Option Token) := do
  let start ← offset
  skip "<!DOCTYPE".length
  someSpaces
  let rootName ← name
  spaces
  let external ← externalId
  spaces
  match ← peek with
  | none => stop .endOfText
  | some c =>
    if c == '[' || c == '>' then
      skip 1
      return some (.doctype rootName external (c == '[') (← spanFrom start))
    else stop (.expectedChars ['[', '>'] c (← offset))

/-- What an entity stands for.  Only a general entity may name a notation. -/
def entityValue (isGeneral : Bool) : Scan Unit := do
  match ← peek with
  | none => stop .endOfText
  | some c =>
    if c == '"' || c == '\'' then
      let _ ← quotedWith (← quote)
    else if c == 'S' || c == 'P' then
      match ← externalId with
      | none => stop .badExternalId
      | some _ =>
        if isGeneral then
          spaces
          if ← comesNext "NDATA" then
            skip "NDATA".length
            someSpaces
            let _ ← nameOrEnd
    else stop (.expectedChars ['"', '\'', 'S', 'P'] c (← offset))

/-- An entity declaration, which leaves no token. -/
def entity : Scan (Option Token) := do
  skip "<!ENTITY".length
  someSpaces
  let isGeneral := (← peek) != some '%'
  if !isGeneral then
    skip 1
    someSpaces
  let _ ← name
  someSpaces
  entityValue isGeneral
  spaces
  char '>'
  return none

/-- The end of the internal subset. -/
def subsetEnd : Scan (Option Token) := do
  let start ← offset
  skip 1
  spaces
  char '>'
  return some (.subsetEnd (← spanFrom start))

/-- A section of character data. -/
def cdata : Scan (Option Token) := do
  let start ← offset
  skip "<![CDATA[".length
  let cs ← content ("]]>".toList.isPrefixOf ·)
  literal "]]>"
  return some (.cdata (String.ofList cs) (← spanFrom start))

/-- The opening of a start tag. -/
def tagOpen : Scan (Option Token) := do
  let start ← offset
  skip 1
  let tag ← qualifiedName
  return some (.tagOpen tag (← spanFrom start))

/-- An end tag. -/
def endTag : Scan (Option Token) := do
  let start ← offset
  skip "</".length
  let tag ← qualifiedName
  spaces
  char '>'
  return some (.endTag tag (← spanFrom start))

/-- Text up to the next markup. -/
def text : Scan (Option Token) := do
  let start ← offset
  let cs ← content ("<".toList.isPrefixOf ·)
  if occursIn "]]>".toList cs then stop .sectionEndInText
  return some (.text (String.ofList cs) (← spanFrom start))

/-- An attribute, at its name. -/
def tagAttribute : Scan (Option Token) := do
  let start ← offset
  let key ← qualifiedName
  let nameSpan ← spanFrom start
  equals
  let mark ← quote
  let valueStart ← offset
  let value ← content fun cs => cs.head? == some mark || cs.head? == some '<'
  let valueSpan ← spanFrom valueStart
  char mark
  return some (.attribute key (String.ofList value) nameSpan valueSpan (← spanFrom start))

/-- What stands inside a start tag: its end, or an attribute with a blank before it. -/
def tagPart : Scan (Option Token) := do
  let before ← get
  spaces
  let start ← offset
  match ← peek with
  | some '/' =>
    skip 1
    char '>'
    return some (.tagSelfClose (← spanFrom start))
  | some '>' =>
    skip 1
    return some (.tagClose (← spanFrom start))
  | _ =>
    match before.rest with
    | [] => stop .endOfText
    | c :: _ => if isXmlSpace c then tagAttribute else stop (.expectedSpace c before.offset)

end Scan

/-! ## Modes -/

/-- Where in a document the cursor stands. -/
inductive Mode
  /-- At the start, where alone an XML declaration may stand. -/
  | declaration
  /-- Before the document type. -/
  | prolog
  /-- In the internal subset. -/
  | subset
  /-- After the document type, before the document element. -/
  | beforeRoot
  | content
  | insideTag
  /-- After the document element. -/
  | epilog
  deriving DecidableEq, Repr

/-- What the scanner knows between two tokens: its mode and the number of open start tags. -/
structure ScanState where
  mode : Mode
  depth : Nat
  cursor : Cursor
  deriving Repr

/-- The outcome of a step: a token, unless something was skipped, and the state after it. -/
abbrev StepResult := Except Fault (Option Token × ScanState)

namespace ScanState

/-- Reads one construct; a cause in it becomes a fault at the place where the step began. -/
def read (s : ScanState) (what : Construct) (scan : Scan (Option Token)) : StepResult :=
  match scan s.cursor with
  | .ok (token, cursor) => .ok (token, { s with cursor })
  | .error cause => .error (.invalid what s.cursor.offset cause)

/-- Goes on from another mode. -/
def into (s : ScanState) (mode : Mode) : ScanState :=
  { s with mode }

/-- Nothing is read but the blanks at the cursor. -/
def skipSpaces (s : ScanState) : StepResult :=
  let n := (s.cursor.rest.takeWhile isXmlSpace).length
  .ok (none, { s with cursor := s.cursor.advance n })

/-- Nothing that may stand here begins at the cursor. -/
def refuse (s : ScanState) : StepResult :=
  .error (.unknownToken s.cursor.offset)

/-- Reads a comment, an instruction or blanks where they may stand; otherwise goes on to `other`.
An XML declaration is no instruction. -/
def misc (s : ScanState) (other : StepResult) : StepResult :=
  let c := s.cursor
  if c.startsWith "<!--" then s.read .comment Scan.comment
  else if c.startsWith "<?xml " then s.refuse
  else if c.startsWith "<?" then s.read .instruction Scan.instruction
  else if c.rest.head?.any isXmlSpace then s.skipSpaces
  else other

/-- Skips a declaration of the internal subset through the next `>`. -/
def skipDeclaration (s : ScanState) : StepResult :=
  let before := (s.cursor.rest.takeWhile (· != '>')).length
  if before < s.cursor.rest.length then
    .ok (none, { s with cursor := s.cursor.advance (before + 1) })
  else s.refuse

/-- The mode after a start tag: the document is over if nothing is open. -/
def afterTag (depth : Nat) : Mode :=
  if depth = 0 then .epilog else .content

/-- One step in the prolog. -/
def stepProlog (s : ScanState) : StepResult :=
  if s.cursor.startsWith "<!DOCTYPE" then
    match s.read .doctype Scan.doctype with
    | .ok (some (.doctype n e subset span), s') =>
      .ok (some (.doctype n e subset span), s'.into (if subset then .subset else .beforeRoot))
    | other => other
  else s.misc (.ok (none, s.into .beforeRoot))

/-- One step in the internal subset. -/
def stepSubset (s : ScanState) : StepResult :=
  let c := s.cursor
  if c.startsWith "<!ENTITY" then s.read .entity Scan.entity
  else if c.startsWith "]" then (s.into .beforeRoot).read .doctype Scan.subsetEnd
  else if c.startsWith "<!ELEMENT" || c.startsWith "<!ATTLIST" || c.startsWith "<!NOTATION" then
    s.skipDeclaration
  else s.misc s.refuse

/-- One step before the document element. -/
def stepBeforeRoot (s : ScanState) : StepResult :=
  s.misc <|
    if s.cursor.startsWith "<!" then s.refuse
    else if s.cursor.startsWith "<" then (s.into .insideTag).read .element Scan.tagOpen
    else s.refuse

/-- One step inside the document element. -/
def stepContent (s : ScanState) : StepResult :=
  let c := s.cursor
  if c.startsWith "<!--" then s.read .comment Scan.comment
  else if c.startsWith "<![CDATA[" then s.read .cdata Scan.cdata
  else if c.startsWith "<!" || c.startsWith "<?xml " then s.refuse
  else if c.startsWith "<?" then s.read .instruction Scan.instruction
  else if c.startsWith "</" then
    let depth := s.depth - 1
    { s with depth, mode := afterTag depth }.read .element Scan.endTag
  else if c.startsWith "<" then
    if c.rest.length = 1 then s.refuse
    else (s.into .insideTag).read .element Scan.tagOpen
  else s.read .text Scan.text

/-- One step inside a start tag. -/
def stepInsideTag (s : ScanState) : StepResult :=
  match s.read .attribute Scan.tagPart with
  | .ok (some (.tagClose span), s') =>
    .ok (some (.tagClose span), { s' with depth := s.depth + 1, mode := .content })
  | .ok (some (.tagSelfClose span), s') =>
    .ok (some (.tagSelfClose span), s'.into (afterTag s.depth))
  | other => other

/-- Reads what comes next at the cursor. -/
def step (s : ScanState) : StepResult :=
  match s.mode with
  | .declaration =>
    if s.cursor.startsWith "<?xml " then (s.into .prolog).read .declaration Scan.declaration
    else .ok (none, s.into .prolog)
  | .prolog => s.stepProlog
  | .subset => s.stepSubset
  | .beforeRoot => s.stepBeforeRoot
  | .content => s.stepContent
  | .insideTag => s.stepInsideTag
  | .epilog => s.misc s.refuse

/-- Repeats `step` at most `steps` times, until the text ends or a step fails. -/
def scan : Nat → ScanState → List Token × Option Fault
  | 0, _ => ([], none)
  | steps + 1, s =>
    if s.cursor.rest.isEmpty then ([], none)
    else
      match s.step with
      | .error fault => ([], some fault)
      | .ok (token, s') =>
        let (tokens, fault) := s'.scan steps
        (token.toList ++ tokens, fault)

end ScanState

/-- A byte order mark at the start of a text is not part of the markup. -/
def startCursor (text : List Char) : Cursor :=
  match text with
  | '\ufeff' :: rest => ⟨1, rest⟩
  | _ => ⟨0, text⟩

/-- The tokens of a text up to the first fault, and the fault. -/
def scanAll (text : List Char) : List Token × Option Fault :=
  ScanState.scan (text.length + 3) ⟨.declaration, 0, startCursor text⟩

end XmlAdvisor
