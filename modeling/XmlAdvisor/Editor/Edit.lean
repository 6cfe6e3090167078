import XmlAdvisor.Document
import XmlAdvisor.Location.Generic
import XmlAdvisor.Request.Error

/-!
# Edits

**A text edit** replaces a range of a document.  **A workspace edit** collects text edits for
several documents, and may also ask for files to be created, renamed or deleted.

**Applying** text edits maps every range to a span first.  Spans are taken in the order in which
they stand in the text, and those that stand alike in the order in which they were given; no span
may begin before the one ahead of it has ended.  The text between the spans stays as it is.
-/

namespace XmlAdvisor

/-- A text to put in place of a range. -/
structure TextEdit where
  range : Range
  newText : String
  deriving DecidableEq, Repr, Inhabited

/-- The edits of one document. -/
structure DocumentEdit where
  uri : String
  /-- The version of the document that the edits are for. -/
  version : Option Int
  edits : List TextEdit
  deriving DecidableEq, Repr, Inhabited

/-- What to do about a file that is there already, or not there. -/
structure FileOptions where
  overwrite : Option Bool
  ignore : Option Bool
  deriving DecidableEq, Repr, Inhabited

/-- What to do when files are deleted. -/
structure DeleteOptions where
  recursive : Option Bool
  ignore : Option Bool
  remark : Option String
  deriving DecidableEq, Repr, Inhabited

/-- One of the changes of a workspace. -/
inductive WorkspaceChange
  | create (uri : String) (options : Option FileOptions) (remark : Option String)
  | rename (source target : String) (options : Option FileOptions) (remark : Option String)
  | delete (uri : String) (options : Option DeleteOptions)
  | edit (e : DocumentEdit)
  deriving DecidableEq, Repr

/-- The changes of a workspace in their order: edits of documents alone, or mixed with operations
on files. -/
inductive DocumentChanges
  | edits (es : List DocumentEdit)
  | operations (ops : List WorkspaceChange)
  deriving DecidableEq, Repr

/-- What is said to the user about a change. -/
structure ChangeRemark where
  label : String
  needsConfirmation : Option Bool
  description : Option String
  deriving DecidableEq, Repr, Inhabited

/-- Edits of documents of a workspace. -/
structure WorkspaceEdit where
  /-- Text edits by document. -/
  changes : Option (List (String × List TextEdit)) := none
  documentChanges : Option DocumentChanges := none
  remarks : Option (List (String × ChangeRemark)) := none
  deriving DecidableEq, Repr, Inhabited

/-- The text edits of a workspace edit that are for a document. -/
def WorkspaceEdit.editsFor (w : WorkspaceEdit) (d : Document) : List TextEdit :=
  match w.documentChanges with
  | some (.edits es) => (es.filter (·.uri = d.url.text)).flatMap (·.edits)
  | _ => []

/-- The edit that replaces a range of a version of a document. -/
def Document.replacing (d : Document) (range : Range) (newText : String) :
    Except RequestError WorkspaceEdit :=
  if isIdentifier d.url.text then
    .ok { documentChanges := some (.edits [⟨d.url.text, some d.version, [⟨range, newText⟩]⟩]) }
  else .error (.invalidUri d.url.text)

/-! ## Applying text edits -/

/-- A text to put in place of a span. -/
structure Splice where
  span : Span
  newText : String
  deriving DecidableEq, Repr, Inhabited

/-- Whether a span stands before another one or alike. -/
def Span.notAfter (s t : Span) : Bool :=
  s.start < t.start || (s.start == t.start && s.stop ≤ t.stop)

/-- The splice that a text edit stands for.  A range that ends before it begins is empty. -/
def Document.spliceOf (d : Document) (e : TextEdit) : Except RequestError Splice := do
  let span ← orBadLocation (d.spanAt e.range)
  return ⟨⟨span.start, max span.start span.stop⟩, e.newText⟩

/-- The first two neighbours of which the second begins before the first has ended. -/
def firstOverlap? : List Splice → Option (Span × Span)
  | a :: b :: rest =>
    if a.span.stop > b.span.start then some (a.span, b.span) else firstOverlap? (b :: rest)
  | _ => none

/-- The text from an offset on with splices, which stand in order and do not overlap, applied. -/
def spliceText (offset : Nat) (text : List Char) : List Splice → List Char
  | [] => text
  | s :: more =>
    text.take (s.span.start - offset) ++ s.newText.toList ++
      spliceText s.span.stop (text.drop (s.span.stop - offset)) more

/-- The text of a document with text edits applied. -/
def Document.applyEdits (d : Document) (edits : List TextEdit) : Except RequestError String := do
  let splices := (← edits.mapM d.spliceOf).mergeSort fun a b => a.span.notAfter b.span
  match firstOverlap? splices with
  | some (first, second) => throw (.overlappingEdits first second)
  | none => return String.ofList (spliceText 0 d.text splices)

/-! ## Keeping edits that go together -/

/-- Whether a position stands before another one or is the same. -/
def Position.notAfter (p q : Position) : Bool :=
  !q.before p

/-- Whether a range stands before another one or alike. -/
def Range.notAfter (r s : Range) : Bool :=
  r.start.before s.start || (r.start == s.start && r.stop.notAfter s.stop)

/-- Edits in order, without those that begin before the last one that is kept has ended. -/
def keepApart (last : Option Position) : List TextEdit → List TextEdit
  | [] => []
  | e :: more =>
    if last.any fun stop => e.range.start.before stop then keepApart last more
    else e :: keepApart (some e.range.stop) more

/-- Text edits in order of their ranges, without those that overlap one ahead of them. -/
def withoutOverlaps (edits : List TextEdit) : List TextEdit :=
  keepApart none (edits.mergeSort fun a b => a.range.notAfter b.range)

end XmlAdvisor
