import XmlAdvisor.Dtd.Read
import XmlAdvisor.Grammar.Declaration
import XmlAdvisor.Location.Url
import XmlAdvisor.Schema.Compile
import XmlAdvisor.Tree.Lookup

/-!
# Grammars

A grammar is a schema or a document type definition, together with where it comes from.  It tells
which elements may be the document element, and finds the declaration of any element of a document:
in a schema by going down from the document element, in a definition by name.
-/

namespace XmlAdvisor

/-- The kinds of grammar. -/
inductive GrammarKind
  | relaxNg
  | dtd
  deriving DecidableEq, Repr, Hashable, Inhabited

/-- The kind that the extension of a location stands for. -/
def GrammarKind.ofExtension? (u : Url) : Option GrammarKind :=
  match u.extension? with
  | some "rng" => some .relaxNg
  | some "dtd" | some "ent" | some "mod" => some .dtd
  | _ => none

/-- Why a grammar cannot be had. -/
inductive GrammarError
  /-- Its file cannot be read. -/
  | unreadable
  | notAFile (uri : Url)
  | unknownLocation (uri : Url)
  | schema (uri : Url) (error : SchemaError)
  | dtd (uri : Url) (error : DtdError)
  deriving DecidableEq, Repr

/-- The wording of a grammar error. -/
def GrammarError.message : GrammarError → String
  | .unreadable => "cannot read the file"
  | .notAFile uri => "cannot load " ++ uri.text ++ ": not a file URL"
  | .unknownLocation uri => "cannot load " ++ uri.text ++ ": no such grammar"
  | .schema uri e => uri.text ++ ": " ++ e.message
  | .dtd uri e => uri.text ++ ": " ++ e.message

/-- A compiled grammar. -/
inductive Grammar
  | relaxNg (uri : Url) (schema : Schema)
  /-- A definition, with the document element it is restricted to. -/
  | dtd (uri : Url) (dtd : Dtd) (root : Option String)
  deriving Repr

namespace Grammar

/-- Where the grammar comes from. -/
def uri : Grammar → Url
  | .relaxNg uri _ => uri
  | .dtd uri _ _ => uri

/-- The kind of the grammar. -/
def kind : Grammar → GrammarKind
  | .relaxNg _ _ => .relaxNg
  | .dtd _ _ _ => .dtd

/-- The grammar that a text stands for.  A document element restricts only a definition. -/
def compile (kind : GrammarKind) (uri : Url) (root : Option String) (text : List Char) :
    Except GrammarError Grammar :=
  match kind with
  | .relaxNg => ((Schema.compile text).mapError (.schema uri)).map (.relaxNg uri)
  | .dtd => ((Dtd.read text).mapError (.dtd uri)).map fun d => .dtd uri d root

/-- The declarations of which one is that of the document element. -/
def topLevel : Grammar → List Declaration
  | .relaxNg _ s => (s.elementPatterns s.start).map (.pattern s)
  | .dtd _ d (some root) => ((d.element? root).map (.dtd d)).toList
  | .dtd _ d none => d.elements.map (.dtd d)

/-- The declaration at the end of a path of elements that begins with the document element. -/
def declarationAlong? (g : Grammar) : List ElementNode → Option Declaration
  | [] => none
  | root :: rest => do
    let top ← g.topLevel.find? (·.describes root)
    rest.foldlM Declaration.child? top

/-- The declaration of an element of a document. -/
def declarationOf? (g : Grammar) (t : Tree) (e : ElementNode) : Option Declaration :=
  match g with
  | .relaxNg _ _ => g.declarationAlong? (t.pathFromRoot e)
  | .dtd _ d _ => (d.element? e.element.tagName).map (.dtd d)

end Grammar

end XmlAdvisor
