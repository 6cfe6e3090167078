import XmlAdvisor.Markup.Name
import XmlAdvisor.Text.Lines

/-!
# Tokens of markup

What a document is made of before its tree is known.  A start tag is several tokens: its opening,
one token for each attribute, and its end.  Every token says which span of the text it was read
from.
-/

namespace XmlAdvisor

/-- Where the external part of a document type is found. -/
structure ExternalId where
  publicId : Option String
  systemId : String
  deriving DecidableEq, Repr, Inhabited

/-- A piece of markup or text. -/
inductive Token
  /-- A document type; `subset` tells whether an internal subset was opened. -/
  | doctype (name : String) (external : Option ExternalId) (subset : Bool) (span : Span)
  /-- The end of the internal subset. -/
  | subsetEnd (span : Span)
  | comment (content : String) (span : Span)
  | instruction (target : String) (data : Option String) (span : Span)
  | cdata (content : String) (span : Span)
  | text (content : String) (span : Span)
  /-- `<` and the name of an element. -/
  | tagOpen (name : QualifiedName) (span : Span)
  /-- An attribute, with the spans of its name, of its value, and of all of it. -/
  | attribute (name : QualifiedName) (value : String) (nameSpan valueSpan span : Span)
  /-- The `>` of a start tag. -/
  | tagClose (span : Span)
  /-- The `/>` of an element without content. -/
  | tagSelfClose (span : Span)
  | endTag (name : QualifiedName) (span : Span)
  deriving DecidableEq, Repr

/-- The span a token was read from. -/
def Token.span : Token → Span
  | .doctype _ _ _ s | .subsetEnd s | .comment _ s | .instruction _ _ s | .cdata _ s | .text _ s
  | .tagOpen _ s | .attribute _ _ _ _ s | .tagClose s | .tagSelfClose s | .endTag _ s => s

end XmlAdvisor
