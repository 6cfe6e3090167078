import XmlAdvisor.Text.Lines

/-!
# Why a request fails

Only a request that is given up fails as a whole; the other causes end the work on one action or
one position.
-/

namespace XmlAdvisor

/-- Why a request fails. -/
inductive RequestError
  | cancelled
  | badLocation (cause : PlaceError)
  | malformedPayload (what : String)
  | invalidUri (uri : String)
  | overlappingEdits (first second : Span)
  /-- A value does not have the shape that is asked for. -/
  | json
  deriving DecidableEq, Repr

/-- A span in the words of an error. -/
def Span.pairText (s : Span) : String :=
  "(" ++ toString s.start ++ ", " ++ toString s.stop ++ ")"

/-- The wording of a request error. -/
def RequestError.message : RequestError → String
  | .cancelled => "request cancelled"
  | .badLocation cause => "bad location: " ++ cause.message
  | .malformedPayload what => "malformed code action payload: " ++ what
  | .invalidUri uri => "invalid document URI: " ++ uri
  | .overlappingEdits first second =>
    "overlapping text edits at " ++ first.pairText ++ " and " ++ second.pairText
  | .json => "JSON error"

/-- A place that has to exist for a request to go on. -/
def orBadLocation {α : Type} (r : Except PlaceError α) : Except RequestError α :=
  r.mapError .badLocation

end XmlAdvisor
