import XmlAdvisor.Domain.MappingTable

/-!
# Preparing domain names

Before a domain name is looked at, its characters are mapped: letters to lower case, presentation
forms to what they present, full stops of other scripts to the full stop.  Some characters are
dropped, and some are refused.  What mapping leaves as it is may stand in a domain name.
-/

namespace XmlAdvisor.Domain

/-- What a character of the range becomes. -/
def MappedRange.map (r : MappedRange) (c : Char) : List Char :=
  match r.text with
  | [] => []
  | head :: tail => Char.ofNat (head + (c.toNat - r.first)) :: tail.map Char.ofNat

/-- Whether the range says what becomes of a character. -/
def MappedRange.covers (r : MappedRange) (c : Char) : Bool :=
  r.first ≤ c.toNat && c.toNat ≤ r.last && (c.toNat - r.first) % r.step == 0

/-- What a character becomes, unless it is refused. -/
def mapped? (c : Char) : Option (List Char) :=
  if c.toNat < 0x80 then some [c.toLower]
  else if inRanges refusedRanges c then none
  else if inRanges ignoredRanges c then some []
  else
    match (movedRanges.find? (·.covers c)).or (spelledRanges.find? (·.covers c)) with
    | some r => some (r.map c)
    | none => some [c]

/-- Whether a character may stand in a domain name as it is. -/
def isPrepared (c : Char) : Bool :=
  mapped? c = some [c]

/-- A text after mapping, unless a character of it is refused. -/
def prepared? (cs : List Char) : Option (List Char) :=
  (cs.mapM mapped?).map List.flatten

end XmlAdvisor.Domain
