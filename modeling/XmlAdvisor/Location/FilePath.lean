import XmlAdvisor.Location.Url

/-!
# File paths as locations

A path becomes a location by encoding each component, which leaves no query and no fragment to
split off.  A location becomes a path by decoding, unless a host other than this one is named.
Components `.` and empty ones are dropped; `..` is kept, since it may lead through a link.
-/

namespace XmlAdvisor

/-- The components of an absolute path. -/
def pathComponents (path : List Char) : List (List Char) :=
  (splitOnChar '/' path).filter fun part => !part.isEmpty && part != ['.']

/-- The location of an absolute path. -/
def Url.ofFilePath? (path : String) : Option Url :=
  if path.toList.head? = some '/' then
    let parts := (pathComponents path.toList).map fun part =>
      String.ofList (percentEncode encodedInFileName part)
    some ⟨"file", some ⟨"", "", "", none⟩, .segments (if parts.isEmpty then [""] else parts),
      none, none⟩
  else none

/-- Whether the location names no host but this one. -/
def Url.isLocal (u : Url) : Bool :=
  match u.authority with
  | some a => a.host.isEmpty || a.host = "localhost"
  | none => true

/-- The bytes of the file path that a location stands for.  A drive at its end gets a slash. -/
def Url.filePath? (u : Url) : Option (List UInt8) :=
  match u.path with
  | .opaquePath _ => none
  | .segments [] => none
  | .segments parts =>
    if u.isLocal then
      let bytes := parts.flatMap fun part => 0x2f :: percentDecode part.toList
      let closing := match bytes.reverse with
        | mark :: letter :: _ :: _ =>
          if (mark == 0x3a || mark == 0x7c) && (Char.ofNat letter.toNat).isAlpha then [0x2f] else []
        | _ => []
      some (bytes ++ closing)
    else none

/-- The file path that a location stands for, as a text. -/
def Url.filePathText? (u : Url) : Option String :=
  u.filePath?.map decodeText

/-- Where a system identifier in a document at `base` leads.  An absolute path is a file; all else
is a location of its own, or else a reference relative to the document. -/
def Url.resolve? (base : Url) (systemId : List Char) : Option Url :=
  match systemId with
  | [] => none
  | '/' :: _ => Url.ofFilePath? (String.ofList systemId)
  | _ => (Url.parse? (String.ofList systemId)).or (base.join? (String.ofList systemId))

end XmlAdvisor
