import XmlAdvisor.Location.Host
import XmlAdvisor.Text.Search

/-!
# Locations

**Parts.**  A location has a scheme, perhaps an authority, a path, and perhaps a query and a
fragment.  The path is a list of segments, or one opaque text when no slash follows the scheme.
Every part is stored as it is written, percent-encoded, so two locations are equal exactly when
they are written alike (`Url.text`).

**Reading.**  The fragment starts at the first number sign and the query at the first question mark
before it, so both are cut off first and the rest is read by its form.  In the special schemes a
backslash is a slash.  Dot segments are removed while the segments are read.

**Gaps.**  Tabs and line ends may stand anywhere in a written location and say nothing, but for one
place: between a drive and what follows it they stand for the missing slash.

**Drives.**  A path of a file that begins with a drive belongs to this host, whatever host is
written.  Nothing leads out of a drive.

**References.**  What does not begin with a scheme is read relative to a base: it keeps the parts of
the base up to where it begins itself.
-/

namespace XmlAdvisor

/-- Who and where: user, password, host and port.  An empty host is none. -/
structure Authority where
  user : String
  password : String
  host : String
  port : Option Nat
  deriving DecidableEq, Repr, Hashable, Inhabited

/-- The path of a location. -/
inductive UrlPath
  /-- A path that is no sequence of segments. -/
  | opaquePath (text : String)
  | segments (parts : List String)
  deriving DecidableEq, Repr, Hashable, Inhabited

/-- A location. -/
structure Url where
  scheme : String
  authority : Option Authority
  path : UrlPath
  query : Option String
  fragment : Option String
  deriving DecidableEq, Repr, Hashable, Inhabited

/-! ## Writing -/

/-- The path as it is written. -/
def UrlPath.text : UrlPath → String
  | .opaquePath s => s
  | .segments parts => String.join (parts.map ("/" ++ ·))

/-- The authority as it is written after the two slashes. -/
def Authority.text (a : Authority) : String :=
  let password := if a.password.isEmpty then "" else ":" ++ a.password
  let user := if a.user.isEmpty && a.password.isEmpty then "" else a.user ++ password ++ "@"
  let port := match a.port with
    | some n => ":" ++ toString n
    | none => ""
  user ++ a.host ++ port

/-- The path of the location as it is written. -/
def Url.pathText (u : Url) : String :=
  u.path.text

/-- The location as it is written.  Without an authority, a path that begins with two slashes gets
a dot in front, so that it is not read as one. -/
def Url.text (u : Url) : String :=
  let authority := match u.authority with
    | some a => "//" ++ a.text
    | none =>
      match u.path with
      | .segments ("" :: _ :: _) => "/."
      | _ => ""
  let query := match u.query with
    | some q => "?" ++ q
    | none => ""
  let fragment := match u.fragment with
    | some f => "#" ++ f
    | none => ""
  u.scheme ++ ":" ++ authority ++ u.pathText ++ query ++ fragment

/-- The location with another fragment. -/
def Url.withFragment (u : Url) (fragment : String) : Url :=
  { u with fragment := some (String.ofList (percentEncode encodedInFragment fragment.toList)) }

/-! ## Schemes -/

/-- The default port of a special scheme other than `file`. -/
def defaultPort? (scheme : String) : Option Nat :=
  if scheme = "http" || scheme = "ws" then some 80
  else if scheme = "https" || scheme = "wss" then some 443
  else if scheme = "ftp" then some 21
  else none

/-- Whether a scheme has authorities and segments in any case. -/
def isSpecialScheme (scheme : String) : Bool :=
  scheme = "file" || (defaultPort? scheme).isSome

/-- Whether a character is passed over wherever it stands in a written location. -/
def isLocationGap (c : Char) : Bool :=
  c == '\t' || c == '\n' || c == '\r'

/-- A text without its gaps. -/
def withoutGaps (cs : List Char) : List Char :=
  cs.filter fun c => !isLocationGap c

/-- The scheme in lower case and what follows its colon, if the text begins with a scheme. -/
def splitScheme? (cs : List Char) : Option (String × List Char) :=
  match cs with
  | [] => none
  | first :: _ =>
    if !first.isAlpha then none
    else
      let isSchemeChar (c : Char) : Bool :=
        c.isAlphanum || c == '+' || c == '-' || c == '.' || isLocationGap c
      match cs.dropWhile isSchemeChar with
      | ':' :: rest =>
        some (String.ofList ((withoutGaps (cs.takeWhile isSchemeChar)).map Char.toLower), rest)
      | _ => none

/-! ## Segments -/

/-- Whether a character separates segments. -/
def isSlash (special : Bool) (c : Char) : Bool :=
  c == '/' || (special && c == '\\')

/-- The pieces between slashes. -/
def splitSlashes (special : Bool) : List Char → List (List Char)
  | [] => [[]]
  | c :: cs =>
    if isSlash special c then [] :: splitSlashes special cs
    else
      match splitSlashes special cs with
      | [] => [[c]]
      | piece :: more => (c :: piece) :: more

/-- A segment with its escaped dots read. -/
def plainDots : List Char → List Char
  | '%' :: '2' :: e :: rest =>
    if e == 'e' || e == 'E' then '.' :: plainDots rest else '%' :: '2' :: e :: plainDots rest
  | c :: rest => c :: plainDots rest
  | [] => []

/-- Whether a segment is a drive: a letter and a colon, or a bar in place of it. -/
def isDrive : List Char → Bool
  | [letter, mark] => letter.isAlpha && (mark == ':' || mark == '|')
  | _ => false

/-- Whether a segment is a drive with its colon. -/
def isPlainDrive (segment : String) : Bool :=
  match segment.toList with
  | [letter, ':'] => letter.isAlpha
  | _ => false

/-- Whether nothing leads out of a segment: a drive, alone or before a backslash. -/
def isDriveAhead (segment : String) : Bool :=
  match segment.toList with
  | letter :: mark :: '\\' :: _ => isDrive [letter, mark]
  | cs => isDrive cs

/-- A path as far as it has been read. -/
structure PathDraft where
  /-- The segments that are complete. -/
  parts : List String
  /-- The beginning of the segment that comes next. -/
  begun : Option String := none
  /-- Whether the path was found to begin with a drive. -/
  hasDrive : Bool := false
  deriving DecidableEq, Repr, Inhabited

/-- The path of a base as far as references keep it: all but the last segment.  A drive at the end
of a file path is kept too, and is gone on with. -/
def PathDraft.ofBase (isFile : Bool) (parts : List String) : PathDraft :=
  { parts := parts.dropLast
    begun := if isFile then parts.getLast?.filter isPlainDrive else none }

/-- The drive that a piece begins with and the text after the gap behind it. -/
def splitDriveGap? (piece : List Char) : Option (String × List Char) :=
  match piece.dropWhile isLocationGap with
  | letter :: more =>
    match more.dropWhile isLocationGap with
    | ':' :: gap :: rest =>
      let rest := withoutGaps rest
      if letter.isAlpha && isLocationGap gap && !rest.isEmpty then
        some (String.ofList [letter, ':'], rest)
      else none
    | _ => none
  | [] => none

/-- A segment as it is written in a path. -/
def encodedSegment (segment : List Char) : String :=
  String.ofList (percentEncode encodedInPath segment)

namespace PathDraft

/-- Adds a segment of its own.  Two dots take the segment before away unless it is a drive.  A dot
segment leaves an empty segment behind when it is the last. -/
def addOwn (isFile isLast : Bool) (d : PathDraft) (piece : List Char) : PathDraft :=
  let segment := withoutGaps piece
  let plain := plainDots segment
  let closing := if isLast then [""] else []
  if plain = ['.', '.'] then
    let parent := if d.parts.getLast?.any isDriveAhead then d.parts else d.parts.dropLast
    { d with parts := parent ++ closing }
  else if plain = ['.'] then { d with parts := d.parts ++ closing }
  else if isFile && d.parts.isEmpty then
    if isDrive segment then
      { d with parts := [String.ofList (segment.take 1 ++ [':'])], hasDrive := true }
    else
      match splitDriveGap? piece with
      | some (drive, rest) => { d with parts := [drive, encodedSegment rest] }
      | none => { d with parts := [encodedSegment segment] }
  else { d with parts := d.parts ++ [encodedSegment segment] }

/-- Adds a piece between slashes, which goes on with the segment that has begun.  What goes on with
a drive that stands alone is a segment after it. -/
def add (isFile isLast : Bool) (d : PathDraft) (piece : List Char) : PathDraft :=
  match d.begun with
  | none => d.addOwn isFile isLast piece
  | some drive =>
    let plain := plainDots (withoutGaps piece)
    let kept := { d with parts := d.parts ++ [drive], begun := none }
    if d.parts.isEmpty then kept.addOwn isFile isLast piece
    else if plain = ['.', '.'] then kept
    else if plain = ['.'] then kept.addOwn isFile isLast piece
    else { d with parts := d.parts ++ [drive ++ encodedSegment (withoutGaps piece)], begun := none }

/-- Adds pieces one after the other. -/
def addAll (isFile : Bool) : PathDraft → List (List Char) → PathDraft
  | d, [] => d
  | d, [last] => d.add isFile true last
  | d, piece :: more => addAll isFile (d.add isFile false piece) more

end PathDraft

/-- Segments without the empty ones in front, but for the last. -/
def dropEmptyAhead : List String → List String
  | "" :: next :: more => dropEmptyAhead (next :: more)
  | parts => parts

/-- The path that a text gives, read after a part of a path. -/
def PathDraft.read (scheme : String) (before : PathDraft) (cs : List Char) : PathDraft :=
  let isFile := scheme = "file"
  let d := before.addAll isFile (splitSlashes (isSpecialScheme scheme) cs)
  if isFile then { d with parts := dropEmptyAhead d.parts } else d

/-- The segments of a path of its own. -/
def readSegments (scheme : String) (cs : List Char) : List String :=
  (PathDraft.read scheme ⟨[], none, false⟩ cs).parts

/-! ## Authorities -/

/-- The port that digits stand for; none if it is the default. -/
def readPort? (scheme : String) (cs : List Char) : Option (Option Nat) :=
  if cs.isEmpty then some none
  else do
    let n ← digitsValue? 10 cs
    if n > 65535 then none
    else if defaultPort? scheme = some n then some none
    else some (some n)

/-- A text cut at the last place where a character stands. -/
def splitAtLast (c : Char) (cs : List Char) : Option (List Char × List Char) :=
  if cs.contains c then
    let after := (cs.reverse.takeWhile (· != c)).reverse
    some (cs.take (cs.length - after.length - 1), after)
  else none

/-- A text cut before its first colon; one inside brackets does not count. -/
def splitHost (inBrackets : Bool) : List Char → List Char × List Char
  | [] => ([], [])
  | c :: cs =>
    if c == ':' && !inBrackets then ([], c :: cs)
    else
      let (host, rest) := splitHost (c == '[' || (inBrackets && c != ']')) cs
      (c :: host, rest)

/-- The authority at the start of a text and what follows it.  Special schemes need a host, and so
do a port and a user.  The text ends with the location only if `isWhole`. -/
def readAuthority? (scheme : String) (isWhole : Bool) (cs : List Char) :
    Option (Authority × List Char) := do
  let special := isSpecialScheme scheme
  let span := cs.takeWhile (!isSlash special ·)
  let after := cs.dropWhile (!isSlash special ·)
  let (info, place) := match splitAtLast '@' span with
    | some (info, place) => (some info, place)
    | none => (none, span)
  let named := info.getD []
  let (user, password) := (splitAtFirst [':'] named).getD (named, [])
  let (hostText, portText) := splitHost false place
  let host ← if special then domainHost? hostText else opaqueHost? hostText
  let digits := (portText.drop 1).takeWhile Char.isDigit
  let port ← readPort? scheme digits
  let left := portText.drop (digits.length + 1)
  let endsAtSign := info = some [] && place.isEmpty && !(isWhole && after.isEmpty)
  let needsHost := special || !portText.isEmpty || !user.isEmpty || !password.isEmpty || endsAtSign
  if host.isEmpty && needsHost then none
  else if !left.isEmpty && left.head? != some '\\' then none
  else
    let encode (s : List Char) : String := String.ofList (percentEncode encodedInUserInfo s)
    some (⟨encode user, encode password, host, port⟩, left ++ after)

/-- The authority of a file: a host alone, where `localhost` is none. -/
def readFileHost? (cs : List Char) : Option Authority := do
  if cs.isEmpty then some ⟨"", "", "", none⟩
  else
    let host ← domainHost? cs
    some ⟨"", "", if host = "localhost" then "" else host, none⟩

/-! ## Reading -/

/-- The authority and the path after two slashes. -/
def readHierarchy? (scheme : String) (isWhole : Bool) (cs : List Char) :
    Option (Option Authority × UrlPath) := do
  let special := isSpecialScheme scheme
  let (authority, rest) ← readAuthority? scheme isWhole cs
  let path := match rest with
    | [] => if special then [""] else []
    | c :: more => readSegments scheme (if isSlash special c then more else rest)
  some (some authority, .segments path)

/-- What follows a slash at the start of a text of a file. -/
def afterSlash? (cs : List Char) : Option (List Char) :=
  match cs.dropWhile isLocationGap with
  | c :: rest => if isSlash true c then some rest else none
  | [] => none

/-- Whether a reference begins with a drive as its first segment. -/
def beginsWithDrive (cs : List Char) : Bool :=
  let cs := withoutGaps cs
  isDrive (cs.take 2) && (cs.drop 2).head?.all (isSlash true)

/-- No host but this one. -/
def noHost : Authority :=
  ⟨"", "", "", none⟩

/-- The authority and the path of a file after two slashes. -/
def readFileHierarchy? (cs : List Char) : Option (Option Authority × UrlPath) := do
  let hostText := withoutGaps (cs.takeWhile (!isSlash true ·))
  let rest := cs.dropWhile (!isSlash true ·)
  if isDrive hostText then some (some noHost, .segments (readSegments "file" cs))
  else
    let authority ← readFileHost? hostText
    if authority.host.isEmpty then some (some noHost, .segments (readSegments "file" rest))
    else
      let d := PathDraft.read "file" ⟨[], none, false⟩ (rest.drop 1)
      some (some (if d.hasDrive then noHost else authority), .segments d.parts)

/-- The authority and the path of a file after one slash.  A drive of the base is kept, and so is
its host. -/
def readFromRoot (base : Option Url) (cs : List Char) : Option Authority × UrlPath :=
  match base with
  | none => (some noHost, .segments (readSegments "file" cs))
  | some b =>
    let drive := match b.path with
      | .segments (first :: _) => if isPlainDrive first then [first] else []
      | _ => []
    if beginsWithDrive cs then (some noHost, .segments (readSegments "file" cs))
    else if drive.isEmpty then (b.authority, .segments (readSegments "file" cs))
    else (some noHost, .segments (PathDraft.read "file" ⟨drive, none, false⟩ cs).parts)

/-- The authority and the path of a file after its scheme, read relative to the file `base`. -/
def readFile? (base : Option Url) (cs : List Char) : Option (Option Authority × UrlPath) :=
  match afterSlash? cs with
  | some rest =>
    match afterSlash? rest with
    | some after => readFileHierarchy? after
    | none => some (readFromRoot base rest)
  | none =>
    match base with
    | none => some (some noHost, .segments (readSegments "file" cs))
    | some b =>
      match b.path with
      | .segments parts =>
        if beginsWithDrive cs then some (some noHost, .segments (readSegments "file" cs))
        else if (withoutGaps cs).isEmpty then some (b.authority, b.path)
        else
          some (b.authority, .segments (PathDraft.read "file" (.ofBase true parts) cs).parts)
      | .opaquePath _ => none

/-- The authority and the path of a reference without a scheme, relative to a base that is no
file. -/
def readRelative? (base : Url) (isWhole : Bool) (cs : List Char) :
    Option (Option Authority × UrlPath) :=
  match base.path with
  | .opaquePath _ => none
  | .segments parts =>
    match cs with
    | [] => some (base.authority, base.path)
    | c :: rest =>
      if isSlash true c then
        match rest with
        | d :: after =>
          if isSlash true d then
            if c == '/' && d == '/' then readHierarchy? base.scheme isWhole after
            else readHierarchy? base.scheme isWhole (cs.dropWhile (isSlash true))
          else some (base.authority, .segments (readSegments base.scheme rest))
        | [] => some (base.authority, .segments (readSegments base.scheme rest))
      else
        let d := PathDraft.read base.scheme (.ofBase false parts) cs
        some (base.authority, .segments d.parts)

/-- The authority and the path of a location after its scheme. -/
def readAbsolute? (base : Option Url) (scheme : String) (isWhole : Bool) (cs : List Char) :
    Option (Option Authority × UrlPath) :=
  let kin := base.filter (·.scheme = scheme)
  if scheme = "file" then readFile? kin cs
  else
    let cs := withoutGaps cs
    if isSpecialScheme scheme then
      let slashes := (cs.takeWhile (isSlash true)).length
      match kin with
      | some b =>
        if slashes < 2 then readRelative? b isWhole cs
        else readHierarchy? scheme isWhole (cs.drop slashes)
      | none => readHierarchy? scheme isWhole (cs.drop slashes)
    else
      match cs with
      | '/' :: '/' :: rest => readHierarchy? scheme isWhole rest
      | '/' :: rest => some (none, .segments (readSegments scheme rest))
      | _ => some (none, .opaquePath (String.ofList (percentEncode encodedAlways cs)))

/-- A text cut before the first place where a character stands. -/
def cutAt (c : Char) (cs : List Char) : List Char × Option (List Char) :=
  match splitAtFirst [c] cs with
  | some (before, after) => (before, some after)
  | none => (cs, none)

/-- A written location without the control characters and blanks around it. -/
def trimLocation (s : String) : List Char :=
  let isOuter (c : Char) : Bool := c.toNat ≤ 0x20
  let cs := s.toList.dropWhile isOuter
  (cs.reverse.dropWhile isOuter).reverse

/-- The location that a text stands for, read relative to a base if there is one. -/
def Url.read? (base : Option Url) (s : String) : Option Url := do
  let (main, fragment) := cutAt '#' (trimLocation s)
  let (hierarchy, query) := cutAt '?' main
  let isWhole := query.isNone && fragment.isNone
  let encode (scheme : String) (q : List Char) : String :=
    let encoded := if isSpecialScheme scheme then encodedInSpecialQuery else encodedInQuery
    String.ofList (percentEncode encoded (withoutGaps q))
  let fragment := fragment.map fun f =>
    String.ofList (percentEncode encodedInFragment (withoutGaps f))
  match splitScheme? hierarchy with
  | some (scheme, rest) =>
    let (authority, path) ← readAbsolute? base scheme isWhole rest
    let kept := match base with
      | some b =>
        if b.scheme = scheme && isSpecialScheme scheme && (withoutGaps rest).isEmpty then b.query
        else none
      | none => none
    some ⟨scheme, authority, path, (query.map (encode scheme)).or kept, fragment⟩
  | none =>
    let b ← base
    let plain := withoutGaps hierarchy
    if plain.isEmpty && query.isNone && fragment.isSome then some { b with fragment }
    else
      let (authority, path) ←
        if b.scheme = "file" then readFile? base hierarchy else readRelative? b isWhole plain
      let kept := if plain.isEmpty then b.query else none
      some ⟨b.scheme, authority, path, (query.map (encode b.scheme)).or kept, fragment⟩

/-- The location that a text stands for on its own. -/
def Url.parse? (s : String) : Option Url :=
  Url.read? none s

/-- The location that a reference in a document at `base` stands for. -/
def Url.join? (base : Url) (reference : String) : Option Url :=
  Url.read? (some base) reference

/-- The text after the last dot of the path, in lower case; none without a dot. -/
def Url.extension? (u : Url) : Option String :=
  (splitAtLast '.' u.pathText.toList).map fun (_, ext) => String.ofList (ext.map Char.toLower)

end XmlAdvisor
