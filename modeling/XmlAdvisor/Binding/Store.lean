import XmlAdvisor.Binding.Reference

/-!
# Loading and keeping grammars

**A supply** is where the texts of external grammars come from.  It may tell the fingerprint of a
text without loading it, which saves loading and compiling it again.

**A store** keeps compiled grammars by location and required document element, each with the
fingerprint of the text it was compiled from.  A kept grammar serves as long as that fingerprint is
the current one.  When the supply does not tell a fingerprint beforehand the text is loaded, and its
own fingerprint is compared.
-/

namespace XmlAdvisor

/-- What tells texts apart without comparing them. -/
abbrev Fingerprint := String

/-- The fingerprint of a text; different texts have different ones. -/
def fingerprintOf (text : String) : Fingerprint :=
  text

/-- Where the texts of grammars come from. -/
structure Supply where
  /-- The text at a location. -/
  fetch : Url → Except GrammarError String
  /-- The fingerprint of the text at a location, as it is told without loading. -/
  told : Url → Option Fingerprint := fun uri => (fetch uri).toOption.map fingerprintOf
  /-- Whether fingerprints are told at all. -/
  tellsChanges : Bool := true
  /-- A location whose loading gives a request up. -/
  interruptedAt : Option Url := none

namespace Supply

/-- A supply of the given texts. -/
def ofTexts (texts : List (Url × String)) : Supply where
  fetch uri :=
    match texts.lookup uri with
    | some text => .ok text
    | none => .error (.unknownLocation uri)

/-- A supply of files, each under the bytes of its path. -/
def ofFiles (read : List UInt8 → Option String) : Supply where
  fetch uri :=
    match uri.filePath? with
    | none => .error (.notAFile uri)
    | some path =>
      match read path with
      | some text => .ok text
      | none => .error .unreadable

/-- The current fingerprint at a location, if it is told without loading. -/
def current? (s : Supply) (uri : Url) : Option Fingerprint :=
  if s.tellsChanges then s.told uri else none

end Supply

/-- What a grammar is kept under. -/
structure StoreKey where
  uri : Url
  root : Option String
  deriving DecidableEq, Repr

/-- A kept grammar and the fingerprint of the text it was compiled from. -/
structure StoreEntry where
  key : StoreKey
  fingerprint : Fingerprint
  grammar : Grammar
  deriving Repr

/-- Kept grammars, and how often a text was loaded. -/
structure GrammarStore where
  entries : List StoreEntry := []
  loads : Nat := 0
  deriving Repr

/-- What comes of asking for a grammar. -/
structure Loading where
  result : Except GrammarError Grammar
  store : GrammarStore
  /-- Whether the supply was asked for the text. -/
  asked : Bool

/-- What a reference is kept under. -/
def GrammarReference.key (r : GrammarReference) : StoreKey :=
  ⟨r.source.uri, r.root⟩

/-- The grammar that a text stands for where it is referred to. -/
def GrammarReference.compile (r : GrammarReference) (text : String) : Except GrammarError Grammar :=
  Grammar.compile r.kind r.source.uri r.root text.toList

namespace GrammarStore

/-- The grammar kept under a key, if its text had the given fingerprint. -/
def find? (s : GrammarStore) (key : StoreKey) (fingerprint : Fingerprint) : Option Grammar :=
  (s.entries.find? fun e => e.key = key && e.fingerprint = fingerprint).map (·.grammar)

/-- Keeps a grammar in place of the one under its key. -/
def put (s : GrammarStore) (e : StoreEntry) : GrammarStore :=
  { s with entries := e :: s.entries.filter (·.key ≠ e.key) }

/-- Finds or compiles the grammar of a text with the given fingerprint. -/
def ofText (s : GrammarStore) (r : GrammarReference) (fingerprint : Fingerprint) (text : String) :
    Except GrammarError Grammar × GrammarStore :=
  match s.find? r.key fingerprint with
  | some grammar => (.ok grammar, s)
  | none =>
    match r.compile text with
    | .ok grammar => (.ok grammar, s.put ⟨r.key, fingerprint, grammar⟩)
    | .error e => (.error e, s)

/-- Loads the text at a location and finds or compiles its grammar, under the fingerprint that was
told beforehand or else under its own. -/
def ofLoaded (s : GrammarStore) (supply : Supply) (r : GrammarReference) (uri : Url) : Loading :=
  match supply.fetch uri with
  | .error e => ⟨.error e, s, true⟩
  | .ok text =>
    let fingerprint := (supply.current? uri).getD (fingerprintOf text)
    let (result, store) := { s with loads := s.loads + 1 }.ofText r fingerprint text
    ⟨result, store, true⟩

/-- The grammar that a reference leads to.  The supply is asked only if no grammar with the current
fingerprint is kept. -/
def load (s : GrammarStore) (supply : Supply) (r : GrammarReference) : Loading :=
  match r.source with
  | .inline _ text =>
    let (result, store) := s.ofText r (fingerprintOf text) text
    ⟨result, store, false⟩
  | .external uri =>
    match (supply.current? uri).bind (s.find? r.key) with
    | some grammar => ⟨.ok grammar, s, false⟩
    | none => s.ofLoaded supply r uri

/-- Forgets the grammars of a location. -/
def forget (s : GrammarStore) (uri : Url) : GrammarStore :=
  { s with entries := s.entries.filter (·.key.uri ≠ uri) }

/-- How many grammars are kept. -/
def count (s : GrammarStore) : Nat :=
  s.entries.length

/-- Forgets the grammars of a location and tells how many there were. -/
def invalidate (s : GrammarStore) (uri : Url) : Nat × GrammarStore :=
  (s.count - (s.forget uri).count, s.forget uri)

/-- Forgets the grammar in a document that is closed and tells how many there were. -/
def evictDocument (s : GrammarStore) (document : Url) : Nat × GrammarStore :=
  s.invalidate (internalSubsetUri document)

/-- Forgets all grammars. -/
def clear (s : GrammarStore) : GrammarStore :=
  { s with entries := [] }

end GrammarStore

end XmlAdvisor
