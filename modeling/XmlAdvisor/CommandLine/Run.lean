import XmlAdvisor.Advice.Fix
import XmlAdvisor.CommandLine.Arguments
import XmlAdvisor.CommandLine.Report
import XmlAdvisor.Settings.Read

/-!
# Running the command line

**The outcome** of a run is a value: what is printed, the exit code, and the files to write.  It
depends on nothing but the arguments and what can be read.

**Checking** prints the diagnostics of each file and fails when one of them is an error.  **Fixing**
prints a file with everything repaired that can be, or writes it back.  A file that cannot be read
ends the run with a failure; what has been printed before stays printed.
-/

namespace XmlAdvisor.CommandLine

/-- What a run can see of the file system. -/
structure Surroundings where
  /-- The absolute path of the working directory. -/
  directory : String
  /-- The content of the file at an absolute path, as far as there is a text. -/
  read : List UInt8 → Option String

namespace Surroundings

/-- A path seen from the root. -/
def absolute (s : Surroundings) (path : String) : String :=
  if path.toList.head? = some '/' then path else s.directory ++ "/" ++ path

/-- The bytes of a path seen from the root. -/
def pathBytes (s : Surroundings) (path : String) : List UInt8 :=
  (s.absolute path).toUTF8.toList

/-- The text of a file. -/
def readText (s : Surroundings) (path : String) : Except String String :=
  match s.read (s.pathBytes path) with
  | some text => .ok text
  | none => .error ("reading " ++ path)

/-- The document in a file. -/
def document (s : Surroundings) (path : String) : Except String Document := do
  let text ← s.readText path
  match Url.ofFilePath? (s.absolute path) with
  | some url => return Document.parse url 0 .utf16 text.toList
  | none => throw ("not a file path: " ++ path)

/-- The settings in a file, or the defaults without one. -/
def settings (s : Surroundings) (config : Option String) : Except String Settings := do
  match config with
  | none => return {}
  | some path =>
    match Settings.read? (← s.readText path) with
    | some settings => return settings
    | none => throw ("parsing settings " ++ path)

/-- The advisor for the settings in a file. -/
def advisor (s : Surroundings) (config : Option String) : Except String Advisor := do
  let settings ← s.settings config
  (Advisor.ofSettings (Supply.ofFiles s.read) settings).mapError
    fun _ => "invalid file association"

end Surroundings

/-- What a run comes to. -/
structure Outcome where
  exitCode : Nat
  output : String := ""
  /-- What went wrong, in words. -/
  complaint : String := ""
  /-- The files to write, with their texts. -/
  written : List (String × String) := []
  deriving DecidableEq, Repr, Inhabited

/-- The outcome of a run that cannot go on. -/
def failure (complaint : String) : Outcome :=
  { exitCode := 1, complaint }

/-- What a request gives that nobody gives up, and the grammars that it leaves. -/
def runRequest {α : Type} (r : Request α) (store : GrammarStore) : Except String α × GrammarStore :=
  let (result, after) := r.runFrom { store }
  (result.mapError RequestError.message, after.store)

/-- A diagnostic as one line of output. -/
def ReportFormat.line (f : ReportFormat) (path : String) (d : Diagnostic) : String :=
  match f with
  | .text => d.textLine path ++ "\n"
  | .json => d.jsonLine path ++ "\n"

/-- Checks files one after the other. -/
def checkFiles (s : Surroundings) (a : Advisor) (format : ReportFormat) (store : GrammarStore) :
    List String → Outcome
  | [] => { exitCode := 0 }
  | path :: more =>
    match s.document path with
    | .error complaint => failure complaint
    | .ok d =>
      match runRequest (a.diagnostics d) store with
      | (.error complaint, _) => failure complaint
      | (.ok diagnostics, store) =>
        let rest := checkFiles s a format (store.evictDocument d.url).2 more
        { rest with
          exitCode := if diagnostics.any Diagnostic.isError then 1 else rest.exitCode
          output := String.join (diagnostics.map (format.line path)) ++ rest.output }

/-- Repairs a file and writes it back or prints it. -/
def fixFile (s : Surroundings) (a : Advisor) (path : String) (element : Option String)
    (write : Bool) : Outcome :=
  match s.document path with
  | .error complaint => failure complaint
  | .ok d =>
    match runRequest (a.fix d element) {} with
    | (.error complaint, _) => failure complaint
    | (.ok (some text), _) =>
      if write then { exitCode := 0, written := [(path, text)] }
      else { exitCode := 0, output := text }
    | (.ok none, _) =>
      { exitCode := 0, output := if write then "" else String.ofList d.text }

/-- Does what an invocation says. -/
def Invocation.run (i : Invocation) (s : Surroundings) : Outcome :=
  match s.advisor i.config with
  | .error complaint => failure complaint
  | .ok a =>
    match i.command with
    | .check files format => checkFiles s a format {} files
    | .fix file element write => fixFile s a file element write

/-- How the program is called. -/
def usageText : String :=
  "Usage: xmlls [-c FILE] [-v] check [--format text|json] FILES...\n"
    ++ "       xmlls [-c FILE] [-v] fix [--element NAME] [-w] FILE\n"

/-- What is done instead of an invocation. -/
def Refusal.outcome : Refusal → Outcome
  | .usage => { exitCode := 2, complaint := usageText }
  | .help => { exitCode := 0, output := usageText }
  | .version => { exitCode := 0, output := "xmlls 0.4.0\n" }

/-- Runs the program. -/
def run (s : Surroundings) (arguments : List String) : Outcome :=
  match Invocation.read arguments with
  | .error refusal => refusal.outcome
  | .ok invocation => invocation.run s

/-! ## Which files a run reads -/

/-- The files that an invocation names. -/
def Invocation.namedFiles (i : Invocation) : List String :=
  i.config.toList ++ match i.command with
    | .check files _ => files
    | .fix file _ _ => [file]

/-- The files of the grammars that a document is bound to. -/
def grammarPaths (a : Advisor) (d : Document) : List (List UInt8) :=
  (d.references a.bindings.associations).filterMap fun r =>
    match r.source with
    | .external uri => uri.filePath?
    | .inline _ _ => none

/-- The paths that a run reads, as far as what can be read tells. -/
def pathsToRead (s : Surroundings) (arguments : List String) : List (List UInt8) :=
  match Invocation.read arguments with
  | .error _ => []
  | .ok i =>
    let named := i.namedFiles.map s.pathBytes
    match s.advisor i.config with
    | .error _ => named
    | .ok a =>
      named ++ i.namedFiles.flatMap fun path =>
        match s.document path with
        | .ok d => grammarPaths a d
        | .error _ => []

end XmlAdvisor.CommandLine
