import XmlAdvisor.CommandLine.Run

/-!
# The program

Reads the files that a run needs, computes its outcome, and carries it out.  Which files are needed
can depend on what was read: the settings and documents first, then the grammars they lead to.
-/

namespace XmlAdvisor.CommandLine

/-- Contents of files by their paths; none for a file that cannot be read. -/
abbrev KnownFiles : Type :=
  List (List UInt8 × Option String)

/-- What a run can see when these files have been read. -/
def KnownFiles.surroundings (known : KnownFiles) (directory : String) : Surroundings where
  directory
  read path := (List.lookup path known).join

/-- Reads the text of a file, if it can be read. -/
def readFile? (path : List UInt8) : IO (Option String) := do
  match String.fromUTF8? ⟨path.toArray⟩ with
  | none => return none
  | some path =>
    try
      return some (← IO.FS.readFile path)
    catch _ =>
      return none

/-- Reads the files that are needed and not known yet. -/
def readMore (directory : String) (arguments : List String) (known : KnownFiles) :
    IO KnownFiles := do
  let mut known := known
  for path in pathsToRead (known.surroundings directory) arguments do
    if (List.lookup path known).isNone then
      known := (path, ← readFile? path) :: known
  return known

/-- Prints the output of an outcome and writes its files. -/
def Outcome.carryOut (o : Outcome) : IO UInt32 := do
  IO.print o.output
  if !o.complaint.isEmpty then IO.eprintln o.complaint
  try
    for (path, text) in o.written do
      IO.FS.writeFile path text
    return o.exitCode.toUInt32
  catch e =>
    IO.eprintln (toString e)
    return 1

/-- Runs the program: reads in rounds, since settings and documents lead to grammars. -/
def runProgram (arguments : List String) : IO UInt32 := do
  let directory := (← IO.currentDir).toString
  let named ← readMore directory arguments []
  let linked ← readMore directory arguments named
  let all ← readMore directory arguments linked
  (run (all.surroundings directory) arguments).carryOut

end XmlAdvisor.CommandLine

/-- Runs the program on its arguments. -/
def main (arguments : List String) : IO UInt32 :=
  XmlAdvisor.CommandLine.runProgram arguments
