/-!
# The arguments of the command line

**Words and items.**  Arguments are read from left to right into items: options with their values,
the name of a command, and operands.  Which options a word may name depends on whether a command has
been named.  The value of an option follows an equals sign, or directly the letter of the option, or
is the next word, which then must not look like an option.  After two hyphens all words are
operands.

**Refusals.**  The first item that cannot be taken ends the reading, and so does asking for help or
for the version.  No option may be given twice for one command.
-/

namespace XmlAdvisor.CommandLine

/-- How diagnostics are written. -/
inductive ReportFormat
  | text
  | json
  deriving DecidableEq, Repr, Inhabited

/-- What is to be done. -/
inductive Command
  | check (files : List String) (format : ReportFormat)
  | fix (file : String) (element : Option String) (write : Bool)
  deriving DecidableEq, Repr, Inhabited

/-- A command and the file with the settings for it. -/
structure Invocation where
  config : Option String
  command : Command
  deriving DecidableEq, Repr, Inhabited

/-- Why arguments are no invocation. -/
inductive Refusal
  | usage
  | help
  | version
  deriving DecidableEq, Repr, Inhabited

/-! ## Options -/

/-- The options. -/
inductive Flag
  | config
  | verbose
  | help
  | version
  | format
  | element
  | write
  deriving DecidableEq, Repr, Inhabited

namespace Flag

/-- The long name of an option. -/
def name : Flag → String
  | config => "config"
  | verbose => "verbose"
  | help => "help"
  | version => "version"
  | format => "format"
  | element => "element"
  | write => "write"

/-- The letter of an option. -/
def letter? : Flag → Option Char
  | config => some 'c'
  | verbose => some 'v'
  | help => some 'h'
  | version => some 'V'
  | write => some 'w'
  | format | element => none

/-- Whether an option has a value. -/
def hasValue : Flag → Bool
  | config | format | element => true
  | verbose | help | version | write => false

end Flag

/-- What an argument stands after: no command yet, or one of the commands. -/
inductive Level
  | program
  | check
  | fix
  deriving DecidableEq, Repr, Inhabited

/-- The options that can be given at a level. -/
def Level.flags : Level → List Flag
  | .program => [.config, .verbose, .help, .version]
  | .check => [.config, .verbose, .help, .format]
  | .fix => [.config, .verbose, .help, .element, .write]

/-- The level after the name of a command. -/
def Level.named? : String → Option Level
  | "check" => some .check
  | "fix" => some .fix
  | _ => none

/-! ## Items -/

/-- What a word or two words stand for. -/
inductive Item
  | flag (f : Flag) (value : Option String)
  | command (l : Level)
  | operand (s : String)
  | malformed
  deriving DecidableEq, Repr, Inhabited

/-- The items of a word, and the option whose value the next word is. -/
abbrev WordItems : Type :=
  List Item × Option Flag

/-- A word without an equals sign at its start. -/
def withoutEquals : List Char → List Char
  | '=' :: rest => rest
  | cs => cs

/-- The items of the letters after one hyphen. -/
def letterItems (l : Level) : List Char → WordItems
  | [] => ([], none)
  | c :: rest =>
    match l.flags.find? (·.letter? = some c) with
    | none => ([.malformed], none)
    | some f =>
      if f.hasValue then
        if rest.isEmpty then ([], some f)
        else ([.flag f (some (String.ofList (withoutEquals rest)))], none)
      else
        let (items, open?) := letterItems l rest
        (.flag f none :: items, open?)

/-- The item of what stands after two hyphens. -/
def longItems (l : Level) (word : List Char) : WordItems :=
  let name := String.ofList (word.takeWhile (· != '='))
  let value := match word.dropWhile (· != '=') with
    | [] => none
    | _ :: rest => some (String.ofList rest)
  match l.flags.find? (·.name = name), value with
  | some f, some v => if f.hasValue then ([.flag f (some v)], none) else ([.malformed], none)
  | some f, none => if f.hasValue then ([], some f) else ([.flag f none], none)
  | none, _ => ([.malformed], none)

/-- Whether a word looks like an option. -/
def looksLikeFlag (word : String) : Bool :=
  word.toList.head? == some '-' && word ≠ "-"

/-- Whether words name something that there is help about: the program, or one of its commands. -/
def isHelpTopic : List String → Bool
  | [] => true
  | [word] => (Level.named? word).isSome || word = "help"
  | _ => false

/-- The items of arguments.  `open?` is an option whose value comes next. -/
def items (l : Level) (open? : Option Flag) (onlyOperands : Bool) : List String → List Item
  | [] => if open?.isSome then [.malformed] else []
  | word :: rest =>
    match open? with
    | some f =>
      if looksLikeFlag word then [.malformed]
      else .flag f (some word) :: items l none onlyOperands rest
    | none =>
      if looksLikeFlag word && !onlyOperands then
        match word.toList with
        | ['-', '-'] => items l none true rest
        | '-' :: '-' :: long =>
          let (here, next) := longItems l long
          here ++ items l next false rest
        | _ =>
          let (here, next) := letterItems l (word.toList.drop 1)
          here ++ items l next false rest
      else if l ≠ .program then .operand word :: items l none onlyOperands rest
      else if onlyOperands then [.malformed]
      else
        match Level.named? word with
        | some next => .command next :: items next none false rest
        | none => if word = "help" && isHelpTopic rest then [.flag .help none] else [.malformed]

/-! ## Invocations -/

/-- What the items so far say. -/
structure Draft where
  level : Level := .program
  /-- The options given at this level. -/
  given : List Flag := []
  config : Option String := none
  operands : List String := []
  format : ReportFormat := .text
  element : Option String := none
  write : Bool := false
  deriving Repr, Inhabited

/-- The report format with the given name. -/
def ReportFormat.named? : String → Option ReportFormat
  | "text" => some .text
  | "json" => some .json
  | _ => none

/-- Takes an option into a draft. -/
def Draft.takeFlag (d : Draft) (f : Flag) (value : String) : Except Refusal Draft :=
  let d := { d with given := f :: d.given }
  match f with
  | .help => .error .help
  | .version => .error .version
  | .verbose => .ok d
  | .config => if value.isEmpty then .error .usage else .ok { d with config := some value }
  | .element => .ok { d with element := some value }
  | .write => .ok { d with write := true }
  | .format =>
    match ReportFormat.named? value with
    | some format => .ok { d with format }
    | none => .error .usage

/-- Takes an item into a draft. -/
def Draft.take (d : Draft) : Item → Except Refusal Draft
  | .malformed => .error .usage
  | .command l => .ok { d with level := l, given := [] }
  | .flag f value =>
    if d.given.contains f then .error .usage else d.takeFlag f (value.getD "")
  | .operand s =>
    if s.isEmpty || (d.level = .fix && !d.operands.isEmpty) then .error .usage
    else .ok { d with operands := d.operands ++ [s] }

/-- The invocation that a draft amounts to. -/
def Draft.invocation (d : Draft) : Except Refusal Invocation :=
  match d.level, d.operands with
  | .check, first :: more => .ok ⟨d.config, .check (first :: more) d.format⟩
  | .fix, [file] => .ok ⟨d.config, .fix file d.element d.write⟩
  | _, _ => .error .usage

/-- The invocation that arguments stand for. -/
def Invocation.read (arguments : List String) : Except Refusal Invocation := do
  let draft ← (items .program none false arguments).foldlM Draft.take {}
  draft.invocation

end XmlAdvisor.CommandLine
