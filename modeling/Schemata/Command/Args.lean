import Schemata.Command.Help
import Schemata.Options.Basic

/-! # Command lines

A command line names a command and gives it options and operands.  An option is written in full
after two hyphens or as one letter after one hyphen; its value follows an equals sign, or directly
the letter, or is the next argument, which must then not look like an option.  After `--` all
arguments are operands.  Arguments are taken in order, so the first one that is wrong decides, and
a request for help counts from where it stands. -/

namespace Schemata.Command

/-- What is wrong with a command line. -/
inductive UsageError where
  | unknownArgument (text : String)
  | unknownCommand (text : String)
  | missingValue (option : String)
  | needlessValue (option : String)
  | repeatedOption (option : String)
  | wrongValue (option value : String)
  | missingArgument (name : String)
  deriving Repr, DecidableEq

/-- The words for what is wrong with a command line. -/
def UsageError.message : UsageError → String
  | .unknownArgument text => s!"unexpected argument '{text}'"
  | .unknownCommand text => s!"unrecognized subcommand '{text}'"
  | .missingValue option => s!"a value is required for '--{option}'"
  | .needlessValue option => s!"'--{option}' takes no value"
  | .repeatedOption option => s!"'--{option}' cannot be used multiple times"
  | .wrongValue option value => s!"invalid value '{value}' for '{option}'"
  | .missingArgument name => s!"'{name}' was not provided"

/-- Why a command line is not run: it is wrong, or it asks about the program. -/
inductive Refusal where
  | usage (cause : UsageError)
  | help (topic : Topic)
  | version
  deriving Repr, DecidableEq

/-! ## Arguments -/

/-- An option that a command knows. -/
structure OptionSpec where
  /-- The name in full. -/
  long : String
  /-- The letter. -/
  short : Option Char := none
  takesValue : Bool := true
  deriving Repr, DecidableEq

/-- Something given on a command line. -/
inductive Given where
  | flag (option : String)
  | value (option text : String)
  | operand (text : String)
  deriving Repr, DecidableEq

/-- What was given on a command line until it ended, went wrong or came to its command. -/
structure Scan where
  given : List Given := []
  stop : Option UsageError := none
  /-- The arguments from the command on. -/
  rest : List String := []
  deriving Repr, DecidableEq

/-- The scan with more in front. -/
def Scan.prepend (given : List Given) (s : Scan) : Scan := { s with given := given ++ s.given }

/-- What an argument looks like. -/
inductive Look where
  | separator
  | long (name : String) (value : Option String)
  | short (letters : List Char)
  | operand

/-- What an argument looks like.  A hyphen by itself is an operand. -/
def look (arg : String) : Look :=
  match arg.toList with
  | ['-', '-'] => .separator
  | '-' :: '-' :: cs =>
    let name := String.ofList (cs.takeWhile (· ≠ '='))
    match cs.dropWhile (· ≠ '=') with
    | _ :: value => .long name (some (String.ofList value))
    | [] => .long name none
  | '-' :: c :: cs => .short (c :: cs)
  | _ => .operand

/-- What a group of letters comes to: flags, and then nothing, an option that still needs a value,
or an error. -/
structure Letters where
  given : List Given := []
  needs : Option String := none
  stop : Option UsageError := none

/-- Reads a group of letters.  What follows the letter of an option with a value is its value. -/
def readLetters (specs : List OptionSpec) : List Char → Letters
  | [] => {}
  | c :: rest =>
    match specs.find? (·.short = some c) with
    | none => { stop := some (.unknownArgument ("-" ++ c.toString)) }
    | some spec =>
      if spec.takesValue then
        match rest with
        | [] => { needs := some spec.long }
        | '=' :: value => { given := [.value spec.long (String.ofList value)] }
        | value => { given := [.value spec.long (String.ofList value)] }
      else
        let more := readLetters specs rest
        { more with given := .flag spec.long :: more.given }

/-- Whether an argument can be the value of the option before it. -/
def isValue (arg : String) : Bool :=
  match look arg with
  | .operand => true
  | _ => false

/-- Reads arguments.  The first operand is the command if `toCommand` is set.  `needs` is the option
that the first argument must be the value of. -/
def scan (specs : List OptionSpec) (toCommand : Bool) (needs : Option String) :
    List String → Scan
  | [] => { stop := needs.map .missingValue }
  | arg :: rest =>
    match needs with
    -- the option before is still without its value
    | some option =>
      if isValue arg then (scan specs toCommand none rest).prepend [.value option arg]
      else { stop := some (.missingValue option) }
    | none =>
      match look arg with
      | .separator => { given := rest.map .operand }
      | .operand =>
        if toCommand then { rest := arg :: rest }
        else (scan specs toCommand none rest).prepend [.operand arg]
      | .long name value =>
        match specs.find? (·.long = name), value with
        | none, _ => { stop := some (.unknownArgument arg) }
        | some spec, some value =>
          if spec.takesValue then (scan specs toCommand none rest).prepend [.value name value]
          else { stop := some (.needlessValue name) }
        | some spec, none =>
          if spec.takesValue then scan specs toCommand (some name) rest
          else (scan specs toCommand none rest).prepend [.flag name]
      | .short letters =>
        let read := readLetters specs letters
        match read.stop with
        | some e => { given := read.given, stop := some e }
        | none => (scan specs toCommand read.needs rest).prepend read.given

/-! ## Commands -/

/-- How JSON is laid out. -/
inductive Layout where
  | pretty
  | compact
  deriving Repr, DecidableEq, Inhabited

/-- What to compile, and how. -/
structure CompileArgs where
  /-- The file with the declarations. -/
  input : String
  /-- The qualified names of the roots. -/
  roots : List String
  output : Option String := none
  config : Option String := none
  maxDepth : Option Nat := none
  refPrefix : Option String := none
  layout : Layout := .pretty
  deriving Repr, DecidableEq

/-- A command and its arguments. -/
inductive Invocation where
  /-- Compile roots into a document. -/
  | compile (args : CompileArgs)
  /-- List the written fields of a type. -/
  | fields (input name : String)
  deriving Repr, DecidableEq

/-- The option that asks for more messages. -/
def verboseSpec : OptionSpec := { long := "verbose", short := some 'v', takesValue := false }

/-- The option that asks for help. -/
def helpSpec : OptionSpec := { long := "help", short := some 'h', takesValue := false }

/-- The options in front of a command. -/
def globalSpecs : List OptionSpec :=
  [verboseSpec, helpSpec, { long := "version", short := some 'V', takesValue := false }]

/-- The options of `fields`. -/
def fieldsSpecs : List OptionSpec := [verboseSpec, helpSpec]

/-- The options of `compile`. -/
def compileSpecs : List OptionSpec :=
  [{ long := "root", short := some 'r' }, { long := "output", short := some 'o' },
   { long := "config" }, { long := "max-depth" }, { long := "ref-prefix" }, { long := "format" },
   verboseSpec, helpSpec]

/-- The number that a text of decimal digits stands for, with or without a plus sign, if it fits
into 64 bits. -/
def parseDepth? (text : String) : Option Nat :=
  let digits :=
    match text.toList with
    | '+' :: rest => rest
    | cs => cs
  if digits.isEmpty || !digits.all Char.isDigit then none
  else
    let n := digits.foldl (fun n c => n * 10 + (c.toNat - '0'.toNat)) 0
    if n < Nat.pow 2 64 then some n else none

/-- A layout by name. -/
def parseLayout? : String → Option Layout
  | "pretty" => some .pretty
  | "compact" => some .compact
  | _ => none

/-- What has been given so far.  Options that may come once are told apart by their names in
`seen`. -/
structure Draft where
  seen : List String := []
  operands : List String := []
  roots : List String := []
  output : Option String := none
  config : Option String := none
  maxDepth : Option Nat := none
  refPrefix : Option String := none
  layout : Option Layout := none

/-- Refuses an option that has been given before. -/
def Draft.mark (d : Draft) (option : String) : Except Refusal Draft :=
  if option ∈ d.seen then .error (.usage (.repeatedOption option))
  else .ok { d with seen := option :: d.seen }

/-- The name of a file, which must not be empty. -/
def fileName (option text : String) : Except Refusal String :=
  if text = "" then .error (.usage (.wrongValue option text)) else .ok text

/-- A value that can be wrong. -/
def checked {α : Type} (option text : String) : Option α → Except Refusal α
  | some a => .ok a
  | none => .error (.usage (.wrongValue option text))

/-- Takes the value of an option. -/
def Draft.takeValue (d : Draft) (option text : String) : Except Refusal Draft := do
  match option with
  | "root" => return { d with roots := d.roots ++ [text] }
  | "output" => return { ← d.mark option with output := some (← fileName option text) }
  | "config" => return { ← d.mark option with config := some (← fileName option text) }
  | "max-depth" =>
    return { ← d.mark option with maxDepth := some (← checked option text (parseDepth? text)) }
  | "ref-prefix" => return { ← d.mark option with refPrefix := some text }
  | "format" =>
    return { ← d.mark option with layout := some (← checked option text (parseLayout? text)) }
  | _ => throw (.usage (.unknownArgument option))

/-- Takes something given, where `names` are the names of the operands; the first is a file.  Help
is about `topic`. -/
def Draft.take (topic : Topic) (names : List String) (d : Draft) : Given → Except Refusal Draft
  | .flag "help" => .error (.help topic)
  | .flag "version" => .error .version
  | .flag option => d.mark option
  | .value option text => d.takeValue option text
  | .operand text => do
    match names[d.operands.length]? with
    | none => throw (.usage (.unknownArgument text))
    | some name =>
      let text ← if d.operands.isEmpty then fileName name text else pure text
      return { d with operands := d.operands ++ [text] }

/-- Takes everything that was given, and then what stopped the scan. -/
def Draft.ofScan (topic : Topic) (names : List String) (s : Scan) : Except Refusal Draft := do
  let d ← s.given.foldlM (Draft.take topic names) {}
  match s.stop with
  | some e => throw (.usage e)
  | none => return d

/-- The error for an operand or option that is missing. -/
def absent {α : Type} (name : String) : Except Refusal α := .error (.usage (.missingArgument name))

/-- Reads the arguments of `compile`. -/
def parseCompile (args : List String) : Except Refusal Invocation := do
  let d ← Draft.ofScan .compile ["input"] (scan compileSpecs false none args)
  match d.operands with
  | input :: _ =>
    if d.roots.isEmpty then absent "root"
    else
      return .compile {
        input, roots := d.roots, output := d.output, config := d.config, maxDepth := d.maxDepth
        refPrefix := d.refPrefix, layout := d.layout.getD .pretty }
  | [] => absent "input"

/-- Reads the arguments of `fields`. -/
def parseFields (args : List String) : Except Refusal Invocation := do
  let d ← Draft.ofScan .fields ["input", "name"] (scan fieldsSpecs false none args)
  match d.operands with
  | [input, name] => return .fields input name
  | _ => absent "name"

/-- Reads the arguments of `help`.  The program, its commands and `help` itself can be asked
about. -/
def parseHelp : List String → Except Refusal Invocation
  | [] => .error (.help .program)
  | ["compile"] => .error (.help .compile)
  | ["fields"] => .error (.help .fields)
  | ["help"] => .error (.help .help)
  | args => .error (.usage (.unknownCommand (" ".intercalate args)))

/-- Reads a command line. -/
def parse (args : List String) : Except Refusal Invocation := do
  let s := scan globalSpecs true none args
  let _ ← Draft.ofScan .program [] s
  match s.rest with
  | "compile" :: rest => parseCompile rest
  | "fields" :: rest => parseFields rest
  | "help" :: rest => parseHelp rest
  | name :: _ => throw (.usage (.unknownCommand name))
  | [] => absent "command"

end Schemata.Command
