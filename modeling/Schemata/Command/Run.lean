import Schemata.Command.Args
import Schemata.Command.SystemError
import Schemata.Document.Render
import Schemata.Json.Printer
import Schemata.Options.Json
import Schemata.Session
import Schemata.TypeDecl.Decode

/-! # Running commands

A command is run over any way to reach files, so that it can be run on a real file system as well as
on a table of texts.  It comes to an outcome: what is to be printed, and why it failed if it did. -/

namespace Schemata

/-! ## Reading catalogs -/

/-- The catalog of a text. -/
def Catalog.ofSource (s : Source) : Except CompileError Catalog :=
  match Reader.typeDecls.run s with
  | .error cause => .error (.unreadable cause)
  | .ok decls =>
    match ofDecls decls with
    | .error cause => .error (.catalog cause)
    | .ok catalog => .ok catalog

namespace Command

/-- Why a file cannot be read. -/
inductive ReadFailure where
  /-- It cannot be opened. -/
  | unopened (error : SystemError)
  /-- It can be opened, but not read. -/
  | unread (error : SystemError)
  deriving Repr, DecidableEq

/-- Why a file cannot be written. -/
inductive WriteFailure where
  /-- It cannot be created. -/
  | uncreated (error : SystemError)
  /-- It can be created, but takes nothing. -/
  | unwritten (error : SystemError)
  deriving Repr, DecidableEq

/-- A way to reach files. -/
structure FileAccess (m : Type → Type) where
  read : String → m (Except ReadFailure Source)
  write : String → String → m (Except WriteFailure Unit)

/-- What makes a command fail in the end. -/
inductive Cause where
  /-- A file cannot be opened or written. -/
  | file (error : SystemError)
  /-- A file cannot be read; the explanations go from the outside in. -/
  | stream (reasons : List String)
  /-- A text cannot be read. -/
  | text (cause : ReadError)
  /-- Something else goes wrong. -/
  | compile (cause : CompileError)
  deriving Repr, DecidableEq

/-- The explanations of a cause, from the outside in. -/
def Cause.explanations : Cause → List String
  | .file error => [error.message]
  | .stream reasons => reasons
  | .text cause => [cause.message]
  | .compile (.unreadable cause) => [(CompileError.unreadable cause).message, cause.message]
  | .compile (.misuse name cause) => [(CompileError.misuse name cause).message, cause.message]
  | .compile cause => [cause.message]

/-- Whether the cause lies in a text that is not what it should be. -/
def Cause.isText : Cause → Bool
  | .stream _ | .text _ | .compile (.unreadable _) => true
  | _ => false

/-- Why a command failed: what it was about, if that needs to be said, and what made it fail. -/
structure Failure where
  context : Option String := none
  cause : Cause
  deriving Repr, DecidableEq

/-- Indents all lines of a text but the first. -/
def indentRest (lead s : String) : String :=
  String.ofList (s.toList.flatMap fun c => if c = '\n' then c :: lead.toList else [c])

/-- The explanations below a heading, numbered if there are several. -/
def causeLines : List String → String
  | [] => ""
  | [only] => "\n\nCaused by:\n    " ++ indentRest "    " only
  | several =>
    let line (p : String × Nat) := "    " ++ toString p.2 ++ ": " ++ indentRest "       " p.1
    "\n\nCaused by:\n" ++ "\n".intercalate (several.zipIdx.map line)

/-- The report of a failure. -/
def Failure.report (f : Failure) : String :=
  let lines :=
    match f.context with
    | some context => context :: f.cause.explanations
    | none => f.cause.explanations
  "Error: " ++ lines.headD "" ++ causeLines lines.tail ++ "\n"

/-- What a command comes to. -/
structure Outcome where
  /-- What is printed. -/
  output : String := ""
  failure : Option Failure := none
  deriving Repr, DecidableEq

/-- An action that may fail with a report. -/
abbrev RunM (m : Type → Type) := ExceptT Failure m

section

variable {m : Type → Type} [Monad m]

/-- Goes on with what was reached, or fails. -/
def orFail {α ε : Type} (context : String) (cause : ε → Cause) : Except ε α → RunM m α
  | .ok a => pure a
  | .error e => throw { context := some context, cause := cause e }

/-- The catalog in a file. -/
def loadCatalog (files : FileAccess m) (path : String) : RunM m Catalog := do
  let loading := s!"Failed to load type catalog from: {path}"
  match ← files.read path with
  | .ok source => orFail loading .compile (Catalog.ofSource source)
  | .error (.unopened error) =>
    throw { context := some s!"Failed to open input file: {path}", cause := .file error }
  | .error (.unread error) =>
    throw { context := some loading,
            cause := .stream [s!"JSON (de)serialization error: {error.message}", error.message] }

/-- The options in a file. -/
def loadOptions (files : FileAccess m) (path : String) : RunM m Options := do
  let parsing := s!"Failed to parse config from: {path}"
  match ← files.read path with
  | .ok source => orFail parsing .text (Reader.options.run source)
  | .error (.unopened error) =>
    throw { context := some s!"Failed to open config file: {path}", cause := .file error }
  | .error (.unread error) =>
    throw { context := some parsing, cause := .stream [error.message] }

/-- The text of a value in a layout, with a line end. -/
def layOut (layout : Layout) (j : Json) : String :=
  match layout with
  | .pretty => j.pretty ++ "\n"
  | .compact => j.compact ++ "\n"

/-- How many bytes are held back until a file is written to. -/
def bufferSize : Nat := 8192

/-- At which stage it shows that a file takes nothing of a laid out text: when the held back bytes
are to be given to it for the first time, which is while the value is written, at the line end or at
the very end. -/
def writingStage (text : String) : String :=
  if text.utf8ByteSize ≤ bufferSize then "Failed to flush output"
  else if text.utf8ByteSize = bufferSize + 1 then "Failed to write trailing newline"
  else "Failed to write JSON"

/-- Writes a laid out text to a file. -/
def saveText (files : FileAccess m) (path text : String) : RunM m Unit := do
  match ← files.write path text with
  | .ok () => return
  | .error (.uncreated error) =>
    throw { context := some s!"Failed to create output file: {path}", cause := .file error }
  | .error (.unwritten error) => throw { context := some (writingStage text), cause := .file error }

/-- Compiles roots and writes the document to a file, or hands it back to be printed. -/
def runCompile (files : FileAccess m) (args : CompileArgs) : RunM m String := do
  let catalog ← loadCatalog files args.input
  let loaded ←
    match args.config with
    | some path => loadOptions files path
    | none => pure {}
  let options : Options :=
    { maxDepth := args.maxDepth.getD loaded.maxDepth
      refPrefix := args.refPrefix.getD loaded.refPrefix }
  let compiler : Compiler := { options }
  let document ← orFail "Compilation failed" .compile (compiler.compileByName catalog args.roots)
  let text := layOut args.layout document.render
  match args.output with
  | none => return text
  | some path =>
    saveText files path text
    return ""

/-- One line for each written field of a type: its name, its type and the type that declares it. -/
def runFields (files : FileAccess m) (path name : String) : RunM m String := do
  let catalog ← loadCatalog files path
  match catalog.require name with
  | .error e => throw { cause := .compile e }
  | .ok t =>
    let line (f : Field) :=
      f.name ++ "\t" ++ catalog.name f.type ++ "\t" ++ catalog.name f.declaring ++ "\n"
    return String.join ((FieldPolicy.accessible catalog t).map line)

/-- Runs a command. -/
def Invocation.run (files : FileAccess m) (invocation : Invocation) : m Outcome := do
  let result ← ExceptT.run <|
    match invocation with
    | .compile args => runCompile files args
    | .fields input name => runFields files input name
  match result with
  | .ok output => return { output }
  | .error failure => return { failure := some failure }

end

end Command

end Schemata
