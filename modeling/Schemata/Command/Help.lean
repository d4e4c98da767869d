/-! # Help texts

What the program says about itself and its commands.  A page of help says what something does and
how it is called, and then lists commands, operands and options in columns. -/

namespace Schemata.Command

/-- What help can be asked about. -/
inductive Topic where
  | program
  | compile
  | fields
  | help
  deriving Repr, DecidableEq

/-- A line of a page: something that can be given, and what it means. -/
structure HelpEntry where
  name : String
  meaning : String
  deriving Repr, DecidableEq

/-- A page of help. -/
structure HelpPage where
  about : String
  /-- What follows the name of the program. -/
  usage : String
  commands : List HelpEntry := []
  operands : List HelpEntry := []
  options : List HelpEntry := []
  deriving Repr, DecidableEq

/-- The name of the program. -/
def programName : String := "typeschema"

/-- What the program says about its version. -/
def versionText : String := s!"{programName} 0.1.0\n"

/-- Entries below a title, with what they mean in a column of its own.  Nothing is said of no
entries. -/
def helpSection (title : String) (entries : List HelpEntry) : String :=
  let width := (entries.map (·.name.length)).foldl max 0
  let line (e : HelpEntry) : String :=
    "  " ++ e.name ++ "".pushn ' ' (width - e.name.length) ++ "  " ++ e.meaning ++ "\n"
  if entries.isEmpty then "" else s!"\n{title}:\n" ++ String.join (entries.map line)

/-- The text of a page. -/
def HelpPage.text (p : HelpPage) : String :=
  s!"{p.about}\n\nUsage: {programName} {p.usage}\n" ++ helpSection "Commands" p.commands ++
    helpSection "Arguments" p.operands ++ helpSection "Options" p.options

namespace Topic

/-- What a command does, in a line. -/
def about : Topic → String
  | .program => "Compile a graph of structural types into a $ref-linked schema document"
  | .compile => "Compile one or more root types into a schema document"
  | .fields => "List the serializable fields of a type"
  | .help => "Print this message or the help of the given subcommand(s)"

/-- The entry for the file with the declarations. -/
def inputEntry : HelpEntry := ⟨"<INPUT>", "Type catalog (JSON)"⟩

/-- The entry for the option that asks for more messages. -/
def verboseEntry : HelpEntry :=
  ⟨"-v, --verbose", "Enable verbose logging (sets log level to debug)"⟩

/-- The entry for the option that asks for help. -/
def helpOptionEntry : HelpEntry := ⟨"-h, --help", "Print help"⟩

/-- The page about a topic. -/
def page (t : Topic) : HelpPage :=
  match t with
  | .program =>
    { about := t.about
      usage := "[OPTIONS] <COMMAND>"
      commands := [⟨"compile", compile.about⟩, ⟨"fields", fields.about⟩, ⟨"help", help.about⟩]
      options := [verboseEntry, helpOptionEntry, ⟨"-V, --version", "Print version"⟩] }
  | .compile =>
    { about := t.about
      usage := "compile [OPTIONS] --root <ROOTS> <INPUT>"
      operands := [inputEntry]
      options := [
        ⟨"-r, --root <ROOTS>", "Qualified name of a root type; may be repeated"⟩,
        ⟨"-o, --output <OUTPUT>", "Output document file (defaults to stdout if not specified)"⟩,
        ⟨"    --config <CONFIG>", "Compile options file (JSON, kebab-case keys)"⟩,
        verboseEntry,
        ⟨"    --max-depth <MAX_DEPTH>",
          "Max nesting depth below a root; overrides the config file"⟩,
        ⟨"    --ref-prefix <REF_PREFIX>", "Prefix for `$ref` strings; overrides the config file"⟩,
        ⟨"    --format <FORMAT>",
          "Output format [default: pretty] [possible values: pretty, compact]"⟩,
        helpOptionEntry] }
  | .fields =>
    { about := t.about
      usage := "fields [OPTIONS] <INPUT> <NAME>"
      operands := [inputEntry, ⟨"<NAME>", "Qualified name of the type"⟩]
      options := [verboseEntry, helpOptionEntry] }
  | .help =>
    { about := t.about
      usage := "help [COMMAND]..."
      operands := [⟨"[COMMAND]...", "Print help for the subcommand(s)"⟩] }

/-- The text of the page about a topic. -/
def text (t : Topic) : String := t.page.text

end Topic

end Schemata.Command
