import Schemata.Command.Run

/-! # The command line program

Files are reached through the operating system.  A failure goes to standard error with exit code 1,
a wrong command line with exit code 2. -/

namespace Schemata.Command

/-- What the operating system said.  An error of another kind has no number, and its words stand for
themselves. -/
def systemError : IO.Error → SystemError
  | .alreadyExists _ code words | .resourceBusy code words | .resourceVanished code words
  | .unsupportedOperation code words | .hardwareFault code words
  | .unsatisfiedConstraints code words | .illegalOperation code words
  | .protocolError code words | .timeExpired code words | .otherError code words
  | .interrupted _ code words | .noFileOrDirectory _ code words
  | .invalidArgument _ code words | .permissionDenied _ code words
  | .resourceExhausted _ code words | .inappropriateType _ code words
  | .noSuchThing _ code words => ⟨code.toNat, words⟩
  | e => ⟨0, toString e⟩

/-- The files of the operating system. -/
def systemFiles : FileAccess IO where
  read path := do
    match ← (IO.FS.Handle.mk path .read).toBaseIO with
    | .error e => return .error (.unopened (systemError e))
    | .ok handle =>
      match ← handle.readBinToEnd.toBaseIO with
      | .error e => return .error (.unread (systemError e))
      | .ok bytes => return .ok (Source.ofBytes bytes.toList)
  write path text := do
    match ← (IO.FS.Handle.mk path .write).toBaseIO with
    | .error e => return .error (.uncreated (systemError e))
    | .ok handle =>
      match ← (do handle.putStr text; handle.flush : IO Unit).toBaseIO with
      | .error e => return .error (.unwritten (systemError e))
      | .ok () => return .ok ()

end Schemata.Command

open Schemata.Command in
/-- Runs the command that the arguments name. -/
def main (args : List String) : IO UInt32 := do
  match parse args with
  | .error (.help topic) => IO.print topic.text; return 0
  | .error .version => IO.print versionText; return 0
  | .error (.usage e) => IO.eprintln s!"error: {e.message}"; return 2
  | .ok invocation =>
    let outcome ← invocation.run systemFiles
    IO.print outcome.output
    match outcome.failure with
    | none => return 0
    | some failure => IO.eprint failure.report; return 1
