/-! # Errors of the operating system

What the operating system answers when a file cannot be reached: a number, and the words for it. -/

namespace Schemata.Command

/-- An error of the operating system. -/
structure SystemError where
  /-- The number by which the operating system knows the error. -/
  code : Nat
  words : String
  deriving Repr, DecidableEq

namespace SystemError

/-- Nothing stands at the path. -/
def missing : SystemError := ⟨2, "No such file or directory"⟩

/-- The path goes on behind something that is no directory. -/
def notDirectory : SystemError := ⟨20, "Not a directory"⟩

/-- A directory stands where a file is needed. -/
def isDirectory : SystemError := ⟨21, "Is a directory"⟩

/-- There is no room for what is written. -/
def noSpace : SystemError := ⟨28, "No space left on device"⟩

/-- The path, or a name in it, is longer than the operating system allows. -/
def nameTooLong : SystemError := ⟨36, "File name too long"⟩

/-- The words and the number. -/
def message (e : SystemError) : String := s!"{e.words} (os error {e.code})"

end SystemError

end Schemata.Command
