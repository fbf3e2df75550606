/-!
What can go wrong when a file, a stream or a terminal is used. An error has a kind, on which the
program may decide, and a message, which it shows. The errors of the operating system have fixed
messages with their number in them.
-/
namespace LineRepl

inductive IoErrorKind
  | notFound | permissionDenied | alreadyExists | notADirectory | isADirectory
  | directoryNotEmpty | invalidInput | invalidData | invalidFilename | fileTooLarge
  | unexpectedEof | interrupted | unsupported | other | uncategorized
  deriving DecidableEq, Repr

/-- An error of an input or output operation. -/
structure IoError where
  kind : IoErrorKind
  message : String
  deriving DecidableEq, Repr

/-- The causes that the operating system reports. -/
inductive OsCause
  | noEntry | noExecFormat | permission | exists | notDirectory | isDirectory | invalidArgument
  | fileTooLarge | nameTooLong | notEmpty
  deriving DecidableEq, Repr

namespace OsCause

def number : OsCause → Nat
  | noEntry => 2
  | noExecFormat => 8
  | permission => 13
  | .exists => 17
  | notDirectory => 20
  | isDirectory => 21
  | invalidArgument => 22
  | fileTooLarge => 27
  | nameTooLong => 36
  | notEmpty => 39

def text : OsCause → String
  | noEntry => "No such file or directory"
  | noExecFormat => "Exec format error"
  | permission => "Permission denied"
  | .exists => "File exists"
  | notDirectory => "Not a directory"
  | isDirectory => "Is a directory"
  | invalidArgument => "Invalid argument"
  | fileTooLarge => "File too large"
  | nameTooLong => "File name too long"
  | notEmpty => "Directory not empty"

def kind : OsCause → IoErrorKind
  | noEntry => .notFound
  | noExecFormat => .uncategorized
  | permission => .permissionDenied
  | .exists => .alreadyExists
  | notDirectory => .notADirectory
  | isDirectory => .isADirectory
  | invalidArgument => .invalidInput
  | fileTooLarge => .fileTooLarge
  | nameTooLong => .invalidFilename
  | notEmpty => .directoryNotEmpty

end OsCause

namespace IoError

def os (cause : OsCause) : IoError :=
  ⟨cause.kind, s!"{cause.text} (os error {cause.number})"⟩

/-- Text was asked for and the bytes are not UTF-8. -/
def notUtf8 : IoError := ⟨.invalidData, "stream did not contain valid UTF-8"⟩

end IoError
end LineRepl
