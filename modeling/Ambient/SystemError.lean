/-!
# What the system refuses

The ways in which reading a file, writing one or creating a directory fails,
with the wording and number that the system gives them.
-/

namespace Ambient

inductive SystemError where
  | noSuchEntry
  | alreadyExists
  | notDirectory
  | isDirectory
  | nameTooLong
  | nulInName
  | other (text : String)
deriving DecidableEq

def SystemError.message : SystemError → String
  | .noSuchEntry => "No such file or directory (os error 2)"
  | .alreadyExists => "File exists (os error 17)"
  | .notDirectory => "Not a directory (os error 20)"
  | .isDirectory => "Is a directory (os error 21)"
  | .nameTooLong => "File name too long (os error 36)"
  | .nulInName => "file name contained an unexpected NUL byte"
  | .other text => text

inductive TextError where
  | system (error : SystemError)
  | notUtf8
deriving DecidableEq

def TextError.message : TextError → String
  | .system error => error.message
  | .notUtf8 => "stream did not contain valid UTF-8"

def textOfBytes (bytes : ByteArray) : Except TextError String :=
  match String.fromUTF8? bytes with
  | some text => .ok text
  | none => .error .notUtf8

end Ambient
