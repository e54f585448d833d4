/-!
Why a file could not be read or written.
-/

namespace PaperFolding

inductive FileError where
  | notFound
  | busy
  | exists
  | notDirectory
  | isDirectory
  | nameTooLong
  | nulInName
  | notText
  /-- Any other reason, with its number and its text. -/
  | other (number : Nat) (text : String)
deriving DecidableEq, Repr

def FileError.message : FileError → String
  | notFound => "No such file or directory (os error 2)"
  | busy => "Device or resource busy (os error 16)"
  | .exists => "File exists (os error 17)"
  | notDirectory => "Not a directory (os error 20)"
  | isDirectory => "Is a directory (os error 21)"
  | nameTooLong => "File name too long (os error 36)"
  | nulInName => "file name contained an unexpected NUL byte"
  | notText => "stream did not contain valid UTF-8"
  | other number text => text ++ " (os error " ++ toString number ++ ")"

def FileError.full : FileError := .other 28 "No space left on device"

end PaperFolding
