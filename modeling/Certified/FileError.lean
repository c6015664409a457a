/-!
Why a file cannot be read or written.
-/

namespace Certified

inductive FileError where
  | notFound
  | accessDenied
  /-- A part of the path is a file and not a directory. -/
  | notDirectory
  | isDirectory
  | nameTooLong
  | invalidText
  | other (message : String)
deriving DecidableEq, Repr

namespace FileError

def message : FileError → String
  | .notFound => "No such file or directory (os error 2)"
  | .accessDenied => "Permission denied (os error 13)"
  | .notDirectory => "Not a directory (os error 20)"
  | .isDirectory => "Is a directory (os error 21)"
  | .nameTooLong => "File name too long (os error 36)"
  | .invalidText => "stream did not contain valid UTF-8"
  | .other message => message

/-- The error with a number of the operating system. -/
def ofNumber? : Nat → Option FileError
  | 2 => some .notFound
  | 13 => some .accessDenied
  | 20 => some .notDirectory
  | 21 => some .isDirectory
  | 36 => some .nameTooLong
  | _ => none

end FileError
end Certified
