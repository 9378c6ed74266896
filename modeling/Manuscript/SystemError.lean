import Manuscript.Text.Decimal
/-!
# Errors of the file system

Why a file cannot be read, written or removed.
-/

namespace Manuscript

inductive SystemError where
  | notFound
  | notDirectory
  | isDirectory
  | alreadyExists
  | nameTooLong
  | nulInPath
  | other (description : String) (code : Nat)
  deriving DecidableEq, Repr, Inhabited

namespace SystemError

def numbered (description : String) (code : Nat) : String :=
  description ++ " (os error " ++ Text.showNat code ++ ")"

def message : SystemError → String
  | notFound => numbered "No such file or directory" 2
  | notDirectory => numbered "Not a directory" 20
  | isDirectory => numbered "Is a directory" 21
  | alreadyExists => numbered "File exists" 17
  | nameTooLong => numbered "File name too long" 36
  | nulInPath => "file name contained an unexpected NUL byte"
  | other description code => numbered description code

end SystemError

end Manuscript
