set_option autoImplicit false

namespace VersionAlignment

inductive DiskError
  | notFound
  | notDirectory
  | isDirectory
  | notText
  | nameTooLong
  | nullCharacter
  | other (message : String)
  deriving DecidableEq, Repr

def DiskError.message : DiskError → String
  | .notFound => "No such file or directory (os error 2)"
  | .notDirectory => "Not a directory (os error 20)"
  | .isDirectory => "Is a directory (os error 21)"
  | .notText => "stream did not contain valid UTF-8"
  | .nameTooLong => "File name too long (os error 36)"
  | .nullCharacter => "file name contained an unexpected NUL byte"
  | .other message => message

end VersionAlignment
