/-!
# Disk errors

Why a disk refuses to read, write or list something. Only `notFound` means more to the program than
a text to print.
-/

namespace SchemaGate

/-- Why a disk refuses something. -/
inductive DiskError where
  /-- There is nothing at the path. -/
  | notFound
  /-- A part of the path that must be a directory is none. -/
  | notADirectory
  /-- There is a directory where a file is wanted. -/
  | isADirectory
  /-- There is a file where a directory is wanted. -/
  | alreadyExists
  /-- The file's bytes are no UTF-8. -/
  | notText
  /-- A part of the path is longer than a name may be. -/
  | nameTooLong
  /-- A part of the path holds a character that no name has. -/
  | nulInName
  /-- The system gives another reason. -/
  | other (reason : String)
  deriving DecidableEq, Repr, Inhabited

def DiskError.message : DiskError → String
  | notFound => "No such file or directory (os error 2)"
  | notADirectory => "Not a directory (os error 20)"
  | isADirectory => "Is a directory (os error 21)"
  | alreadyExists => "File exists (os error 17)"
  | notText => "stream did not contain valid UTF-8"
  | nameTooLong => "File name too long (os error 36)"
  | nulInName => "file name contained an unexpected NUL byte"
  | other reason => reason

end SchemaGate
