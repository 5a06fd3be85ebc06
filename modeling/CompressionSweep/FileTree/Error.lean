/-! Why an operation on files is refused. -/

namespace CompressionSweep

inductive FileError where
  | notFound
  | notADirectory
  | isADirectory
  | busy
  | nameTooLong
  | nulInPath
  | permissionDenied
  | notExecutableFormat
  | brokenPipe
  | argumentsTooLong
  | tooManyLinks
  deriving DecidableEq, Repr

namespace FileError

/-- The class of the error. -/
def kind : FileError → String
  | notFound => "NotFound"
  | notADirectory => "NotADirectory"
  | isADirectory => "IsADirectory"
  | busy => "ResourceBusy"
  | nameTooLong => "InvalidFilename"
  | nulInPath => "InvalidInput"
  | permissionDenied => "PermissionDenied"
  | notExecutableFormat => "Uncategorized"
  | brokenPipe => "BrokenPipe"
  | argumentsTooLong => "ArgumentListTooLong"
  | tooManyLinks => "FilesystemLoop"

/-- What is wrong, in words. -/
def reason : FileError → String
  | notFound => "No such file or directory"
  | notADirectory => "Not a directory"
  | isADirectory => "Is a directory"
  | busy => "Device or resource busy"
  | nameTooLong => "File name too long"
  | nulInPath => "file name contained an unexpected NUL byte"
  | permissionDenied => "Permission denied"
  | notExecutableFormat => "Exec format error"
  | brokenPipe => "Broken pipe"
  | argumentsTooLong => "Argument list too long"
  | tooManyLinks => "Too many levels of symbolic links"

/-- The number under which the system reports the error, if it is the system that does. -/
def number? : FileError → Option Nat
  | notFound => some 2
  | notADirectory => some 20
  | isADirectory => some 21
  | busy => some 16
  | nameTooLong => some 36
  | nulInPath => none
  | permissionDenied => some 13
  | notExecutableFormat => some 8
  | brokenPipe => some 32
  | argumentsTooLong => some 7
  | tooManyLinks => some 40

def message (e : FileError) : String :=
  match e.number? with
  | none => e.reason
  | some n => e.reason ++ " (os error " ++ toString n ++ ")"

end FileError

end CompressionSweep
