/-! Why an operation on the disk failed, with the wording users see. -/
namespace LayerCache

inductive Fault where
  | notFound
  | denied
  | exists
  | notFolder
  | isFolder
  | nameTooLong
  | notEmpty
  | tooManyLinks
  | noDevice
  | noSpace
  | badDescriptor
  | notExecutable
  | invalid
  | busy
  | notPermitted
  /-- A path holds a zero character. -/
  | zeroInPath
  /-- A text file holds bytes that are no UTF-8. -/
  | notText
  /-- A path has no parent left to create. -/
  | noParent
  deriving DecidableEq, Repr

namespace Fault

def reason : Fault → String
  | notFound => "No such file or directory"
  | denied => "Permission denied"
  | .exists => "File exists"
  | notFolder => "Not a directory"
  | isFolder => "Is a directory"
  | nameTooLong => "File name too long"
  | notEmpty => "Directory not empty"
  | tooManyLinks => "Too many levels of symbolic links"
  | noDevice => "No such device or address"
  | noSpace => "No space left on device"
  | badDescriptor => "Bad file descriptor"
  | notExecutable => "Exec format error"
  | invalid => "Invalid argument"
  | busy => "Device or resource busy"
  | notPermitted => "Operation not permitted"
  | zeroInPath => "file name contained an unexpected NUL byte"
  | notText => "stream did not contain valid UTF-8"
  | noParent => "failed to create whole tree"

/-- The number of a fault that the system reports. -/
def code? : Fault → Option Nat
  | notPermitted => some 1
  | notFound => some 2
  | noDevice => some 6
  | notExecutable => some 8
  | badDescriptor => some 9
  | denied => some 13
  | busy => some 16
  | .exists => some 17
  | notFolder => some 20
  | isFolder => some 21
  | invalid => some 22
  | noSpace => some 28
  | nameTooLong => some 36
  | notEmpty => some 39
  | tooManyLinks => some 40
  | zeroInPath | notText | noParent => none

def message (f : Fault) : String :=
  match f.code? with
  | some n => f.reason ++ " (os error " ++ toString n ++ ")"
  | none => f.reason

end Fault
end LayerCache
