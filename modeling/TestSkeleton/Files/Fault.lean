/-!
# File faults

What can go wrong with a file, as the system reports it: a kind that a
program can act on, and a text for the reader.
-/

namespace TestSkeleton.Files

/-- The kinds of fault that are told apart. -/
inductive FaultKind where
  | notFound
  | permissionDenied
  | alreadyExists
  | invalidData
  | isDirectory
  | notDirectory
  | noSpace
  | invalidName
  | invalidInput
  | busy
  | other
deriving DecidableEq, Inhabited, Repr

/-- The words for a kind of fault. -/
def FaultKind.description : FaultKind → String
  | .notFound => "entity not found"
  | .permissionDenied => "permission denied"
  | .alreadyExists => "entity already exists"
  | .invalidData => "invalid data"
  | .isDirectory => "is a directory"
  | .notDirectory => "not a directory"
  | .noSpace => "no storage space"
  | .invalidName => "invalid filename"
  | .invalidInput => "invalid input parameter"
  | .busy => "resource busy"
  | .other => "other error"

/-- One report of the system. -/
structure Fault where
  kind : FaultKind
  text : String
deriving DecidableEq, Inhabited, Repr

namespace Fault

/-- The kind and the text, as shown below a message. -/
def description (fault : Fault) : String :=
  fault.kind.description ++ ": " ++ fault.text

/-- Nothing has the name. -/
def missing : Fault := ⟨.notFound, "No such file or directory (os error 2)"⟩

/-- The name is taken. -/
def taken : Fault := ⟨.alreadyExists, "File exists (os error 17)"⟩

/-- A step leads through something that is not a directory. -/
def throughFile : Fault := ⟨.notDirectory, "Not a directory (os error 20)"⟩

/-- A file is needed and a directory has the name. -/
def directory : Fault := ⟨.isDirectory, "Is a directory (os error 21)"⟩

/-- A step or the whole path is longer than the system allows. -/
def tooLong : Fault := ⟨.invalidName, "File name too long (os error 36)"⟩

/-- The name cannot be given to another file. -/
def inUse : Fault := ⟨.busy, "Device or resource busy (os error 16)"⟩

/-- The bytes of a file are not UTF-8. -/
def notText : Fault := ⟨.invalidData, "stream did not contain valid UTF-8"⟩

/-- No path holds a NUL character. -/
def holdsNul : Fault := ⟨.invalidInput, "file name contained an unexpected NUL byte"⟩

/-- The empty path names no place. -/
def emptyPath : Fault := ⟨.invalidInput, "cannot make an empty path absolute"⟩

end Fault

end TestSkeleton.Files
