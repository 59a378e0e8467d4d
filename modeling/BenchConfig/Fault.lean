/-
BenchConfig.Fault — why reading or writing failed.

One type holds every cause. Each cause has a message, and belongs to a
class for those who only want to know what sort of failure it was.
Messages of the operating system carry its error number.
-/
import BenchConfig.Text.Basic

namespace BenchConfig

/-- The cause of a failure. -/
inductive Fault where
  /-- A name on the way does not exist. -/
  | notFound
  /-- The name is taken already. -/
  | alreadyExists
  /-- Something other than a directory stands where one is needed. -/
  | notDirectory
  /-- A directory stands where a file is needed. -/
  | isDirectory
  /-- The device takes no more. -/
  | noSpace
  /-- Nobody reads the other end. -/
  | brokenPipe
  /-- A name, or the path as a whole, is too long. -/
  | nameTooLong
  /-- Too many links had to be followed. -/
  | linkLoop
  /-- A path contains the character that would end it. -/
  | nulInPath
  /-- The content of something that is not a plain file was asked for. -/
  | notRegular
  /-- A sink refused an octet because it is full. -/
  | sinkFull
  /-- A sink took nothing of what it was given. -/
  | sinkStalled
  /-- A sink could not deliver what it holds. -/
  | flushFailed
  deriving DecidableEq, Repr

namespace Fault

/-- The class of a fault. -/
def kind : Fault → Text
  | .notFound => "NotFound".toList
  | .alreadyExists => "AlreadyExists".toList
  | .notDirectory => "NotADirectory".toList
  | .isDirectory => "IsADirectory".toList
  | .noSpace => "StorageFull".toList
  | .brokenPipe => "BrokenPipe".toList
  | .nameTooLong => "InvalidFilename".toList
  | .linkLoop => "FilesystemLoop".toList
  | .nulInPath => "InvalidInput".toList
  | .sinkStalled => "WriteZero".toList
  | .notRegular | .sinkFull | .flushFailed => "Other".toList

/-- The message of a fault, on one line. -/
def message : Fault → Text
  | .notFound => "No such file or directory (os error 2)".toList
  | .alreadyExists => "File exists (os error 17)".toList
  | .notDirectory => "Not a directory (os error 20)".toList
  | .isDirectory => "Is a directory (os error 21)".toList
  | .noSpace => "No space left on device (os error 28)".toList
  | .brokenPipe => "Broken pipe (os error 32)".toList
  | .nameTooLong => "File name too long (os error 36)".toList
  | .linkLoop => "Too many levels of symbolic links (os error 40)".toList
  | .nulInPath => "file name contained an unexpected NUL byte".toList
  | .notRegular => "not a regular file".toList
  | .sinkFull => "writer is full".toList
  | .sinkStalled => "failed to write whole buffer".toList
  | .flushFailed => "flush failed".toList

/-- No message breaks its line. -/
theorem newline_notMem_message (f : Fault) : '\n' ∉ f.message := by
  cases f <;> decide

end Fault

end BenchConfig
