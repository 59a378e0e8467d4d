/-
BenchConfig.Publish — writing the configuration of a bench into a
working directory.

The bench is the one whose plugins lie in a given directory of plugins.
A relative directory of plugins is read from the working directory. That
one is bytes and need not be a text; where it is read as a text it is
read lossily, but the file is written to the bytes themselves.

What happens is kept in a log: three records for whoever looks for a
mistake, and one more when the file has been written.
-/
import BenchConfig.Bench
import BenchConfig.Text.Utf8
import BenchConfig.FileSystem.Operations

namespace BenchConfig

/-! ## 1. The log -/

/-- How much a record matters. -/
inductive Level where
  | debug
  | info
  deriving DecidableEq, Repr

/-- The name of a level. -/
def Level.label : Level → Text
  | .debug => "DEBUG".toList
  | .info => "INFO".toList

/-- A line of the log. -/
structure Record where
  level : Level
  message : Text
  deriving DecidableEq, Repr

/-- The record as it is shown. -/
def Record.line (r : Record) : Text :=
  r.level.label ++ ' ' :: r.message

/-! ## 2. Failures -/

/-- What is said of a file that could not be written. -/
def writeHeadline (path : Path UInt8) : Text :=
  "failed to write ".toList ++ Utf8.decodeLossy path

/-- The file that could not be written, and why. -/
structure WriteFailure where
  path : Path UInt8
  fault : Fault
  deriving DecidableEq, Repr

namespace WriteFailure

/-- What failed. -/
def headline (e : WriteFailure) : Text :=
  writeHeadline e.path

/-- What failed and why. -/
def report (e : WriteFailure) : Text :=
  e.headline ++ ": ".toList ++ e.fault.message

theorem headline_eq (e : WriteFailure) :
    e.headline = "failed to write ".toList ++ Utf8.decodeLossy e.path := rfl

theorem report_eq (e : WriteFailure) :
    e.report = "failed to write ".toList ++ Utf8.decodeLossy e.path ++ ": ".toList
      ++ e.fault.message := rfl

end WriteFailure

/-! ## 3. Publishing -/

/-- The name of the file with the configuration. -/
def configName : Text := "config.ini".toList

/-- The file with the configuration in a working directory. -/
def configPath (workingDir : Path UInt8) : Path UInt8 :=
  workingDir.join (Utf8.encode configName)

/-- The home directory that the environment names. A value that is not a
text counts as none. -/
def homeDirectory (value : Option Bytes) : Option (Path Char) :=
  value.bind Utf8.decode?

/-- What publishing leaves behind. -/
structure Publication where
  outcome : Except WriteFailure Bench
  log : List Record
  files : FileSystem

/-- The bench for a working directory. -/
def Bench.forWorkingDir (home : Option (Path Char)) (plugins : Path Char)
    (workingDir : Path UInt8) : Bench :=
  .within home (Utf8.decodeLossy workingDir) plugins

/-- What is known before anything is written. -/
def openingRecords (plugins : Path Char) (b : Bench) : List Record :=
  [⟨.debug, "Plugin directory: ".toList ++ plugins⟩,
   ⟨.debug, "Reference plugin: ".toList ++ b.reference.directory⟩,
   ⟨.debug, "DUT plugin: ".toList ++ b.dut.directory⟩]

/-- What a publication comes to when its write is known. -/
def Publication.ofWrite (plugins : Path Char) (bench : Bench) (path : Path UInt8) :
    Except Fault Unit × FileSystem → Publication
  | (.error fault, files) => ⟨.error ⟨path, fault⟩, openingRecords plugins bench, files⟩
  | (.ok (), files) =>
    ⟨.ok bench,
     openingRecords plugins bench ++ [⟨.info, "Wrote ".toList ++ Utf8.decodeLossy path⟩],
     files⟩

/-- Writes the configuration into a working directory, which is read
from `cwd` if it is relative. Nothing is cleaned up if the write fails. -/
def publishOn (disk : FileSystem.Disk) (home : Option (Path Char)) (plugins : Path Char)
    (cwd : Location) (workingDir : Path UInt8) (files : FileSystem) : Publication :=
  let bench := Bench.forWorkingDir home plugins workingDir
  let path := configPath workingDir
  .ofWrite plugins bench path (files.writeOn disk cwd path (Utf8.encode bench.text))

/-- The same on a disk that takes everything. -/
def publish (home : Option (Path Char)) (plugins : Path Char) (cwd : Location)
    (workingDir : Path UInt8) (files : FileSystem) : Publication :=
  publishOn .unlimited home plugins cwd workingDir files

end BenchConfig
