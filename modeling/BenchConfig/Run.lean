/-
BenchConfig.Run — one run of the program.

A run takes three steps: it reads the current directory, publishes the
configuration of the bench there, and presents the bench on standard
output. The first step that fails ends the run, and a line on standard
error says why. What was done before remains.

The order is that of `inOrder`, whatever the steps are made of. Here they
change a `Machine`; those of the program itself touch the real one.
-/
import BenchConfig.Publish
import BenchConfig.Frame

namespace BenchConfig

namespace Run

/-- What a run finds. -/
structure Setting where
  /-- The directory of plugins that the program was built with. -/
  plugins : Path Char
  cwd : Location
  /-- What the environment names as the home directory. -/
  home : Option Bytes := none
  /-- Arguments of the command line; none has a meaning. -/
  arguments : List Bytes := []
  stdout : Sink := .unlimited
  /-- What the files lie on. -/
  disk : FileSystem.Disk := .unlimited
  files : FileSystem

/-- Why a run failed. -/
inductive Failure where
  /-- The current directory could not be read. -/
  | directory (fault : Fault)
  /-- The configuration could not be published. -/
  | publish (failure : WriteFailure)
  /-- Standard output did not take the bench. -/
  | stdout (fault : Fault)
  deriving DecidableEq, Repr

/-- What is said of a current directory that could not be read. -/
def directoryHeadline : Text := "failed to read working directory".toList

/-- What is said of a standard output that did not take the bench. -/
def stdoutHeadline : Text := "failed to write standard output".toList

/-- What failed. -/
def Failure.headline : Failure → Text
  | .directory _ => directoryHeadline
  | .publish failure => failure.headline
  | .stdout _ => stdoutHeadline

/-- The cause of a failure. -/
def Failure.fault : Failure → Fault
  | .directory fault | .publish ⟨_, fault⟩ | .stdout fault => fault

/-- The line on standard error for a failure and its cause. -/
def errorLine (headline cause : Text) : Text :=
  "Error: ".toList ++ headline ++ ": ".toList ++ cause ++ ['\n']

/-- What a run leaves behind. -/
structure Result where
  failure : Option Failure
  stdout : Bytes
  files : FileSystem

/-- The exit code: 0 for a run without failure. -/
def Result.exitCode (r : Result) : Nat :=
  if r.failure.isNone then 0 else 1

/-- What standard error shows. -/
def Result.stderr (r : Result) : Text :=
  match r.failure with
  | none => []
  | some failure => errorLine failure.headline failure.fault.message

/-- The absolute path of a directory, as long as it exists. -/
def currentPath (files : FileSystem) (cwd : Location) : Except Fault (Path UInt8) :=
  if files.IsDirectory cwd then .ok (Route.fromRoot cwd).toPath else .error .notFound

/-- The steps of a run in order: where the current directory comes from,
what publishes there, and what shows the bench that was published. -/
def inOrder {m : Type → Type} [Monad m] (directory : m (Path UInt8))
    (publication : Path UInt8 → m Bench) (presentation : Bench → m Unit) : m Unit := do
  let workingDir ← directory
  let bench ← publication workingDir
  presentation bench

/-- What the steps change. -/
structure Machine where
  stdout : Sink
  files : FileSystem

/-- A step. What it changes remains, also if it fails. -/
def Step (α : Type) : Type :=
  Machine → Except Failure α × Machine

namespace Step

instance : Monad Step where
  pure a machine := (.ok a, machine)
  bind step next machine :=
    match step machine with
    | (.error failure, machine') => (.error failure, machine')
    | (.ok a, machine') => next a machine'

/-- Reads the current directory. -/
def directory (s : Setting) : Step (Path UInt8) := fun machine =>
  ((currentPath machine.files s.cwd).mapError .directory, machine)

/-- Publishes into a working directory. -/
def publication (s : Setting) (workingDir : Path UInt8) : Step Bench := fun machine =>
  let p := publishOn s.disk (homeDirectory s.home) s.plugins s.cwd workingDir machine.files
  (p.outcome.mapError .publish, { machine with files := p.files })

/-- Presents a bench on standard output. -/
def presentation (bench : Bench) : Step Unit := fun machine =>
  let (outcome, stdout) := bench.present machine.stdout
  (outcome.mapError .stdout, { machine with stdout })

end Step

/-- What is left when the steps have come to an end. -/
def Result.ofOutcome : Except Failure Unit × Machine → Result
  | (.error failure, machine) => ⟨some failure, machine.stdout.held, machine.files⟩
  | (.ok (), machine) => ⟨none, machine.stdout.held, machine.files⟩

/-- One run. -/
def Setting.run (s : Setting) : Result :=
  let steps := inOrder (Step.directory s) (Step.publication s) Step.presentation
  .ofOutcome (steps ⟨s.stdout, s.files⟩)

end Run

end BenchConfig
