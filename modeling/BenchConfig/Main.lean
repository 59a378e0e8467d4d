/-
BenchConfig.Main — the program.

The program writes the configuration of the bench into the current
directory and shows it on standard output. Its arguments have no
meaning. Here is only what touches the machine: the current directory,
the environment, the file and the two output streams. What is written,
the order of the steps and what is said about failures come from the
library.
-/
import BenchConfig.Run

namespace BenchConfig.Program

/-- The directory of plugins that the program is built with. -/
def plugins : Path Char := "/usr/local/share/riscof/plugins".toList

/-- The message of the operating system with the number of its error. -/
def numbered (code : UInt32) (details : String) : Text :=
  (details ++ " (os error " ++ toString code ++ ")").toList

/-- The message of a failure that the machine reports. -/
def cause (e : IO.Error) : Text :=
  match e with
  | .noFileOrDirectory _ code details | .alreadyExists _ code details
  | .inappropriateType _ code details | .permissionDenied _ code details
  | .resourceExhausted _ code details | .invalidArgument _ code details
  | .noSuchThing _ code details | .resourceVanished code details
  | .resourceBusy code details | .unsupportedOperation code details
  | .hardwareFault code details | .otherError code details => numbered code details
  | _ => e.toString.toList

/-- An action whose failure is a line for standard error. -/
def attempt {α : Type} (headline : Text) (action : IO α) : ExceptT Text IO α :=
  ExceptT.mk do
    match ← action.toBaseIO with
    | .ok a => return .ok a
    | .error e => return .error (Run.errorLine headline (cause e))

/-- Reads the current directory. -/
def directory : ExceptT Text IO (Path UInt8) := do
  let cwd ← attempt Run.directoryHeadline IO.currentDir
  return Utf8.encode cwd.toString.toList

/-- Writes the configuration into a working directory. -/
def publication (workingDir : Path UInt8) : ExceptT Text IO Bench := do
  let home := (← IO.getEnv "HOME").map fun value => value.toList
  let bench := Bench.forWorkingDir home plugins workingDir
  let file := configPath workingDir
  attempt (writeHeadline file)
    (IO.FS.writeFile (String.ofList (Utf8.decodeLossy file)) (String.ofList bench.text))
  return bench

/-- Shows the configuration of a bench on standard output. -/
def presentation (bench : Bench) : ExceptT Text IO Unit :=
  attempt Run.stdoutHeadline do
    let stdout ← IO.getStdout
    stdout.putStr (String.ofList (Frame.wrap bench.text))
    stdout.flush

/-- One run, with its exit code. -/
def run : IO UInt32 := do
  match ← (Run.inOrder directory publication presentation).run with
  | .ok () => return 0
  | .error line =>
    IO.eprint (String.ofList line)
    return 1

end BenchConfig.Program

/-- Runs the program. -/
def main (_ : List String) : IO UInt32 :=
  BenchConfig.Program.run
