/-
BenchConfig.Session — a sequence of steps on one file system.

A session keeps what later steps can notice: the files, the home
directory that the environment names, and the benches that have been
published so far. Every step has an answer.
-/
import BenchConfig.Publish
import BenchConfig.Frame

namespace BenchConfig

namespace Session

/-- One step of a session. -/
inductive Step where
  | makeDirectories (path : Path UInt8)
  | write (path : Path UInt8) (data : Bytes)
  | makeLink (path target : Path UInt8)
  | remove (path : Path UInt8)
  | read (path : Path UInt8)
  | list (path : Path UInt8)
  /-- Changes what the environment names as the home directory. -/
  | setHome (value : Option Bytes)
  | publish (plugins : Path Char) (workingDir : Path UInt8)
  /-- Presents the bench published last. -/
  | present (sink : Sink)
  /-- Compares the two benches published last. -/
  | compare

/-- The answer to a step. -/
inductive Answer where
  | done
  | failed (fault : Fault)
  | content (data : Bytes)
  | names (ns : List Name)
  /-- `intact` says that the text of the bench is now read back from the
  working directory. -/
  | published (bench : Bench) (intact : Bool) (log : List Record)
  | unpublished (failure : WriteFailure) (log : List Record)
  | presented (outcome : Except Fault Unit) (written : Bytes)
  | compared (equal textEqual : Bool)
  /-- There are not enough published benches for the step. -/
  | nothing

/-- What a session keeps. -/
structure State where
  files : FileSystem
  cwd : Location
  home : Option Bytes := none
  /-- The published benches, the last one first. -/
  published : List Bench := []

/-- The state after a change of the files, if it was possible. -/
def State.change (s : State) : Except Fault FileSystem → Answer × State
  | .ok files => (.done, { s with files })
  | .error fault => (.failed fault, s)

/-- Publishes into a working directory and looks at what is there
afterwards. -/
def State.publish (s : State) (plugins : Path Char) (workingDir : Path UInt8) :
    Answer × State :=
  let p := BenchConfig.publish (homeDirectory s.home) plugins s.cwd workingDir s.files
  match p.outcome with
  | .error failure => (.unpublished failure p.log, { s with files := p.files })
  | .ok bench =>
    let intact :=
      match p.files.read s.cwd (configPath workingDir) with
      | .ok content => content == Utf8.encode bench.text
      | .error _ => false
    (.published bench intact p.log,
     { s with files := p.files, published := bench :: s.published })

/-- Takes one step. -/
def State.step (s : State) : Step → Answer × State
  | .makeDirectories path =>
    match s.files.makeDirectories s.cwd path with
    | (.ok (), files) => (.done, { s with files })
    | (.error fault, files) => (.failed fault, { s with files })
  | .write path data => s.change (s.files.write s.cwd path data)
  | .makeLink path target => s.change (s.files.makeLink s.cwd path target)
  | .remove path => s.change (s.files.remove s.cwd path)
  | .read path =>
    match s.files.read s.cwd path with
    | .ok data => (.content data, s)
    | .error fault => (.failed fault, s)
  | .list path =>
    match s.files.list s.cwd path with
    | .ok ns => (.names ns, s)
    | .error fault => (.failed fault, s)
  | .setHome value => (.done, { s with home := value })
  | .publish plugins workingDir => s.publish plugins workingDir
  | .present sink =>
    match s.published with
    | [] => (.nothing, s)
    | bench :: _ =>
      let (outcome, sink) := bench.present sink
      (.presented outcome sink.held, s)
  | .compare =>
    match s.published with
    | second :: first :: _ => (.compared (first == second) (first.text == second.text), s)
    | _ => (.nothing, s)

/-- Takes the steps in order: their answers, and the state at the end. -/
def State.run (s : State) : List Step → List Answer × State
  | [] => ([], s)
  | step :: rest =>
    let (answer, s') := s.step step
    let (answers, last) := s'.run rest
    (answer :: answers, last)

end Session

end BenchConfig
