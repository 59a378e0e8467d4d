/-
BenchConfig.FileSystem.Operations — reading, writing, listing, linking
and removing by path.

Every operation takes the directory `cwd` from which a relative path is
read. Those that change something give the changed file system back, and
a fault means that nothing has changed. There are two exceptions, which
always give a file system back. `makeDirectories` may have made some of
the directories when it meets a fault, and `writeOn` may have written a
part of the data.
-/
import BenchConfig.FileSystem.Walk

namespace BenchConfig.FileSystem

/-! ## 1. Looking -/

/-- The directory that a path leads to. -/
def directoryAt? (fs : FileSystem) (cwd : Location) (p : Path UInt8) : Option Location :=
  match fs.land .through cwd p with
  | .ok (.inside directory) => some directory
  | .ok (.at directory n _) =>
    if fs.IsDirectory (directory ++ [n]) then some (directory ++ [n]) else none
  | .error _ => none

/-- The content of the file that a path leads to. -/
def read (fs : FileSystem) (cwd : Location) (p : Path UInt8) : Except Fault Bytes :=
  match fs.land .through cwd p with
  | .error fault => .error fault
  | .ok (.inside _) => .error .isDirectory
  | .ok (.at directory n _) =>
    match fs.get? (directory ++ [n]) with
    | none => .error .notFound
    | some .directory => .error .isDirectory
    | some (.file content) => .ok content
    | some (.link _) => .error .linkLoop
    | some (.device _) => .error .notRegular

/-- The names in the directory that a path leads to. -/
def list (fs : FileSystem) (cwd : Location) (p : Path UInt8) : Except Fault (List Name) :=
  match fs.land .through cwd p with
  | .error fault => .error fault
  | .ok (.inside directory) => .ok (fs.names directory)
  | .ok (.at directory n _) =>
    match fs.get? (directory ++ [n]) with
    | none => .error .notFound
    | some .directory => .ok (fs.names (directory ++ [n]))
    | some _ => .error .notDirectory

/-! ## 2. Writing a file -/

/-- What the files lie on. It has room for some octets of a file, and for
the others it has a fault. Making a file and emptying one take no room. -/
structure Disk where
  room : Option Nat := none
  fault : Fault := .noSpace

namespace Disk

/-- A disk on which every write ends well. -/
def unlimited : Disk := {}

/-- There is room for all of the data. -/
def Takes (data : Bytes) : Disk → Prop
  | ⟨none, _⟩ => True
  | ⟨some room, _⟩ => data.length ≤ room

instance (data : Bytes) : (disk : Disk) → Decidable (disk.Takes data)
  | ⟨none, _⟩ => inferInstanceAs (Decidable True)
  | ⟨some room, _⟩ => inferInstanceAs (Decidable (data.length ≤ room))

/-- The part of the data for which there is room. -/
def keep (data : Bytes) : Disk → Bytes
  | ⟨none, _⟩ => data
  | ⟨some room, _⟩ => data.take room

end Disk

/-- What is open for writing. -/
inductive Handle where
  | file (location : Location)
  | device (device : Device)
  deriving DecidableEq, Repr

/-- What a write of the data comes to. -/
def Handle.outcome (disk : Disk) (data : Bytes) : Handle → Except Fault Unit
  | .file _ => if disk.Takes data then .ok () else .error disk.fault
  | .device d => if d.Takes data then .ok () else .error .noSpace

/-- What is opened at an entry. A file that is not there can be made if
the directory exists. -/
def entryHandle (fs : FileSystem) (directory : Location) (n : Name) : Except Fault Handle :=
  match fs.lookup? directory n with
  | .error fault => .error fault
  | .ok none =>
    if fs.IsDirectory directory then .ok (.file (directory ++ [n])) else .error .notFound
  | .ok (some (.file _)) => .ok (.file (directory ++ [n]))
  | .ok (some .directory) => .error .isDirectory
  | .ok (some (.link _)) => .error .linkLoop
  | .ok (some (.device device)) => .ok (.device device)

/-- What is opened by a path, also at the end of a link that leads
nowhere yet. A path that can only name a directory is refused. -/
def handle (fs : FileSystem) (cwd : Location) (p : Path UInt8) : Except Fault Handle :=
  match fs.land .fill cwd p with
  | .error fault => .error fault
  | .ok (.inside _) => .error .isDirectory
  | .ok (.at _ _ true) => .error .isDirectory
  | .ok (.at directory n false) => fs.entryHandle directory n

/-- The files after the data, as far as there is room for it, has become
the whole content of what is open. A device keeps nothing. -/
def pour (disk : Disk) (fs : FileSystem) (data : Bytes) : Handle → FileSystem
  | .file l => fs.insert l (.file (disk.keep data))
  | .device _ => fs

/-- Makes `data` the whole content of the file that a path leads to. The
file is made or emptied before the data comes, and if there is no room
for all of it then the file is left with a part. -/
def writeOn (disk : Disk) (fs : FileSystem) (cwd : Location) (p : Path UInt8) (data : Bytes) :
    Except Fault Unit × FileSystem :=
  match fs.handle cwd p with
  | .error fault => (.error fault, fs)
  | .ok h => (h.outcome disk data, fs.pour disk data h)

/-- The same on a disk that takes everything. There a fault means that
nothing has changed. -/
def write (fs : FileSystem) (cwd : Location) (p : Path UInt8) (data : Bytes) :
    Except Fault FileSystem :=
  match fs.writeOn .unlimited cwd p data with
  | (.error fault, _) => .error fault
  | (.ok (), fs') => .ok fs'

/-! ## 3. Entries -/

/-- Removes the entry that a path names, if it is not a directory. A
link is removed and not what it leads to. -/
def remove (fs : FileSystem) (cwd : Location) (p : Path UInt8) : Except Fault FileSystem :=
  match fs.land .entry cwd p with
  | .error fault => .error fault
  | .ok (.inside _) => .error .isDirectory
  | .ok (.at directory n slash) =>
    match fs.lookup? directory n with
    | .error fault => .error fault
    | .ok none => .error .notFound
    | .ok (some .directory) => .error .isDirectory
    | .ok (some _) =>
      if slash then .error .notDirectory else .ok (fs.erase (directory ++ [n]))

/-- Puts a new node at the entry that a path names. Nothing may be there
yet. Only a directory may have a separator behind its name. -/
def make (fs : FileSystem) (cwd : Location) (p : Path UInt8) (node : Node) :
    Except Fault FileSystem :=
  match fs.land .entry cwd p with
  | .error fault => .error fault
  | .ok (.inside _) => .error .alreadyExists
  | .ok (.at directory n slash) =>
    match fs.lookup? directory n with
    | .error fault => .error fault
    | .ok (some _) => .error .alreadyExists
    | .ok none =>
      if fs.IsDirectory directory ∧ (slash → node = .directory) then
        .ok (fs.insert (directory ++ [n]) node)
      else .error .notFound

/-- Makes a symbolic link to the path `target`, which need not lead
anywhere. -/
def makeLink (fs : FileSystem) (cwd : Location) (p target : Path UInt8) :
    Except Fault FileSystem :=
  if 0 ∈ p then .error .nulInPath
  else
    match checkPath target with
    | .error fault => .error fault
    | .ok () => fs.make cwd p (.link target)

/-! ## 4. Directories with those above them -/

/-- The path and the paths of the directories above it, as far as the
path names them, from the bottom up. -/
def ancestors (p : Path UInt8) : List (Path UInt8) :=
  let ps := p.pieces.filter fun piece => ¬ Path.IsIdle piece
  let above := (List.range ps.length).reverse.filter (0 < ·) |>.map fun k =>
    if p.IsAbsolute then PathChar.slash :: Path.ofPieces (ps.take k)
    else Path.ofPieces (ps.take k)
  if p = [] then [] else p :: above

/-- Makes the first path of the list a directory; where it does not
exist because a directory above is missing, those are made first. A
directory that is there already is as good as a new one. -/
def makeAll (fs : FileSystem) (cwd : Location) :
    List (Path UInt8) → Except Fault Unit × FileSystem
  | [] => (.ok (), fs)
  | p :: above =>
    match fs.make cwd p .directory with
    | .ok fs' => (.ok (), fs')
    | .error .notFound =>
      match makeAll fs cwd above with
      | (.error fault, fs') => (.error fault, fs')
      | (.ok (), fs') =>
        match fs'.make cwd p .directory with
        | .ok fs'' => (.ok (), fs'')
        | .error fault =>
          if (fs'.directoryAt? cwd p).isSome then (.ok (), fs') else (.error fault, fs')
    | .error fault =>
      if (fs.directoryAt? cwd p).isSome then (.ok (), fs) else (.error fault, fs)

/-- Makes a directory and all directories above it. -/
def makeDirectories (fs : FileSystem) (cwd : Location) (p : Path UInt8) :
    Except Fault Unit × FileSystem :=
  fs.makeAll cwd (ancestors p)

end BenchConfig.FileSystem
