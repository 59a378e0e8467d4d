/-
BenchConfig.FileSystem.Walk — where a path leads in a file system.

A walk starts at the root or at the current directory and takes the
pieces of a path from left to right. A name on the way has to lead to a
directory. A link on the way is replaced by the pieces of its own path,
which are read from the directory of the link. At most `maxLinks` links
are followed, so every walk ends.

The last name is special, because the entry need not exist yet. A walk
therefore ends at a `Landing`, which is a directory and the name of an
entry, and what is there is left to the caller. Three things can be
wanted at the end (`Reach`):

* `through` wants what the path leads to. A link at the end is followed,
  and a separator behind the last name asks for a directory.
* `fill` wants the place for a file. A link at the end is followed,
  whether its target exists or not. A separator behind the last name is
  reported in the landing, and then nothing is followed.
* `entry` wants the entry itself, link or not.

The recursion is on the pieces, and for a followed link on the number of
links that may still be followed.
-/
import BenchConfig.FileSystem.Basic
import BenchConfig.Fault

namespace BenchConfig

/-- What is wanted at the end of a walk. -/
inductive Reach where
  | through
  | fill
  | entry
  deriving DecidableEq, Repr

/-- Where a walk ends. -/
inductive Landing where
  /-- In a directory, without the name of an entry. -/
  | inside (directory : Location)
  /-- At the entry `name` of a directory. `slash` says that a separator
  came behind the name. -/
  | at (directory : Location) (name : Name) (slash : Bool)
  deriving DecidableEq, Repr

namespace Reach

/-- Whether a name with the pieces `rest` behind it is the last name of
the path. Only separators can follow it, and for `through` not even
those: there a separator makes the name one on the way. -/
def EndsBefore (rest : List (List UInt8)) : Reach → Prop
  | .through => rest = []
  | .fill | .entry => ∀ piece ∈ rest, piece = []

instance (rest : List (List UInt8)) (reach : Reach) : Decidable (reach.EndsBefore rest) := by
  cases reach <;> unfold EndsBefore <;> infer_instance

/-- Whether a link under the last name is followed. -/
def Follows (rest : List (List UInt8)) (reach : Reach) : Prop :=
  reach ≠ .entry ∧ rest = []

instance (rest : List (List UInt8)) (reach : Reach) : Decidable (reach.Follows rest) :=
  inferInstanceAs (Decidable (_ ∧ _))

end Reach

namespace FileSystem

/-! ## 1. Limits -/

/-- The most links that one walk follows. -/
def maxLinks : Nat := 40

/-- The most octets of a name. -/
def maxName : Nat := 255

/-- The first length that a path may not have. -/
def pathLimit : Nat := 4096

/-- A path that the operating system takes at all. The octet 0 would end
the path, so it is looked for before anything else. -/
def checkPath (p : Path UInt8) : Except Fault Unit :=
  if 0 ∈ p then .error .nulInPath
  else if p = [] then .error .notFound
  else if pathLimit ≤ p.length then .error .nameTooLong
  else .ok ()

/-! ## 2. Walking -/

/-- Looks for the entry of a directory. -/
def lookup? (fs : FileSystem) (directory : Location) (n : Name) :
    Except Fault (Option Node) :=
  if maxName < n.length then .error .nameTooLong
  else .ok (fs.get? (directory ++ [n]))

/-- The directory where a path starts. -/
def origin (cwd : Location) (p : Path UInt8) : Location :=
  if p.IsAbsolute then [] else cwd

/-- Takes pieces from a directory on. `follow` goes on behind a link,
with the directory and the pieces that are then to be taken. -/
def walkPieces (fs : FileSystem) (reach : Reach)
    (follow : Location → List (List UInt8) → Except Fault Landing) :
    Location → List (List UInt8) → Except Fault Landing
  | directory, [] => .ok (.inside directory)
  | directory, piece :: rest =>
    if Path.IsIdle piece then walkPieces fs reach follow directory rest
    else if piece = Path.up then walkPieces fs reach follow directory.dropLast rest
    else if reach.EndsBefore rest then
      if reach.Follows rest then
        match fs.lookup? directory piece with
        | .error fault => .error fault
        | .ok (some (.link target)) => follow (origin directory target) (target.pieces ++ rest)
        | .ok _ => .ok (.at directory piece false)
      else .ok (.at directory piece (rest ≠ []))
    else
      match fs.lookup? directory piece with
      | .error fault => .error fault
      | .ok none => .error .notFound
      | .ok (some .directory) => walkPieces fs reach follow (directory ++ [piece]) rest
      | .ok (some (.link target)) => follow (origin directory target) (target.pieces ++ rest)
      | .ok (some _) => .error .notDirectory

/-- Takes pieces from a directory on and follows at most `links` links. -/
def walk (fs : FileSystem) (reach : Reach) :
    Nat → Location → List (List UInt8) → Except Fault Landing
  | 0 => walkPieces fs reach fun _ _ => .error .linkLoop
  | links + 1 => walkPieces fs reach (walk fs reach links)

/-- Where a path leads for someone who stands in `cwd`. From a directory
that has been removed no relative path leads anywhere, not even one that
goes up at once. -/
def land (fs : FileSystem) (reach : Reach) (cwd : Location) (p : Path UInt8) :
    Except Fault Landing :=
  match checkPath p with
  | .error fault => .error fault
  | .ok () =>
    if fs.IsDirectory (origin cwd p) then
      walk fs reach maxLinks (origin cwd p) p.pieces
    else .error .notFound

end FileSystem

end BenchConfig
