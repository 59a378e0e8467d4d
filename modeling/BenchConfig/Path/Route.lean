/-
BenchConfig.Path.Route — where a path leads, read off its text alone,
and the canonical path of a route.

A route starts at the root or at the directory where the path starts. In
the second case it goes up some number of directories first. Then it
goes down through named entries. Every path has a route: a name behind
the way down is entered, and a step up takes the last name back. At the
root a step up stays there; where no name is left to take back, it is
one more step up at the start of the route.

Links are not looked at, so `a/link/..` has the route of `a`.

* `Route.ofPath` is the route of a path, `Route.toPath` the shortest
  path with that route, and `Path.canonical` one after the other.
* `Path.resolve` is the meaning of a path for someone who stands in a
  given directory. It reads the pieces and knows nothing of routes.
* `Path.IsCanonical` lists the shapes of canonical paths.
-/
import BenchConfig.Path.Basic

namespace BenchConfig

/-- A way through a tree of directories. -/
inductive Route (α : Type) where
  /-- From the root down through the names. -/
  | fromRoot (names : List (List α))
  /-- From the starting directory, up so many times, then down. -/
  | fromHere (ups : Nat) (names : List (List α))
  deriving DecidableEq, Repr

namespace Route

open PathChar (slash dot)

variable {α : Type} [DecidableEq α] [PathChar α]

/-! ## 1. Steps -/

/-- One directory up. -/
def rise : Route α → Route α
  | .fromRoot names => .fromRoot names.dropLast
  | .fromHere ups [] => .fromHere (ups + 1) []
  | .fromHere ups names => .fromHere ups names.dropLast

/-- Down into the entry of that name. -/
def enter (n : List α) : Route α → Route α
  | .fromRoot names => .fromRoot (names ++ [n])
  | .fromHere ups names => .fromHere ups (names ++ [n])

/-- The route that goes on with one component. -/
def follow (r : Route α) : Component α → Route α
  | .root => .fromRoot []
  | .here => r
  | .up => r.rise
  | .name n => r.enter n

/-- The route of a path. -/
def ofPath (p : Path α) : Route α :=
  p.components.foldl follow (.fromHere 0 [])

/-! ## 2. The path of a route -/

/-- The shortest path with the route. The route that goes nowhere is
written as a dot, because the empty path is no name of a directory. -/
def toPath : Route α → Path α
  | .fromRoot names => slash :: Path.ofPieces names
  | .fromHere 0 [] => Path.here
  | .fromHere ups names => Path.ofPieces (List.replicate ups Path.up ++ names)

/-- The directory that the route leads to from `cwd`, as the names on
the way down from the root. -/
def reach (cwd : List (List α)) : Route α → List (List α)
  | .fromRoot names => names
  | .fromHere ups names => cwd.take (cwd.length - ups) ++ names

end Route

namespace Path

open PathChar (slash dot)

variable {α : Type} [DecidableEq α] [PathChar α]

/-- The canonical path with the same route. -/
def canonical (p : Path α) : Path α :=
  (Route.ofPath p).toPath

/-! ## 3. Meaning -/

/-- One piece, for someone who stands in the directory `cwd`. -/
def travel (cwd : List (List α)) (piece : List α) : List (List α) :=
  if IsIdle piece then cwd
  else if piece = up then cwd.dropLast
  else cwd ++ [piece]

/-- The directory that a path names from `cwd`. An absolute path starts
at the root; the pieces are taken from left to right. -/
def resolve (cwd : List (List α)) (p : Path α) : List (List α) :=
  p.pieces.foldl travel (if p.IsAbsolute then [] else cwd)

/-! ## 4. Canonical shapes -/

/-- A piece that names an entry: not empty, neither of the two dot
pieces, and without a separator. -/
def IsName (n : List α) : Prop :=
  n ≠ [] ∧ n ≠ here ∧ n ≠ up ∧ slash ∉ n

instance : DecidablePred (IsName (α := α)) := fun _ =>
  inferInstanceAs (Decidable (_ ∧ _))

/-- The four shapes of a canonical path. -/
inductive IsCanonical : Path α → Prop where
  /-- A single dot. -/
  | here : IsCanonical here
  /-- The root. -/
  | root : IsCanonical [slash]
  /-- Names from the root. -/
  | down (names : List (List α)) (some_name : names ≠ [])
      (all_names : ∀ n ∈ names, IsName n) :
      IsCanonical (slash :: ofPieces names)
  /-- Steps up and then names, one piece at least. -/
  | across (ups : Nat) (names : List (List α)) (some_piece : ups ≠ 0 ∨ names ≠ [])
      (all_names : ∀ n ∈ names, IsName n) :
      IsCanonical (ofPieces (List.replicate ups up ++ names))

end Path

end BenchConfig
