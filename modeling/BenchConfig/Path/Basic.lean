/-
BenchConfig.Path.Basic — paths as character sequences, and the names in
them.

A path is a text, or the bytes that the operating system takes. Both
follow one grammar, so the functions here are written over any type of
character that has a separator and a dot (`PathChar`).

* `pieces` is what stands between the separators.
* `components` is what the pieces mean: the root, an initial `.`, steps
  up and names. Empty pieces mean nothing, nor does a `.` that is not
  the first piece of a relative path.
* `join` puts one path behind another. An absolute path stays alone.
* `same` says that two paths have the same components. It is coarser
  than equality of the sequences: `a//b/` and `a/b` are the same.
-/
import BenchConfig.Text.Basic

namespace BenchConfig

/-- A type of characters in which paths can be written. -/
class PathChar (α : Type) where
  /-- The separator. -/
  slash : α
  /-- The character of the pieces `.` and `..`. -/
  dot : α
  slash_ne_dot : slash ≠ dot

instance : PathChar Char := ⟨'/', '.', by decide⟩

instance : PathChar UInt8 := ⟨47, 46, by decide⟩

/-- A path over characters of type `α`. -/
abbrev Path (α : Type) := List α

/-- What one piece of a path stands for. -/
inductive Component (α : Type) where
  /-- The root directory. -/
  | root
  /-- The directory where the path starts. -/
  | here
  /-- The directory above. -/
  | up
  /-- The entry of that name. -/
  | name (text : List α)
  deriving DecidableEq, Repr

namespace Path

open PathChar (slash dot)

variable {α : Type} [DecidableEq α] [PathChar α]

/-! ## 1. Pieces -/

/-- The pieces between the separators; `n` separators make `n + 1`
pieces. -/
def pieces (p : Path α) : List (List α) :=
  p.splitOn slash

/-- The path with the given pieces. -/
def ofPieces (ps : List (List α)) : Path α :=
  [slash].intercalate ps

/-- The piece for the directory itself. -/
def here : List α := [dot]

/-- The piece for the directory above. -/
def up : List α := [dot, dot]

/-- A piece that takes no step: nothing, or a single dot. -/
def IsIdle (piece : List α) : Prop :=
  piece = [] ∨ piece = here

instance : DecidablePred (IsIdle (α := α)) := fun _ =>
  inferInstanceAs (Decidable (_ ∨ _))

/-! ## 2. Components -/

/-- A path is absolute if it begins with the separator. -/
def IsAbsolute (p : Path α) : Prop :=
  p.head? = some slash

instance : DecidablePred (IsAbsolute (α := α)) := fun _ =>
  inferInstanceAs (Decidable (_ = _))

/-- The component of a piece that is not the first. -/
def component? (piece : List α) : Option (Component α) :=
  if IsIdle piece then none
  else if piece = up then some .up
  else some (.name piece)

/-- What the pieces of a path mean, from left to right. -/
def components (p : Path α) : List (Component α) :=
  let first : List (Component α) :=
    if IsAbsolute p then [.root]
    else if p.pieces.head? = some here then [.here]
    else []
  first ++ p.pieces.filterMap component?

/-- Paths with the same components lead to the same place from
everywhere. -/
def Same (p q : Path α) : Prop :=
  p.components = q.components

instance (p q : Path α) : Decidable (p.Same q) :=
  inferInstanceAs (Decidable (_ = _))

/-! ## 3. Joining -/

/-- The path with a separator at its end, unless it is empty or has
one. -/
def opened (p : Path α) : Path α :=
  if p = [] ∨ p.getLast? = some slash then p else p ++ [slash]

/-- The path `q` as seen from `p`: `q` itself if it is absolute, else
`q` behind `p` and a separator. Nothing is cleaned, so joining the empty
path leaves a separator at the end. -/
def join (p q : Path α) : Path α :=
  if q.IsAbsolute then q else p.opened ++ q

theorem join_of_isAbsolute {p q : Path α} (h : q.IsAbsolute) : p.join q = q :=
  if_pos h

@[simp] theorem nil_join (q : Path α) : join [] q = q := by
  unfold join
  split
  · rfl
  · simp [opened]

end Path

end BenchConfig
