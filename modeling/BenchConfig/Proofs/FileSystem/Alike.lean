/-
BenchConfig.Proofs.FileSystem.Alike — file systems that nobody can tell
apart.

A file system is kept as a list of nodes, and different lists can have
the same view. Everything that looks at a file system looks at the view:
listings (`names_eq`), walks (`land_congr`), and with them reading and
listing by path. So one view is enough for `Alike` (`alike_of_get?`).

Of two nodes that were put at one location only the later one can be
seen (`Alike.insert_insert`).
-/
import Mathlib.Data.List.Sort
import BenchConfig.FileSystem.Operations

namespace BenchConfig.FileSystem

/-! ## 1. Listings -/

/-- A listing depends on where something is, and not on what it is. -/
theorem names_eq {a b : FileSystem} {d : Location}
    (h : ∀ n, (a.get? (d ++ [n])).isSome = (b.get? (d ++ [n])).isSome) :
    a.names d = b.names d := by
  refine (names_sorted a d).eq_of_mem_iff (names_sorted b d) fun n => ?_
  rw [mem_names, mem_names, h n]

/-! ## 2. Walks -/

section

variable {a b : FileSystem} (h : ∀ l, a.get? l = b.get? l)

include h

theorem lookup?_congr (d : Location) (n : Name) : a.lookup? d n = b.lookup? d n := by
  rw [lookup?, lookup?, h]

theorem isDirectory_congr (d : Location) : a.IsDirectory d ↔ b.IsDirectory d := by
  rw [IsDirectory, IsDirectory, h]

theorem walkPieces_congr (reach : Reach)
    (follow : Location → List (List UInt8) → Except Fault Landing) (ps : List (List UInt8)) :
    ∀ d, a.walkPieces reach follow d ps = b.walkPieces reach follow d ps := by
  induction ps with
  | nil => exact fun d => rfl
  | cons q ps ih =>
    intro d
    simp only [walkPieces, lookup?_congr h, ih]

theorem walk_congr (reach : Reach) (k : Nat) : a.walk reach k = b.walk reach k := by
  induction k with
  | zero =>
    funext d ps
    exact walkPieces_congr h reach _ ps d
  | succ k ih =>
    funext d ps
    rw [walk, walk, ih]
    exact walkPieces_congr h reach _ ps d

theorem land_congr (reach : Reach) (cwd : Location) (p : Path UInt8) :
    a.land reach cwd p = b.land reach cwd p := by
  simp only [land, isDirectory_congr h, walk_congr h]

end

/-! ## 3. Alike -/

/-- No node, no read and no listing tells the two apart. -/
structure Alike (a b : FileSystem) : Prop where
  get? : ∀ l, a.get? l = b.get? l
  read : ∀ cwd p, a.read cwd p = b.read cwd p
  list : ∀ cwd p, a.list cwd p = b.list cwd p

theorem alike_of_get? {a b : FileSystem} (h : ∀ l, a.get? l = b.get? l) : Alike a b where
  get? := h
  read cwd p := by simp only [read, land_congr h, h]
  list cwd p := by
    have hnames : ∀ d, a.names d = b.names d := fun d => names_eq fun n => by rw [h]
    simp only [list, land_congr h, h, hnames]

namespace Alike

variable {a b c : FileSystem}

theorem refl (a : FileSystem) : Alike a a :=
  alike_of_get? fun _ => rfl

theorem trans (h : Alike a b) (h' : Alike b c) : Alike a c :=
  alike_of_get? fun l => (h.get? l).trans (h'.get? l)

theorem insert_insert (a : FileSystem) {l : Location} (hl : l ≠ []) (node node' : Node) :
    Alike ((a.insert l node).insert l node') (a.insert l node') :=
  alike_of_get? fun l' => by
    rw [get?_insert _ hl, get?_insert _ hl, get?_insert _ hl]
    split <;> rfl

end Alike

end BenchConfig.FileSystem
