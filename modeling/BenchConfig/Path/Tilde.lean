/-
BenchConfig.Path.Tilde — a tilde at the start of a path stands for the
home directory.

Only a piece that is exactly `~` is understood. `~user` is an ordinary
name, and so is a tilde further on. What follows the tilde is kept as it
is written, except that idle pieces around it (`~//etc`, `~/./`) go:
with them the rest could look absolute and would replace the home
directory instead of continuing it.
-/
import BenchConfig.Path.Basic

namespace BenchConfig.Path

open PathChar (slash)

/-- The pieces without the idle ones at both ends. -/
def trimIdle {α : Type} [DecidableEq α] [PathChar α] (ps : List (List α)) :
    List (List α) :=
  ((ps.dropWhile fun q => IsIdle q).reverse.dropWhile fun q => IsIdle q).reverse

/-- The piece that stands for the home directory. -/
def tilde : Text := ['~']

/-- What follows an initial tilde piece, if the path begins with one. -/
def afterTilde? (p : Path Char) : Option (Path Char) :=
  match p.pieces with
  | [] => none
  | first :: rest => if first = tilde then some (ofPieces (trimIdle rest)) else none

/-- The path with `home` in place of an initial tilde piece. Without a
home directory every path stays as it is. -/
def expandTilde (home : Option (Path Char)) (p : Path Char) : Path Char :=
  match home, p.afterTilde? with
  | some h, some rest => if rest = [] then h else h.join rest
  | _, _ => p

@[simp] theorem expandTilde_none (p : Path Char) : expandTilde none p = p := rfl

theorem expandTilde_of_afterTilde?_eq_none {p : Path Char} (h : p.afterTilde? = none)
    (home : Option (Path Char)) : expandTilde home p = p := by
  cases home <;> simp [expandTilde, h]

end BenchConfig.Path
