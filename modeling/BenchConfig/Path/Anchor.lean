/-
BenchConfig.Path.Anchor — the canonical path of a path that is read from
a base directory.

The tilde is expanded first, so a home directory that is itself relative
is read from the base too. An absolute path ignores the base.
-/
import BenchConfig.Path.Route
import BenchConfig.Path.Tilde

namespace BenchConfig.Path

/-- The canonical path of `p` as read from `base`, with `home` for a
tilde. It is absolute whenever the base or the expanded path is. -/
def anchor (home : Option (Path Char)) (base p : Path Char) : Path Char :=
  (base.join (expandTilde home p)).canonical

end BenchConfig.Path
