/-
BenchConfig.Proofs.Path.Dependence — when the base and the home directory
matter for an anchored path.

They do not matter where they are not read: an absolute path replaces the
base, and a path that does not begin with a tilde is not expanded.

Everywhere else they do matter, whatever the path does afterwards. A path
goes up a fixed number of times, so from a directory that is deeper it
leads deeper than it does from the root (`exists_absolute_apart`). The
root and such a directory are two bases for a path that stays relative,
and two home directories for a path that begins with a tilde.
-/
import BenchConfig.Proofs.Path.Tilde

namespace BenchConfig.Path

/-! ## 1. Directories that stay apart -/

section

variable {α : Type} [DecidableEq α] [PathChar α]

/-- Pieces are a route from wherever they are taken. -/
theorem exists_foldl_travel_eq_reach (ps : List (List α)) :
    ∃ ups ns, ∀ cwd, ps.foldl travel cwd = (Route.fromHere ups ns).reach cwd := by
  obtain ⟨ups, ns, hroute⟩ := Route.foldl_follow_fromHere (ps.filterMap component?)
    (root_notMem_filterMap_component? ps) 0 []
  refine ⟨ups, ns, fun cwd => ?_⟩
  rw [← hroute, Route.reach_foldl_follow]
  simp [Route.reach]

/-- From a directory that is deeper than the pieces go up, they lead
deeper than from the root. -/
theorem exists_foldl_travel_depth_ne (ps : List (List α)) :
    ∃ k, ps.foldl travel (Route.depth k) ≠ ps.foldl travel (Route.depth 0) := by
  obtain ⟨ups, ns, hreach⟩ := exists_foldl_travel_eq_reach ps
  refine ⟨ups + 1, fun heq => ?_⟩
  rw [hreach, hreach] at heq
  have hlength := congrArg List.length heq
  rw [Route.reach_depth_fromHere, Route.reach_depth_fromHere] at hlength
  omega

theorem exists_isAbsolute_resolve_eq_depth (k : Nat) :
    ∃ a : Path α, a.IsAbsolute ∧ ∀ cwd, resolve cwd a = Route.depth k := by
  have hproper : (Route.fromRoot (Route.depth (α := α) k)).IsProper :=
    fun n hn => Route.isName_of_mem_depth hn
  refine ⟨(Route.fromRoot (Route.depth k)).toPath, isAbsolute_cons_slash _, fun cwd => ?_⟩
  rw [Route.resolve_eq_reach, Route.ofPath_toPath hproper, Route.reach]

/-- For any pieces there are two absolute paths from which they lead to
two places. -/
theorem exists_absolute_apart (ps : List (List α)) :
    ∃ a b : Path α, a.IsAbsolute ∧ b.IsAbsolute ∧
      ∀ cwd cwd', ps.foldl travel (resolve cwd a) ≠ ps.foldl travel (resolve cwd' b) := by
  obtain ⟨k, hk⟩ := exists_foldl_travel_depth_ne ps
  obtain ⟨a, ha, hdeep⟩ := exists_isAbsolute_resolve_eq_depth (α := α) k
  obtain ⟨b, hb, hroot⟩ := exists_isAbsolute_resolve_eq_depth (α := α) 0
  exact ⟨a, b, ha, hb, fun cwd cwd' => by rwa [hdeep, hroot]⟩

end

/-! ## 2. The base -/

theorem exists_bases_apart {home : Option (Path Char)} {p : Path Char}
    (hrel : ¬ (expandTilde home p).IsAbsolute) :
    ∃ a b : Path Char, a.IsAbsolute ∧ b.IsAbsolute ∧ anchor home a p ≠ anchor home b p := by
  obtain ⟨a, b, ha, hb, hapart⟩ := exists_absolute_apart (expandTilde home p).pieces
  refine ⟨a, b, ha, hb, fun heq => hapart [] [] ?_⟩
  rw [← resolve_of_not_isAbsolute hrel, ← resolve_of_not_isAbsolute hrel, ← resolve_anchor,
    ← resolve_anchor, heq]

/-- The base matters as long as the expanded path is relative. -/
theorem anchor_base_irrelevant_iff (home : Option (Path Char)) (p : Path Char) :
    (∀ a b : Path Char, a.IsAbsolute → b.IsAbsolute → anchor home a p = anchor home b p) ↔
      (expandTilde home p).IsAbsolute := by
  constructor
  · intro hsame
    refine Decidable.of_not_not fun hrel => ?_
    obtain ⟨a, b, ha, hb, hne⟩ := exists_bases_apart hrel
    exact hne (hsame a b ha hb)
  · intro habs a b _ _
    rw [anchor, anchor, join_of_isAbsolute habs, join_of_isAbsolute habs]

/-! ## 3. The home directory -/

theorem exists_homes_apart {p : Path Char} (hhead : p.components.head? = some (.name tilde))
    (base : Path Char) : ∃ a b : Path Char, anchor (some a) base p ≠ anchor (some b) base p := by
  obtain ⟨ps, hps⟩ := exists_pieces_eq_tilde hhead
  obtain ⟨a, b, -, -, hapart⟩ := exists_absolute_apart ps
  refine ⟨a, b, fun heq => hapart (resolve [] base) (resolve [] base) ?_⟩
  rw [← resolve_expandTilde hps, ← resolve_expandTilde hps, ← resolve_anchor, ← resolve_anchor, heq]

/-- The home directory matters for the paths that begin with a tilde. -/
theorem anchor_home_irrelevant_iff (base p : Path Char) :
    (∀ home home' : Option (Path Char), anchor home base p = anchor home' base p) ↔
      p.components.head? ≠ some (.name tilde) := by
  constructor
  · intro hsame hhead
    obtain ⟨a, b, hne⟩ := exists_homes_apart hhead base
    exact hne (hsame (some a) (some b))
  · intro hhead home home'
    have hafter := afterTilde?_eq_none hhead
    rw [anchor, anchor, expandTilde_of_afterTilde?_eq_none hafter,
      expandTilde_of_afterTilde?_eq_none hafter]

/-- A path may forget which of two home directories it comes from. It does
not forget how deep they are, unless it leaves both of them for good. -/
example :
    anchor (some "/a/b".toList) [] "~/..".toList = anchor (some "/a/c".toList) [] "~/..".toList ∧
      anchor (some "/a/b".toList) [] "~/..".toList ≠ anchor (some "/a".toList) [] "~/..".toList := by
  decide

/-- **An anchored path depends on what is around it exactly when it has
to**: on the base unless the expanded path is absolute, and on the home
directory if and only if the path begins with a tilde. -/
theorem anchor_depends_as_needed (p : Path Char) :
    (∀ home : Option (Path Char),
      (∀ a b : Path Char, a.IsAbsolute → b.IsAbsolute → anchor home a p = anchor home b p) ↔
        (expandTilde home p).IsAbsolute) ∧
    ∀ base : Path Char,
      (∀ home home' : Option (Path Char), anchor home base p = anchor home' base p) ↔
        p.components.head? ≠ some (.name tilde) :=
  ⟨fun home => anchor_base_irrelevant_iff home p, fun base => anchor_home_irrelevant_iff base p⟩

end BenchConfig.Path
