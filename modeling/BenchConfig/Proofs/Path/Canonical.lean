/-
BenchConfig.Proofs.Path.Canonical — the canonical path as a normal form
for what a path means.

The meaning of a path is where it leads from each directory (`resolve`).
The canonical path has the meaning of the path that it comes from
(`resolve_canonical`), and paths of one meaning have one canonical path
(`canonical_eq_of_resolve_eq`). Both go through the route: the canonical
path is the path of a proper route, so its own route is the same one.

All spellings of a path have one canonical path (`Same.canonical_eq`), so
among canonical paths no path has two (`eq_of_same_canonical`).
-/
import BenchConfig.Proofs.Path.Route

namespace BenchConfig.Path

variable {α : Type} [DecidableEq α] [PathChar α]

theorem ofPath_canonical (p : Path α) : Route.ofPath p.canonical = Route.ofPath p :=
  Route.ofPath_toPath (Route.isProper_ofPath p)

theorem components_canonical (p : Path α) : p.canonical.components = (Route.ofPath p).components :=
  Route.components_toPath (Route.isProper_ofPath p)

theorem resolve_canonical (cwd : List (List α)) (p : Path α) :
    resolve cwd p.canonical = resolve cwd p := by
  rw [Route.resolve_eq_reach, ofPath_canonical, ← Route.resolve_eq_reach]

theorem canonical_canonical (p : Path α) : p.canonical.canonical = p.canonical := by
  rw [canonical, ofPath_canonical, ← canonical]

/-- All spellings of a path have one canonical path, because a route
follows the components. -/
theorem Same.canonical_eq {p q : Path α} (h : p.Same q) : p.canonical = q.canonical := by
  rw [canonical, Route.ofPath, h, ← Route.ofPath, ← canonical]

/-- Not the other way round: a name that is left again is a component, and
so is a dot at the start. -/
example : ∀ p ∈ ["./a".toList, "b/../a".toList],
    ¬ Same p ['a'] ∧ canonical p = canonical ['a'] := by decide

/-- Among canonical paths there are no two spellings of one path. -/
theorem eq_of_same_canonical {p q : Path α} (h : p.canonical.Same q.canonical) :
    p.canonical = q.canonical := by
  have hcanonical := h.canonical_eq
  rwa [canonical_canonical, canonical_canonical] at hcanonical

theorem isAbsolute_canonical {p : Path α} : p.canonical.IsAbsolute ↔ p.IsAbsolute := by
  rw [isAbsolute_iff_components, components_canonical]
  by_cases h : p.IsAbsolute
  · obtain ⟨ns, hns⟩ := Route.ofPath_of_isAbsolute h
    simp [hns, Route.components, h]
  · obtain ⟨k, ns, hns⟩ := Route.ofPath_of_not_isAbsolute h
    simp [hns, Route.components_fromHere_head?, h]

theorem canonical_eq_of_resolve_eq {p q : Path α}
    (h : ∀ cwd, (∀ n ∈ cwd, IsName n) → resolve cwd p = resolve cwd q) :
    p.canonical = q.canonical := by
  have hroute : Route.ofPath p = Route.ofPath q := by
    refine Route.reach_injective fun cwd hcwd => ?_
    rw [← Route.resolve_eq_reach, ← Route.resolve_eq_reach]
    exact h cwd hcwd
  rw [canonical, canonical, hroute]

/-- **The canonical path stands for the meaning of a path**: it has the
same meaning, and it is the same text for two paths exactly when nobody
is led to two different places by them. Directories whose names are
names of entries decide that. -/
theorem canonical_sound_complete :
    (∀ (cwd : List (List α)) (p : Path α), resolve cwd p.canonical = resolve cwd p) ∧
    ∀ p q : Path α, p.canonical = q.canonical ↔
      ∀ cwd, (∀ n ∈ cwd, IsName n) → resolve cwd p = resolve cwd q := by
  refine ⟨resolve_canonical, fun p q => ⟨fun h cwd _ => ?_, canonical_eq_of_resolve_eq⟩⟩
  calc resolve cwd p = resolve cwd p.canonical := (resolve_canonical cwd p).symm
    _ = resolve cwd q.canonical := by rw [h]
    _ = resolve cwd q := resolve_canonical cwd q

/-- A name that is left again and a step up past the start. -/
example : canonical "a/../../b/./".toList = "../b".toList := by decide

end BenchConfig.Path
