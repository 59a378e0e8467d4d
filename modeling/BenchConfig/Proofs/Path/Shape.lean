/-
BenchConfig.Proofs.Path.Shape — the shapes of canonical paths.

The texts of the four shapes (`IsCanonical`) are exactly the texts of the
proper routes (`isCanonical_iff_exists_route`). Each direction gives one
half of what is wanted of the shapes.

* The route of a path is proper, so every canonical path has one of the
  shapes.
* A proper route is read off its own text, so a text of one of the shapes
  is its own canonical path (`canonical_eq_self_iff`).

So the shapes can be decided: a text has one of them if taking the
canonical path changes nothing.
-/
import BenchConfig.Proofs.Path.Buffer

namespace BenchConfig

open BenchConfig.Path (IsCanonical)

variable {α : Type} [PathChar α]

/-! ## 1. The texts of proper routes -/

namespace Route

/-- A route that goes somewhere is written as its pieces. -/
theorem toPath_fromHere {ups : Nat} {ns : List (List α)} (h : ups ≠ 0 ∨ ns ≠ []) :
    (fromHere ups ns).toPath = Path.ofPieces (List.replicate ups Path.up ++ ns) := by
  refine toPath_eq_buffer fun hnowhere => ?_
  simp only [fromHere.injEq] at hnowhere
  simp [hnowhere] at h

theorem isCanonical_toPath {r : Route α} (hr : r.IsProper) : IsCanonical r.toPath := by
  cases r with
  | fromRoot ns =>
    by_cases hns : ns = []
    · subst hns
      exact .root
    · exact .down ns hns hr
  | fromHere ups ns =>
    by_cases hpiece : ups ≠ 0 ∨ ns ≠ []
    · rw [toPath_fromHere hpiece]
      exact .across ups ns hpiece hr
    · obtain ⟨rfl, rfl⟩ : ups = 0 ∧ ns = [] := by simpa using hpiece
      exact .here

end Route

namespace Path

/-- The shapes are those of the texts of proper routes. -/
theorem isCanonical_iff_exists_route {p : Path α} :
    IsCanonical p ↔ ∃ r : Route α, r.IsProper ∧ r.toPath = p := by
  constructor
  · intro h
    cases h with
    | here => exact ⟨.fromHere 0 [], fun n hn => absurd hn List.not_mem_nil, rfl⟩
    | root => exact ⟨.fromRoot [], fun n hn => absurd hn List.not_mem_nil, rfl⟩
    | down names _ hnames => exact ⟨.fromRoot names, hnames, rfl⟩
    | across ups names hpiece hnames =>
      exact ⟨.fromHere ups names, hnames, Route.toPath_fromHere hpiece⟩
  · rintro ⟨r, hr, rfl⟩
    exact Route.isCanonical_toPath hr

/-! ## 2. The shapes and the canonical path -/

variable [DecidableEq α]

theorem isCanonical_canonical (p : Path α) : IsCanonical p.canonical :=
  Route.isCanonical_toPath (Route.isProper_ofPath p)

theorem canonical_eq_self_iff {p : Path α} : p.canonical = p ↔ IsCanonical p := by
  constructor
  · intro h
    exact h ▸ isCanonical_canonical p
  · intro h
    obtain ⟨r, hr, rfl⟩ := isCanonical_iff_exists_route.mp h
    rw [canonical, Route.ofPath_toPath hr]

instance : DecidablePred (IsCanonical (α := α)) := fun _ =>
  decidable_of_iff _ canonical_eq_self_iff

/-- **The canonical path is a normal form**: it has one of the canonical
shapes, it is absolute when the path is, and the paths that it leaves
alone are those that have one of the shapes already. -/
theorem canonical_is_normal_form (p : Path α) :
    IsCanonical p.canonical ∧ (p.canonical.IsAbsolute ↔ p.IsAbsolute) ∧
      (p.canonical = p ↔ IsCanonical p) :=
  ⟨isCanonical_canonical p, isAbsolute_canonical, canonical_eq_self_iff⟩

/-- A step up is only at the start of a relative path, and no separator
is at the end. -/
example : IsCanonical "../../a/b".toList ∧ ¬ IsCanonical "/../a".toList ∧
    ¬ IsCanonical "a/..".toList ∧ ¬ IsCanonical "a/".toList := by decide

end Path

end BenchConfig
