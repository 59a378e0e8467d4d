/-
BenchConfig.Proofs.Path.Same — one path can stand for another that has the
same components.

Two spellings of one path differ in separators, in dots and in what is at
their ends, and joining looks at just these: whether the path in front is
empty or ends in a separator, and whether the path behind begins with one.
Nevertheless the components of a join depend on the components of its
operands and on nothing else (`components_join_eq_ite`), so the join of two
paths is the same path for all spellings of the two (`Same.join`).

What has to be read off the components is

* whether the path in front is empty, because then the other one stays as it
  is: only the empty path has no components (`components_eq_nil`);
* whether the path behind is absolute (`Same.isAbsolute_iff`);
* what is left of a path when it is put behind another one. The dot at its
  start is a component no longer and all the others stay
  (`filterMap_component?_pieces`).
-/
import BenchConfig.Proofs.Path.Tilde

namespace BenchConfig.Path

variable {α : Type} [DecidableEq α] [PathChar α]

/-! ## 1. What the components tell of a path -/

theorem components_eq_nil {p : Path α} : p.components = [] ↔ p = [] := by
  constructor
  · intro h
    have habs : ¬ p.IsAbsolute := by simp [isAbsolute_iff_components, h]
    obtain ⟨q, qs, hqs⟩ := List.exists_cons_of_ne_nil (pieces_ne_nil p)
    have hhere : q ≠ here := by
      rintro rfl
      simp [components, habs, hqs] at h
    rw [components_of_not_isAbsolute habs (by simpa [hqs] using hhere), hqs] at h
    -- the first piece means nothing and is not the dot, so it is empty
    have hidle : IsIdle q := component?_eq_none.mp (List.filterMap_eq_nil_iff.mp h q (by simp))
    have hq : q = [] := hidle.resolve_right hhere
    exact eq_nil_of_not_isAbsolute habs (by simp [hqs, hq])
  · rintro rfl
    exact components_nil

/-- Behind another path a relative path loses the dot at its start. -/
theorem filterMap_component?_pieces {q : Path α} (hq : ¬ q.IsAbsolute) :
    q.pieces.filterMap component? = q.components.filter (· ≠ .here) := by
  have hpieces : ∀ c ∈ q.pieces.filterMap component?, c ≠ .here := by
    intro c hc
    rcases eq_up_or_name_of_mem_filterMap hc with rfl | ⟨n, rfl⟩ <;> simp
  have hkept : (q.pieces.filterMap component?).filter (· ≠ .here)
      = q.pieces.filterMap component? :=
    List.filter_eq_self.mpr fun c hc => decide_eq_true (hpieces c hc)
  unfold components
  rw [if_neg hq, List.filter_append, hkept]
  split <;> simp

/-! ## 2. Joining -/

theorem components_join_eq_ite {q : Path α} (hq : ¬ q.IsAbsolute) (p : Path α) :
    (p.join q).components = if p.components = [] then q.components
      else p.components ++ q.components.filter (· ≠ .here) := by
  by_cases hp : p = []
  · rw [if_pos (components_eq_nil.mpr hp), hp, nil_join]
  · rw [if_neg fun h => hp (components_eq_nil.mp h), components_join_of_ne_nil hp hq,
      filterMap_component?_pieces hq]

namespace Same

variable {p p' q q' : Path α}

theorem refl (p : Path α) : p.Same p := rfl

theorem isAbsolute_iff (h : p.Same p') : p.IsAbsolute ↔ p'.IsAbsolute := by
  rw [isAbsolute_iff_components, h, ← isAbsolute_iff_components]

/-- **The join of two paths is one path, however the two are spelled.** -/
theorem join (hp : p.Same p') (hq : q.Same q') : (p.join q).Same (p'.join q') := by
  by_cases habs : q.IsAbsolute
  · rw [join_of_isAbsolute habs, join_of_isAbsolute (hq.isAbsolute_iff.mp habs)]
    exact hq
  · have habs' : ¬ q'.IsAbsolute := fun h => habs (hq.isAbsolute_iff.mpr h)
    rw [Same, components_join_eq_ite habs, components_join_eq_ite habs', hp, hq]

end Same

end BenchConfig.Path
