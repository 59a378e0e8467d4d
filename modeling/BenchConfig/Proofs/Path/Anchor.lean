/-
BenchConfig.Proofs.Path.Anchor — what anchoring does to the meaning of a
path.

Anchoring expands the tilde, puts the path behind the base and takes the
canonical path. Each stage is a fact of its own: expansion gives an
absolute path only for an absolute path or an absolute home directory
(`isAbsolute_expandTilde`), joining is composition of meanings, and the
canonical path keeps the meaning.

What follows the tilde can not replace the home directory. It is trimmed
to pieces that begin with a piece that is not idle, and such pieces make
a relative path (`not_isAbsolute_trimIdle`).
-/
import BenchConfig.Path.Anchor
import BenchConfig.Proofs.Path.Canonical

namespace BenchConfig.Path

open PathChar (slash)

/-! ## 1. The first component -/

section

variable {α : Type} [DecidableEq α] [PathChar α]

theorem head?_filterMap_component? {q : List α} {qs : List (List α)} (hq : ¬ IsIdle q) :
    ((q :: qs).filterMap component?).head? = component? q := by
  cases hc : component? q with
  | none => exact absurd (component?_eq_none.mp hc) hq
  | some c => simp [hc]

/-- The first component is a name if the first piece is that name, and
only then. -/
theorem head?_components_eq_name {p : Path α} {n : List α} (hn : IsName n) :
    p.components.head? = some (.name n) ↔ p.pieces.head? = some n := by
  obtain ⟨q, qs, hqs⟩ := List.exists_cons_of_ne_nil (pieces_ne_nil p)
  unfold components
  by_cases habs : p.IsAbsolute
  · have := (isAbsolute_iff_pieces.mp habs).2
    simp only [this, habs, if_true, List.singleton_append, List.head?_cons]
    simpa using Ne.symm hn.1
  · by_cases hhere : q = here
    · simp [habs, hqs, hhere, Ne.symm hn.2.1]
    · simp only [habs, hqs, List.head?_cons, Option.some.injEq, hhere, if_false,
        List.nil_append]
      by_cases hidle : IsIdle q
      · have hq : q = [] := hidle.resolve_right hhere
        have hp : p = [] := eq_nil_of_not_isAbsolute habs (by simp [hqs, hq])
        have hqs' : qs = [] := by simpa [hp, hq, eq_comm] using hqs
        simp [hq, hqs', component?, IsIdle, Ne.symm hn.1]
      · rw [head?_filterMap_component? hidle]
        have hslash : slash ∉ q := slash_notMem_of_mem_pieces (by rw [hqs]; exact List.mem_cons_self)
        constructor
        · exact fun h => (isName_of_component? hslash h).1.symm
        · rintro rfl
          exact component?_of_isName hn

end

/-! ## 2. The tilde -/

theorem isName_tilde : IsName tilde := by decide

theorem trimIdle_isPrefix (ps : List Text) : trimIdle ps <+: ps.dropWhile fun q => IsIdle q := by
  have := List.dropWhile_suffix (l := (ps.dropWhile fun q => decide (IsIdle q)).reverse)
    fun q => decide (IsIdle q)
  simpa [trimIdle] using List.reverse_prefix.mpr this

theorem not_isIdle_of_trimIdle_eq_cons {q : Text} {ps qs : List Text}
    (h : trimIdle ps = q :: qs) : ¬ IsIdle q := by
  have hprefix := trimIdle_isPrefix ps
  rw [h] at hprefix
  obtain ⟨rest, hrest⟩ := hprefix
  have := List.head?_dropWhile_not (fun q => decide (IsIdle q)) ps
  rw [← hrest] at this
  simpa using this

theorem mem_of_mem_trimIdle {q : Text} {ps : List Text} (h : q ∈ trimIdle ps) : q ∈ ps :=
  (List.dropWhile_suffix _).subset ((trimIdle_isPrefix ps).subset h)

/-- What is left of trimmed pieces does not begin with a separator. -/
theorem not_isAbsolute_trimIdle {ps : List Text} (h : ∀ q ∈ ps, slash ∉ q) :
    ¬ IsAbsolute (ofPieces (trimIdle ps)) := by
  cases htrim : trimIdle ps with
  | nil => exact not_isAbsolute_nil
  | cons q qs =>
    have hidle := not_isIdle_of_trimIdle_eq_cons htrim
    have hmem : q ∈ ps := mem_of_mem_trimIdle (htrim ▸ List.mem_cons_self)
    exact not_isAbsolute_ofPieces (fun hnil => hidle (Or.inl hnil)) (h q hmem) qs

theorem afterTilde?_eq_some {p rest : Path Char} :
    p.afterTilde? = some rest ↔
      ∃ ps, p.pieces = tilde :: ps ∧ rest = ofPieces (trimIdle ps) := by
  unfold afterTilde?
  split
  · next h => exact absurd h (pieces_ne_nil p)
  · next first ps h =>
    by_cases hfirst : first = tilde
    · simp [h, hfirst, eq_comm]
    · simp [h, hfirst]

theorem slash_notMem_of_pieces_eq_tilde {p : Path Char} {ps : List Text}
    (hp : p.pieces = tilde :: ps) : ∀ q ∈ ps, slash ∉ q := by
  intro q hq
  have hmem : q ∈ p.pieces := hp ▸ List.mem_cons_of_mem tilde hq
  exact slash_notMem_of_mem_pieces hmem

theorem not_isAbsolute_afterTilde {p rest : Path Char} (h : p.afterTilde? = some rest) :
    ¬ p.IsAbsolute ∧ ¬ rest.IsAbsolute := by
  obtain ⟨ps, hps, rfl⟩ := afterTilde?_eq_some.mp h
  constructor
  · intro habs
    have := (isAbsolute_iff_pieces.mp habs).2
    simp [hps, tilde] at this
  · exact not_isAbsolute_trimIdle (slash_notMem_of_pieces_eq_tilde hps)

theorem afterTilde?_eq_none {p : Path Char} (h : p.components.head? ≠ some (.name tilde)) :
    p.afterTilde? = none := by
  cases hafter : p.afterTilde? with
  | none => rfl
  | some rest =>
    obtain ⟨ps, hps, -⟩ := afterTilde?_eq_some.mp hafter
    exact absurd ((head?_components_eq_name isName_tilde).mpr (by rw [hps]; rfl)) h

theorem expandTilde_of_head?_ne {p : Path Char} (h : p.components.head? ≠ some (.name tilde))
    (home : Option (Path Char)) : expandTilde home p = p :=
  expandTilde_of_afterTilde?_eq_none (afterTilde?_eq_none h) home

theorem exists_pieces_eq_tilde {p : Path Char} (h : p.components.head? = some (.name tilde)) :
    ∃ ps, p.pieces = tilde :: ps :=
  List.head?_eq_some_iff.mp ((head?_components_eq_name isName_tilde).mp h)

theorem exists_afterTilde? {p : Path Char} (h : p.components.head? = some (.name tilde)) :
    ∃ rest, p.afterTilde? = some rest := by
  obtain ⟨ps, hps⟩ := exists_pieces_eq_tilde h
  exact ⟨_, afterTilde?_eq_some.mpr ⟨ps, hps, rfl⟩⟩

theorem isAbsolute_expandTilde_some {h p rest : Path Char} (hrest : p.afterTilde? = some rest) :
    (expandTilde (some h) p).IsAbsolute ↔ h.IsAbsolute := by
  simp only [expandTilde, hrest]
  split
  · exact Iff.rfl
  · simp [isAbsolute_join, (not_isAbsolute_afterTilde hrest).2]

theorem isAbsolute_expandTilde {home : Option (Path Char)} {p : Path Char} :
    (expandTilde home p).IsAbsolute ↔
      p.IsAbsolute ∨
        p.components.head? = some (.name tilde) ∧ ∃ h, home = some h ∧ h.IsAbsolute := by
  by_cases htilde : p.components.head? = some (.name tilde)
  · obtain ⟨rest, hrest⟩ := exists_afterTilde? htilde
    cases home with
    | none => simp
    | some h =>
      simp [isAbsolute_expandTilde_some hrest, (not_isAbsolute_afterTilde hrest).1, htilde]
  · simp [expandTilde_of_afterTilde?_eq_none (afterTilde?_eq_none htilde), htilde]

theorem expandTilde_of_isAbsolute {p : Path Char} (h : p.IsAbsolute)
    (home : Option (Path Char)) : expandTilde home p = p := by
  refine expandTilde_of_afterTilde?_eq_none ?_ home
  cases hafter : p.afterTilde? with
  | none => rfl
  | some rest => exact absurd h (not_isAbsolute_afterTilde hafter).1

/-! ## 3. Anchoring -/

theorem resolve_anchor (cwd : List Text) (home : Option (Path Char)) (base p : Path Char) :
    resolve cwd (anchor home base p) = resolve (resolve cwd base) (expandTilde home p) := by
  rw [anchor, resolve_canonical, resolve_join]

theorem isAbsolute_anchor {home : Option (Path Char)} {base p : Path Char} :
    (anchor home base p).IsAbsolute ↔ base.IsAbsolute ∨ (expandTilde home p).IsAbsolute := by
  rw [anchor, isAbsolute_canonical, isAbsolute_join]

/-- Where an absolute path leads depends on nothing around it. -/
theorem anchor_of_isAbsolute {p : Path Char} (h : p.IsAbsolute)
    (home : Option (Path Char)) (base : Path Char) : anchor home base p = p.canonical := by
  rw [anchor, expandTilde_of_isAbsolute h, join_of_isAbsolute h]

/-- **Anchoring keeps the meaning of a path**: it leads where the
expanded path leads for someone who stood in the base. It is absolute
when anything that it is made from makes it so, and then it is the same
text for every home directory and from every base. -/
theorem anchor_meaning (home : Option (Path Char)) (base p : Path Char) :
    (∀ cwd, resolve cwd (anchor home base p)
        = resolve (resolve cwd base) (expandTilde home p)) ∧
    ((anchor home base p).IsAbsolute ↔
      base.IsAbsolute ∨ p.IsAbsolute ∨
        p.components.head? = some (.name tilde) ∧ ∃ h, home = some h ∧ h.IsAbsolute) ∧
    ((anchor home base p).IsAbsolute → ∀ home' base',
      anchor home' base' (anchor home base p) = anchor home base p) := by
  refine ⟨fun cwd => resolve_anchor cwd home base p, ?_, fun habs home' base' => ?_⟩
  · rw [isAbsolute_anchor, isAbsolute_expandTilde]
  · rw [anchor_of_isAbsolute habs, anchor, canonical_canonical]

/-- A home directory that is absolute but not canonical, an empty base,
and noise around what follows the tilde. -/
theorem anchor_meaning_tilde :
    let r := anchor (some "/home/./u/".toList) [] "~//./a/../b/.".toList
    r.IsAbsolute ∧ r = "/home/u/b".toList ∧ anchor none "x".toList r = r :=
  ⟨by decide, by decide, (anchor_meaning _ _ _).2.2 (by decide) none _⟩

end BenchConfig.Path
