/-
BenchConfig.Proofs.Path.Tilde — what expanding the tilde does to the
components of a path.

The home directory takes the place of the first component and nothing
else changes (`components_expandTilde`). Two facts are behind it.

* Joining a path that is not absolute appends components
  (`components_join`). The path behind must not begin with a dot: a dot
  is a component at the start of a path only, so it would be lost.
* Trimming idle pieces loses no component (`filterMap_trimIdle`), and
  what is trimmed begins with a piece that is not idle. So the path
  behind the tilde is neither absolute nor does it begin with a dot.

Where the expanded path leads follows from its components alone
(`resolve_expandTilde`).
-/
import BenchConfig.Proofs.Path.Anchor

namespace BenchConfig.Path

open PathChar (slash)

/-! ## 1. Components of joined paths -/

section

variable {α : Type} [DecidableEq α] [PathChar α]

@[simp] theorem component?_nil : component? ([] : List α) = none :=
  component?_eq_none.mpr (Or.inl rfl)

@[simp] theorem components_nil : components ([] : Path α) = [] := by
  simp [components, here]

theorem components_cons_slash (q : Path α) :
    components (slash :: q) = .root :: q.pieces.filterMap component? := by
  simp [components, pieces_cons_slash]

/-- Only the first piece of a path has a meaning of its own. -/
theorem components_append_slash {p : Path α} (hp : p ≠ []) (q : Path α) :
    components (p ++ slash :: q) = p.components ++ q.pieces.filterMap component? := by
  have hhead : (p.pieces ++ q.pieces).head? = p.pieces.head? := by
    obtain ⟨first, rest, hp⟩ := List.exists_cons_of_ne_nil (pieces_ne_nil p)
    simp [hp]
  simp only [components, isAbsolute_append hp, pieces_append_slash, hhead, List.filterMap_append,
    List.append_assoc]

theorem components_of_not_isAbsolute {q : Path α} (hq : ¬ q.IsAbsolute)
    (hhere : q.pieces.head? ≠ some here) : q.components = q.pieces.filterMap component? := by
  simp [components, hq, hhere]

theorem components_join_of_ne_nil {p q : Path α} (hp : p ≠ []) (hq : ¬ q.IsAbsolute) :
    (p.join q).components = p.components ++ q.pieces.filterMap component? := by
  obtain ⟨r, hr, hpr⟩ := exists_opened_eq hp
  rw [join_of_not_isAbsolute hq, hr, List.append_assoc, List.singleton_append]
  rcases hpr with rfl | rfl
  · exact components_append_slash hp q
  · -- the separator that was there already adds no component
    by_cases hr : r = []
    · subst hr
      simp [components_cons_slash]
    · simp [components_append_slash hr]

theorem components_join {p q : Path α} (hq : ¬ q.IsAbsolute) (hhere : q.pieces.head? ≠ some here) :
    (p.join q).components = p.components ++ q.components := by
  rw [components_of_not_isAbsolute hq hhere]
  by_cases hp : p = []
  · subst hp
    rw [nil_join, components_nil, List.nil_append, components_of_not_isAbsolute hq hhere]
  · exact components_join_of_ne_nil hp hq

theorem isPrefix_opened (p : Path α) : p <+: p.opened := by
  unfold opened
  split
  · exact List.prefix_rfl
  · exact List.prefix_append p [slash]

/-! ## 2. Trimmed pieces -/

theorem filterMap_dropWhile_isIdle (ps : List (List α)) :
    (ps.dropWhile fun q => IsIdle q).filterMap component? = ps.filterMap component? := by
  induction ps with
  | nil => rfl
  | cons q ps ih =>
    by_cases hq : IsIdle q
    · rw [List.dropWhile_cons_of_pos (by simpa using hq), ih,
        List.filterMap_cons_none (component?_eq_none.mpr hq)]
    · rw [List.dropWhile_cons_of_neg (by simpa using hq)]

/-- Idle pieces mean nothing, so trimming them loses nothing. -/
theorem filterMap_trimIdle (ps : List (List α)) :
    (trimIdle ps).filterMap component? = ps.filterMap component? := by
  rw [trimIdle, List.filterMap_reverse, filterMap_dropWhile_isIdle, ← List.filterMap_reverse,
    List.reverse_reverse, filterMap_dropWhile_isIdle]

end

theorem pieces_ofPieces_trimIdle {ps : List Text} (h : ∀ q ∈ ps, slash ∉ q)
    (hnil : trimIdle ps ≠ []) : (ofPieces (trimIdle ps)).pieces = trimIdle ps :=
  pieces_ofPieces hnil fun q hq => h q (mem_of_mem_trimIdle hq)

theorem head?_pieces_ofPieces_trimIdle {ps : List Text} (h : ∀ q ∈ ps, slash ∉ q) :
    (ofPieces (trimIdle ps)).pieces.head? ≠ some here := by
  by_cases hnil : trimIdle ps = []
  · simp [hnil, ofPieces, here]
  · rw [pieces_ofPieces_trimIdle h hnil]
    intro hhead
    obtain ⟨qs, hqs⟩ := List.head?_eq_some_iff.mp hhead
    exact not_isIdle_of_trimIdle_eq_cons hqs (Or.inr rfl)

theorem components_ofPieces_trimIdle {ps : List Text} (h : ∀ q ∈ ps, slash ∉ q) :
    (ofPieces (trimIdle ps)).components = ps.filterMap component? := by
  rw [components_of_not_isAbsolute (not_isAbsolute_trimIdle h) (head?_pieces_ofPieces_trimIdle h),
    ← filterMap_trimIdle ps]
  by_cases hnil : trimIdle ps = []
  · simp [hnil, ofPieces]
  · rw [pieces_ofPieces_trimIdle h hnil]

/-! ## 3. The expanded path -/

theorem components_of_pieces_eq_tilde {p : Path Char} {ps : List Text}
    (hp : p.pieces = tilde :: ps) : p.components = .name tilde :: ps.filterMap component? := by
  have habs : ¬ p.IsAbsolute := by
    rw [isAbsolute_iff_pieces, hp]
    simp [tilde]
  have hhere : p.pieces.head? ≠ some here := by
    rw [hp]
    simp [tilde, here, PathChar.dot]
  rw [components_of_not_isAbsolute habs hhere, hp,
    List.filterMap_cons_some (component?_of_isName isName_tilde)]

/-- Behind the tilde the path goes on from the home directory. -/
theorem expandTilde_eq_join {p : Path Char} {ps : List Text} (hp : p.pieces = tilde :: ps)
    (h : Path Char) :
    expandTilde (some h) p
      = if ofPieces (trimIdle ps) = [] then h else h.join (ofPieces (trimIdle ps)) := by
  have hafter : p.afterTilde? = some (ofPieces (trimIdle ps)) :=
    afterTilde?_eq_some.mpr ⟨ps, hp, rfl⟩
  simp only [expandTilde, hafter]

/-- The home directory takes the place of the tilde. -/
theorem components_expandTilde {p : Path Char} {ps : List Text} (hp : p.pieces = tilde :: ps)
    (h : Path Char) :
    (expandTilde (some h) p).components = h.components ++ ps.filterMap component? := by
  have hslash := slash_notMem_of_pieces_eq_tilde hp
  rw [expandTilde_eq_join hp, ← components_ofPieces_trimIdle hslash]
  split
  · next hrest => rw [hrest, components_nil, List.append_nil]
  · exact components_join (not_isAbsolute_trimIdle hslash) (head?_pieces_ofPieces_trimIdle hslash)

theorem isPrefix_expandTilde {p : Path Char} {ps : List Text} (hp : p.pieces = tilde :: ps)
    (h : Path Char) : h <+: expandTilde (some h) p := by
  have hslash := slash_notMem_of_pieces_eq_tilde hp
  rw [expandTilde_eq_join hp]
  split
  · exact List.prefix_rfl
  · rw [join_of_not_isAbsolute (not_isAbsolute_trimIdle hslash)]
    exact (isPrefix_opened h).trans (List.prefix_append _ _)

/-- The pieces behind the tilde are taken from the home directory. -/
theorem resolve_expandTilde {p : Path Char} {ps : List Text} (hp : p.pieces = tilde :: ps)
    (h : Path Char) (cwd : List Text) :
    resolve cwd (expandTilde (some h) p) = ps.foldl travel (resolve cwd h) := by
  rw [Route.resolve_eq_reach, Route.ofPath, components_expandTilde hp, List.foldl_append,
    ← Route.ofPath, Route.reach_foldl_follow, ← Route.resolve_eq_reach]

/-- **The tilde is replaced and nothing else.** A path is left as it is
unless there is a home directory and the first component is a tilde. Then
the text begins with the home directory, and the components are those of
the home directory and those of the path behind the tilde. So no way of
writing what follows the tilde can make it replace the home directory. -/
theorem tilde_gives_way_to_home (home : Option (Path Char)) (p : Path Char) :
    (home = none ∨ p = [] ∨ p.components.head? ≠ some (.name tilde) → expandTilde home p = p) ∧
    ∀ h, home = some h → p.components.head? = some (.name tilde) →
      h <+: expandTilde home p ∧
      (expandTilde home p).components = h.components ++ p.components.tail := by
  constructor
  · rintro (rfl | rfl | hhead)
    · exact expandTilde_none p
    · exact expandTilde_of_afterTilde?_eq_none rfl home
    · exact expandTilde_of_afterTilde?_eq_none (afterTilde?_eq_none hhead) home
  · rintro h rfl hhead
    obtain ⟨ps, hps⟩ := exists_pieces_eq_tilde hhead
    refine ⟨isPrefix_expandTilde hps h, ?_⟩
    rw [components_expandTilde hps, components_of_pieces_eq_tilde hps, List.tail_cons]

/-- Only a first component that is exactly the tilde is replaced. -/
example : ∀ p ∈ ["~user/x".toList, "./~/x".toList, "/~".toList, []],
    expandTilde (some "/home/u".toList) p = p := by decide

/-- A home directory that is relative and not canonical, with separators
and dots around what follows the tilde and inside it. -/
theorem tilde_gives_way_to_home_noise :
    let h : Path Char := "./u/".toList
    let p : Path Char := "~//./a//./b/./".toList
    p.components.head? = some (.name tilde) ∧ expandTilde (some h) p = "./u/a//./b".toList ∧
      h <+: expandTilde (some h) p ∧
      (expandTilde (some h) p).components = h.components ++ p.components.tail := by
  intro h p
  have hhead : p.components.head? = some (.name tilde) := by decide
  have htext : expandTilde (some h) p = "./u/a//./b".toList := by decide
  exact ⟨hhead, htext, (tilde_gives_way_to_home (some h) p).2 h rfl hhead⟩

end BenchConfig.Path
