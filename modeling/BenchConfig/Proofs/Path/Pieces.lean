/-
BenchConfig.Proofs.Path.Pieces — what splitting at the separator, joining
pieces and joining paths do to each other.

Cutting a text at its separators and putting the pieces together again
gives the text back (`ofPieces_pieces`), and the other way round as long
as no piece contains a separator (`pieces_ofPieces`). A separator in the
middle of a text cuts its pieces in two (`pieces_append_slash`); that is
all that is ever needed about `join`, because behind `opened` there is
always a separator (`exists_opened_eq`).

A directory is resolved from the left, so `join` is composition
(`resolve_join`).
-/
import BenchConfig.Path.Route

namespace BenchConfig.Path

open PathChar (slash dot)

variable {α : Type} [PathChar α]

/-! ## 1. The separator in front -/

theorem isAbsolute_iff_exists {p : Path α} : p.IsAbsolute ↔ ∃ q, p = slash :: q := by
  unfold IsAbsolute
  cases p <;> simp

@[simp] theorem isAbsolute_cons_slash (q : Path α) : IsAbsolute (slash :: q) := rfl

@[simp] theorem not_isAbsolute_nil : ¬ IsAbsolute ([] : Path α) := by
  simp [IsAbsolute]

theorem isAbsolute_append {p : Path α} (hp : p ≠ []) (q : Path α) :
    IsAbsolute (p ++ q) ↔ p.IsAbsolute := by
  cases p with
  | nil => exact absurd rfl hp
  | cons c p => exact Iff.rfl

theorem ofPieces_cons_cons (q r : List α) (ps : List (List α)) :
    ofPieces (q :: r :: ps) = q ++ slash :: ofPieces (r :: ps) := by
  simp [ofPieces]

theorem not_isAbsolute_of_slash_notMem {q : List α} (h : slash ∉ q) : ¬ IsAbsolute q := by
  intro habs
  obtain ⟨r, rfl⟩ := isAbsolute_iff_exists.mp habs
  exact h List.mem_cons_self

theorem slash_notMem_up : slash ∉ up (α := α) := by
  simp [up, PathChar.slash_ne_dot]

/-- Pieces that begin with a piece that is not empty make a relative
path. -/
theorem not_isAbsolute_ofPieces {q : List α} (hne : q ≠ []) (hq : slash ∉ q)
    (ps : List (List α)) : ¬ IsAbsolute (ofPieces (q :: ps)) := by
  cases ps with
  | nil => simpa [ofPieces] using not_isAbsolute_of_slash_notMem hq
  | cons r ps =>
    rw [ofPieces_cons_cons, isAbsolute_append hne]
    exact not_isAbsolute_of_slash_notMem hq

variable [DecidableEq α]

/-! ## 2. Pieces -/

theorem pieces_ne_nil (p : Path α) : p.pieces ≠ [] :=
  List.splitOn_ne_nil slash p

@[simp] theorem pieces_nil : pieces ([] : Path α) = [[]] :=
  List.splitOn_nil slash

theorem pieces_append_slash (p q : Path α) :
    pieces (p ++ slash :: q) = p.pieces ++ q.pieces :=
  List.splitOn_append_cons_self p q

theorem pieces_cons_slash (q : Path α) : pieces (slash :: q) = [] :: q.pieces := by
  simpa using pieces_append_slash [] q

theorem pieces_of_slash_notMem {q : List α} (h : slash ∉ q) : pieces q = [q] :=
  List.splitOn_eq_singleton h

theorem ofPieces_pieces (p : Path α) : ofPieces p.pieces = p :=
  List.intercalate_splitOn slash

theorem pieces_ofPieces {ps : List (List α)} (hne : ps ≠ []) (h : ∀ q ∈ ps, slash ∉ q) :
    pieces (ofPieces ps) = ps :=
  List.splitOn_intercalate slash h hne

theorem slash_notMem_of_mem_pieces {p : Path α} : ∀ {q : List α}, q ∈ p.pieces → slash ∉ q := by
  induction p with
  | nil => simp
  | cons c p ih =>
    intro q hq
    obtain ⟨first, rest, hp⟩ := List.exists_cons_of_ne_nil (pieces_ne_nil p)
    have hfirst : slash ∉ first := ih (by simp [hp])
    have hrest : ∀ r ∈ rest, slash ∉ r := fun r hr => ih (by simp [hp, hr])
    by_cases hc : c = slash
    · subst hc
      rw [pieces_cons_slash, hp] at hq
      simp only [List.mem_cons] at hq
      rcases hq with rfl | rfl | hq
      · simp
      · exact hfirst
      · exact hrest q hq
    · have hpieces : pieces (c :: p) = (c :: first) :: rest := by
        rw [pieces] at hp
        simp [pieces, List.splitOn_cons_eq_if_modifyHead, hc, hp]
      rw [hpieces, List.mem_cons] at hq
      rcases hq with rfl | hq
      · simp [hfirst, Ne.symm hc]
      · exact hrest q hq

/-- The first piece of an absolute path is empty. The empty path is the
only other one of which this is true. -/
theorem isAbsolute_iff_pieces {p : Path α} :
    p.IsAbsolute ↔ p ≠ [] ∧ p.pieces.head? = some [] := by
  constructor
  · intro h
    obtain ⟨q, rfl⟩ := isAbsolute_iff_exists.mp h
    simp [pieces_cons_slash]
  · rintro ⟨hne, hhead⟩
    obtain ⟨qs, hqs⟩ := List.head?_eq_some_iff.mp hhead
    have hp : ofPieces ([] :: qs) = p := by rw [← hqs, ofPieces_pieces]
    cases qs with
    | nil => exact absurd hp.symm hne
    | cons r qs =>
      rw [← hp, ofPieces_cons_cons]
      exact isAbsolute_cons_slash _

theorem eq_nil_of_not_isAbsolute {p : Path α} (h : ¬ p.IsAbsolute)
    (hhead : p.pieces.head? = some []) : p = [] := by
  by_cases hp : p = []
  · exact hp
  · exact absurd (isAbsolute_iff_pieces.mpr ⟨hp, hhead⟩) h

/-! ## 3. Components -/

theorem component?_eq_some_up {q : List α} : component? q = some .up ↔ q = up := by
  unfold component?
  by_cases hidle : IsIdle q
  · have : q ≠ up := by
      rintro rfl
      rcases hidle with h | h <;> simp [up, here] at h
    simp [hidle, this]
  · by_cases hup : q = up
    · subst hup; simp [hidle]
    · simp [hidle, hup]

theorem component?_eq_none {q : List α} : component? q = none ↔ IsIdle q := by
  unfold component?
  split
  · simpa
  · next h => split <;> simpa

theorem component?_of_isName {n : List α} (h : IsName n) : component? n = some (.name n) := by
  obtain ⟨hnil, hhere, hup, -⟩ := h
  simp [component?, IsIdle, hnil, hhere, hup]

theorem isName_of_component? {q n : List α} (hq : slash ∉ q)
    (h : component? q = some (.name n)) : n = q ∧ IsName n := by
  unfold component? at h
  split at h
  · cases h
  · next hidle =>
    split at h
    · cases h
    · next hup =>
      cases h
      simp only [IsIdle, not_or] at hidle
      exact ⟨rfl, hidle.1, hidle.2, hup, hq⟩

/-- A piece means a step up or a name, wherever it stands. -/
theorem eq_up_or_name_of_mem_filterMap {ps : List (List α)} {c : Component α}
    (h : c ∈ ps.filterMap component?) : c = .up ∨ ∃ n, c = .name n := by
  obtain ⟨q, -, hq⟩ := List.mem_filterMap.mp h
  unfold component? at hq
  grind

/-- A piece never means the root. -/
theorem root_notMem_filterMap_component? (ps : List (List α)) :
    Component.root ∉ ps.filterMap component? := by
  intro h
  rcases eq_up_or_name_of_mem_filterMap h with hc | ⟨n, hc⟩ <;> cases hc

/-- Only an absolute path goes to the root. -/
theorem root_notMem_components {p : Path α} (h : ¬ p.IsAbsolute) :
    Component.root ∉ p.components := by
  unfold components
  have := root_notMem_filterMap_component? p.pieces
  grind

theorem isAbsolute_iff_components {p : Path α} :
    p.IsAbsolute ↔ p.components.head? = some .root := by
  unfold components
  by_cases habs : p.IsAbsolute
  · simp [habs]
  · by_cases hhere : p.pieces.head? = some here
    · simp [habs, hhere]
    · simp only [habs, hhere, if_false, List.nil_append, false_iff]
      intro h
      exact root_notMem_filterMap_component? p.pieces (List.mem_of_head? h)

/-! ## 4. Joining -/

/-- Behind `opened` there is a separator, and in front of it the path
with the same meaning as the one that was opened. -/
theorem exists_opened_eq {p : Path α} (hp : p ≠ []) :
    ∃ r, p.opened = r ++ [slash] ∧ (p = r ∨ p = r ++ [slash]) := by
  unfold opened
  by_cases hlast : p.getLast? = some slash
  · obtain ⟨r, rfl⟩ := List.getLast?_eq_some_iff.mp hlast
    exact ⟨r, by simp, Or.inr rfl⟩
  · exact ⟨p, by simp [hp, hlast], Or.inl rfl⟩

theorem join_of_not_isAbsolute {q : Path α} (h : ¬ q.IsAbsolute) (p : Path α) :
    p.join q = p.opened ++ q :=
  if_neg h

theorem opened_ne_nil {p : Path α} (hp : p ≠ []) : p.opened ≠ [] := by
  obtain ⟨r, hr, -⟩ := exists_opened_eq hp
  simp [hr]

theorem isAbsolute_opened (p : Path α) : p.opened.IsAbsolute ↔ p.IsAbsolute := by
  unfold opened
  split
  · exact Iff.rfl
  · next h =>
    simp only [not_or] at h
    exact isAbsolute_append h.1 [slash]

theorem isAbsolute_join {p q : Path α} : (p.join q).IsAbsolute ↔ p.IsAbsolute ∨ q.IsAbsolute := by
  by_cases hq : q.IsAbsolute
  · simp [join_of_isAbsolute hq, hq]
  · rw [join_of_not_isAbsolute hq]
    by_cases hp : p = []
    · simp [hp, opened, hq]
    · simp [isAbsolute_append (opened_ne_nil hp), isAbsolute_opened, hq]

/-! ## 5. Resolving -/

theorem travel_of_isIdle {q : List α} (h : IsIdle q) (cwd : List (List α)) :
    travel cwd q = cwd :=
  if_pos h

@[simp] theorem travel_nil (cwd : List (List α)) : travel cwd [] = cwd :=
  travel_of_isIdle (Or.inl rfl) cwd

@[simp] theorem resolve_nil (cwd : List (List α)) : resolve cwd [] = cwd := by
  simp [resolve]

theorem resolve_of_isAbsolute {p : Path α} (h : p.IsAbsolute) (cwd : List (List α)) :
    resolve cwd p = p.pieces.foldl travel [] := by
  simp [resolve, h]

theorem resolve_of_not_isAbsolute {p : Path α} (h : ¬ p.IsAbsolute) (cwd : List (List α)) :
    resolve cwd p = p.pieces.foldl travel cwd := by
  simp [resolve, h]

/-- What stands behind a separator is taken from where the text in front
of it leads. -/
theorem resolve_append_slash {p : Path α} (hp : p ≠ []) (q : Path α) (cwd : List (List α)) :
    resolve cwd (p ++ slash :: q) = q.pieces.foldl travel (resolve cwd p) := by
  simp only [resolve, isAbsolute_append hp, pieces_append_slash, List.foldl_append]

theorem resolve_join (cwd : List (List α)) (p q : Path α) :
    resolve cwd (p.join q) = resolve (resolve cwd p) q := by
  by_cases hq : q.IsAbsolute
  · rw [join_of_isAbsolute hq, resolve_of_isAbsolute hq, resolve_of_isAbsolute hq]
  · rw [join_of_not_isAbsolute hq, resolve_of_not_isAbsolute hq]
    by_cases hp : p = []
    · subst hp
      simp [opened, resolve_of_not_isAbsolute hq]
    · obtain ⟨r, hr, hpr⟩ := exists_opened_eq hp
      rw [hr, List.append_assoc, List.singleton_append]
      rcases hpr with rfl | rfl
      · exact resolve_append_slash hp q cwd
      · -- the separator that was there already adds an idle piece
        cases r with
        | nil => simp [resolve, pieces_cons_slash]
        | cons c r =>
          have hne : c :: r ≠ [] := List.cons_ne_nil c r
          rw [resolve_append_slash hne, resolve_append_slash hne]
          simp

end BenchConfig.Path
