/-
BenchConfig.Proofs.Path.Lossy — paths of octets that are read as texts.

The operating system names directories by octets, and where such a path is
shown it is read lossily. Names may be changed by that and several of them
may become one. The shape of the path is not touched: it is made by
separators and dots, and these are characters of ASCII.

* The text has the same number of pieces, and each of them is the text of
  a piece of octets (`pieces_decodeLossy`).
* A piece becomes an idle piece or a step up only if it is one already, so
  the components of the text are the components of the octets with the
  texts of the names (`components_decodeLossy`).
* Joining the octets and joining the texts comes to the same text
  (`decodeLossy_join`). An unfinished character at the end of the first
  path does not take in the separator, nor does it hide that a separator is
  at the end already.
-/
import BenchConfig.Proofs.Path.Buffer
import BenchConfig.Proofs.Text.Lossy

namespace BenchConfig

open PathChar (slash dot)

/-- The same component, with the name replaced by what `f` makes of it. -/
def Component.map {α β : Type} (f : List α → List β) : Component α → Component β
  | .root => .root
  | .here => .here
  | .up => .up
  | .name n => .name (f n)

namespace Path

open Utf8 (decodeLossy)

/-! ## 1. Pieces -/

theorem decodeLossy_append_slash (p q : Path UInt8) :
    decodeLossy (p ++ slash :: q) = decodeLossy p ++ slash :: decodeLossy q :=
  Utf8.decodeLossy_append (b := slash) (by decide) p q

theorem slash_mem_decodeLossy {p : Path UInt8} : slash ∈ decodeLossy p ↔ slash ∈ p :=
  Utf8.ofNat_mem_decodeLossy (b := slash) (by decide)

theorem decodeLossy_ofPieces (ps : List Bytes) :
    decodeLossy (ofPieces ps) = ofPieces (ps.map decodeLossy) := by
  induction ps with
  | nil => rfl
  | cons q ps ih =>
    cases ps with
    | nil => simp [ofPieces]
    | cons r ps =>
      rw [List.map_cons] at ih
      rw [List.map_cons, List.map_cons, ofPieces_cons_cons, ofPieces_cons_cons,
        decodeLossy_append_slash, ih]

theorem pieces_decodeLossy (p : Path UInt8) :
    pieces (decodeLossy p) = p.pieces.map decodeLossy := by
  have hslash : ∀ q ∈ p.pieces.map decodeLossy, slash ∉ q := by
    intro q hq
    obtain ⟨r, hr, rfl⟩ := List.mem_map.mp hq
    exact fun hmem => slash_notMem_of_mem_pieces hr (slash_mem_decodeLossy.mp hmem)
  calc pieces (decodeLossy p) = pieces (decodeLossy (ofPieces p.pieces)) := by rw [ofPieces_pieces]
    _ = pieces (ofPieces (p.pieces.map decodeLossy)) := by rw [decodeLossy_ofPieces]
    _ = p.pieces.map decodeLossy := pieces_ofPieces (by simp [pieces_ne_nil]) hslash

/-! ## 2. Components -/

theorem decodeLossy_eq_here {q : Bytes} : decodeLossy q = here ↔ q = here :=
  Utf8.decodeLossy_eq_iff (t := here) (by simp [here, PathChar.dot])

theorem decodeLossy_eq_up {q : Bytes} : decodeLossy q = up ↔ q = up :=
  Utf8.decodeLossy_eq_iff (t := up) (by simp [up, PathChar.dot])

theorem isIdle_decodeLossy {q : Bytes} : IsIdle (decodeLossy q) ↔ IsIdle q := by
  rw [IsIdle, IsIdle, Utf8.decodeLossy_eq_nil, decodeLossy_eq_here]

theorem component?_decodeLossy (q : Bytes) :
    component? (decodeLossy q) = (component? q).map (.map decodeLossy) := by
  simp only [component?, isIdle_decodeLossy, decodeLossy_eq_up]
  split
  · rfl
  · split <;> rfl

theorem isAbsolute_decodeLossy {p : Path UInt8} : IsAbsolute (decodeLossy p) ↔ p.IsAbsolute := by
  simp only [isAbsolute_iff_pieces, pieces_decodeLossy, ne_eq, Utf8.decodeLossy_eq_nil,
    List.head?_map, Option.map_eq_some_iff, exists_eq_right]

/-- The text of a path has the components of the path, each name read for
itself. -/
theorem components_decodeLossy (p : Path UInt8) :
    components (decodeLossy p) = p.components.map (.map decodeLossy) := by
  have hhead : (pieces (decodeLossy p)).head? = some here ↔ p.pieces.head? = some here := by
    simp only [pieces_decodeLossy, List.head?_map, Option.map_eq_some_iff, decodeLossy_eq_here,
      exists_eq_right]
  have hpieces : (pieces (decodeLossy p)).filterMap component?
      = (p.pieces.filterMap component?).map (.map decodeLossy) := by
    have hpiece : component? ∘ decodeLossy = fun q => (component? q).map (.map decodeLossy) :=
      funext component?_decodeLossy
    rw [pieces_decodeLossy, List.filterMap_map, List.map_filterMap, hpiece]
  simp only [components, isAbsolute_decodeLossy, hhead, hpieces, List.map_append]
  congr 1
  split
  · rfl
  · split <;> rfl

/-! ## 3. Joining -/

section

variable {α : Type} [DecidableEq α] [PathChar α]

/-- The last piece of a path that ends in the separator is empty. The empty
path is the only other one of which this is true. -/
theorem getLast?_eq_slash_iff {p : Path α} :
    p.getLast? = some slash ↔ p ≠ [] ∧ p.pieces.getLast? = some [] := by
  constructor
  · intro h
    obtain ⟨r, rfl⟩ := List.getLast?_eq_some_iff.mp h
    simp [pieces_append_slash]
  · rintro ⟨hne, hlast⟩
    obtain ⟨qs, hqs⟩ := List.getLast?_eq_some_iff.mp hlast
    have hp : ofPieces (qs ++ [[]]) = p := by rw [← hqs, ofPieces_pieces]
    by_cases hnil : qs = []
    · subst hnil
      exact absurd hp.symm hne
    · rw [← hp, ofPieces_concat hnil]
      simp

end

theorem getLast?_decodeLossy_eq_slash {p : Path UInt8} :
    (decodeLossy p).getLast? = some slash ↔ p.getLast? = some slash := by
  simp only [getLast?_eq_slash_iff, pieces_decodeLossy, ne_eq, Utf8.decodeLossy_eq_nil,
    List.getLast?_map, Option.map_eq_some_iff, exists_eq_right]

theorem decodeLossy_opened (p : Path UInt8) : decodeLossy p.opened = opened (decodeLossy p) := by
  simp only [opened, Utf8.decodeLossy_eq_nil, getLast?_decodeLossy_eq_slash]
  split
  · rfl
  · exact decodeLossy_append_slash p []

theorem decodeLossy_join (p q : Path UInt8) :
    decodeLossy (p.join q) = join (decodeLossy p) (decodeLossy q) := by
  by_cases hq : q.IsAbsolute
  · rw [join_of_isAbsolute hq, join_of_isAbsolute (isAbsolute_decodeLossy.mpr hq)]
  · rw [join_of_not_isAbsolute hq, join_of_not_isAbsolute (mt isAbsolute_decodeLossy.mp hq),
      ← decodeLossy_opened]
    by_cases hp : p = []
    · subst hp
      rfl
    · obtain ⟨r, hr, -⟩ := exists_opened_eq hp
      rw [hr, List.append_assoc, List.singleton_append, decodeLossy_append_slash,
        decodeLossy_append_slash, Utf8.decodeLossy_nil, List.append_assoc, List.singleton_append]

end Path

end BenchConfig
