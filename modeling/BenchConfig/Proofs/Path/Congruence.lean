/-
BenchConfig.Proofs.Path.Congruence — where the canonical path may stand
for the path that it comes from.

Joining composes meanings, and the canonical path depends on the meaning
alone. So it makes no difference to the canonical path of a join which
spellings of its operands are joined (`canonical_join_congr`). The base of
an anchored path is such an operand.

## The tilde is read before anything is joined

The path that is anchored is not only an operand. Its first component is
looked at as it is written, and the canonical path may have another one:
`./~/x` begins with a dot and becomes `~/x`, and `~/..` begins with a tilde
and becomes a dot. A path may be replaced by its canonical path if neither
of the two begins with a tilde. Then the expansion leaves both alone
(`expandTilde_of_head?_ne`), and the path is an operand like the base.
-/
import BenchConfig.Proofs.Path.Anchor

namespace BenchConfig.Path

/-! ## 1. Joined paths -/

section

variable {α : Type} [DecidableEq α] [PathChar α]

/-- A canonical path leads where its path leads, so paths of one canonical
path lead to one place. -/
theorem resolve_eq_of_canonical_eq {p q : Path α} (h : p.canonical = q.canonical)
    (cwd : List (List α)) : resolve cwd p = resolve cwd q := by
  rw [← resolve_canonical cwd p, h, resolve_canonical]

theorem canonical_join_congr {b b' p p' : Path α} (hb : b.canonical = b'.canonical)
    (hp : p.canonical = p'.canonical) : (b.join p).canonical = (b'.join p').canonical := by
  refine canonical_eq_of_resolve_eq fun cwd _ => ?_
  calc resolve cwd (b.join p) = resolve (resolve cwd b) p := resolve_join cwd b p
    _ = resolve (resolve cwd b') p := by rw [resolve_eq_of_canonical_eq hb]
    _ = resolve (resolve cwd b') p' := resolve_eq_of_canonical_eq hp _
    _ = resolve cwd (b'.join p') := (resolve_join cwd b' p').symm

theorem canonical_join (b p : Path α) :
    (b.join p).canonical = (b.canonical.join p.canonical).canonical :=
  canonical_join_congr (canonical_canonical b).symm (canonical_canonical p).symm

end

/-! ## 2. Anchored paths -/

theorem anchor_canonical_base (home : Option (Path Char)) (base p : Path Char) :
    anchor home base p = anchor home base.canonical p :=
  canonical_join_congr (canonical_canonical base).symm rfl

theorem anchor_canonical {p : Path Char} (hpath : p.components.head? ≠ some (.name tilde))
    (hcanonical : p.canonical.components.head? ≠ some (.name tilde))
    (home : Option (Path Char)) (base : Path Char) :
    anchor home base p = anchor home base p.canonical := by
  rw [anchor, anchor, expandTilde_of_head?_ne hpath, expandTilde_of_head?_ne hcanonical]
  exact canonical_join_congr rfl (canonical_canonical p).symm

/-- **The canonical path respects joining.** What comes of joining two
paths is the same text if their canonical paths are joined instead. So the
base of an anchored path may be replaced by its canonical path, and so may
the path itself, unless one of its two spellings begins with a tilde. -/
theorem canonical_respects_join :
    (∀ b p : Path Char, (b.join p).canonical = (b.canonical.join p.canonical).canonical) ∧
    (∀ (home : Option (Path Char)) (base p : Path Char),
      anchor home base p = anchor home base.canonical p) ∧
    ∀ (home : Option (Path Char)) (base p : Path Char),
      p.components.head? ≠ some (.name tilde) →
        p.canonical.components.head? ≠ some (.name tilde) →
          anchor home base p = anchor home base p.canonical :=
  ⟨canonical_join, anchor_canonical_base,
    fun home base _ hpath hcanonical => anchor_canonical hpath hcanonical home base⟩

/-- The path leaves a name of the base that the base itself leaves again,
and has a tilde further on. -/
theorem canonical_respects_join_climbing :
    let p : Path Char := "a/../..//~/x/.".toList
    let base : Path Char := "/b/./c/../d".toList
    p.components.head? ≠ some (.name tilde) ∧
      p.canonical.components.head? ≠ some (.name tilde) ∧
      p.canonical = "../~/x".toList ∧
      anchor (some "/home/u".toList) base p = "/b/~/x".toList ∧
      anchor (some "/home/u".toList) base p
        = anchor (some "/home/u".toList) base p.canonical := by
  intro p base
  have hpath : p.components.head? ≠ some (.name tilde) := by decide
  have hcanonical : p.canonical.components.head? ≠ some (.name tilde) := by decide
  exact ⟨hpath, hcanonical, by decide, by decide,
    canonical_respects_join.2.2 _ base p hpath hcanonical⟩

/-- Each of the two conditions on the tilde is needed. -/
example :
    let home : Option (Path Char) := some "/h".toList
    let paths : List (Path Char) := ["./~/x".toList, "~/..".toList]
    ∀ p ∈ paths, anchor home [] p ≠ anchor home [] p.canonical := by
  decide

end BenchConfig.Path
