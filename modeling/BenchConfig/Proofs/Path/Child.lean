/-
BenchConfig.Proofs.Path.Child — the entry of a directory, named before
or after the path of the directory is resolved.

Whoever wants the entry `n` of the directory `p` can join the name to the
path and resolve that, or resolve the path and put the name behind what
comes out. Both give the same text.

* For the canonical path this is `canonical_join_name`. The text of a
  canonical path tells which of three ways of putting the name behind it
  is right (`child`), because only the empty route is written as a dot
  and only the root ends in a separator.
* For anchored paths it is `anchor_join_name`. The tilde is expanded
  after the name was joined, so what the expansion trims and what it
  keeps must not depend on the name (`resolve_expandTilde`). One path is
  different: behind the empty path a name that is itself a tilde becomes
  the first piece.
-/
import BenchConfig.Proofs.Path.Tilde
import BenchConfig.Proofs.Path.Buffer

namespace BenchConfig

open PathChar (slash dot)
open BenchConfig.Path (IsName IsIdle travel resolve)

variable {α : Type} [PathChar α]

/-! ## 1. Entries of canonical paths -/

theorem Path.not_isAbsolute_name_append {n : List α} (hn : IsName n) (q : List α) :
    ¬ IsAbsolute (n ++ q) := by
  rw [isAbsolute_append hn.1]
  exact not_isAbsolute_of_slash_notMem hn.2.2.2

variable [DecidableEq α]

namespace Path

/-- The entry `n` of the directory with the canonical path `p`. -/
def child (p : Path α) (n : List α) : Path α :=
  if p = here then n
  else if p = [slash] then slash :: n
  else p ++ slash :: n

/-- What stands in front of the name, whatever the name is. -/
def front (p : Path α) : Path α :=
  if p = here then []
  else if p = [slash] then [slash]
  else p ++ [slash]

theorem child_eq_front_append (p : Path α) (n : List α) : p.child n = p.front ++ n := by
  unfold child front
  split
  · rfl
  · split
    · rfl
    · simp

theorem travel_name {n : List α} (hn : IsName n) (cwd : List (List α)) :
    travel cwd n = cwd ++ [n] := by
  simp [travel, IsIdle, hn.1, hn.2.1, hn.2.2.1]

theorem resolve_name {n : List α} (hn : IsName n) (cwd : List (List α)) :
    resolve cwd n = cwd ++ [n] := by
  rw [resolve_of_not_isAbsolute (not_isAbsolute_of_slash_notMem hn.2.2.2),
    pieces_of_slash_notMem hn.2.2.2, List.foldl_cons, List.foldl_nil, travel_name hn]

/-- A text that ends in a name is opened by one separator. -/
theorem join_append_name {n : List α} (hn : IsName n) {q : Path α} (hq : ¬ q.IsAbsolute)
    (p : Path α) : (p ++ n).join q = p ++ n ++ slash :: q := by
  have hlast : n.getLast? ≠ some slash := fun h => hn.2.2.2 (List.mem_of_getLast? h)
  rw [join_of_not_isAbsolute hq, opened, if_neg (by simp [hn.1, hlast]), List.append_assoc,
    List.singleton_append]

end Path

namespace Route

theorem toPath_injective {r s : Route α} (hr : r.IsProper) (hs : s.IsProper)
    (h : r.toPath = s.toPath) : r = s := by
  rw [← ofPath_toPath hr, h, ofPath_toPath hs]

theorem toPath_enter {r : Route α} (hr : r.IsProper) (n : List α) :
    (r.enter n).toPath = r.toPath.child n := by
  have henter : (r.enter n).toPath = Path.ofPieces (r.pieces ++ [n]) := by
    rw [toPath_eq_buffer (enter_ne_fromHere r n 0), buffer_enter]
  by_cases hhere : r = .fromHere 0 []
  · subst hhere
    rw [henter]
    simp [pieces, toPath, Path.child, Path.ofPieces]
  by_cases hroot : r = .fromRoot []
  · subst hroot
    rw [henter]
    simp [pieces, toPath, Path.child, Path.ofPieces, Path.here, PathChar.slash_ne_dot]
  -- a path with another route is neither the dot nor the root
  have hdot : r.toPath ≠ Path.here := fun h =>
    hhere (toPath_injective hr (fun _ hm => by cases hm) h)
  have hslash : r.toPath ≠ [slash] := fun h =>
    hroot (toPath_injective hr (fun _ hm => by cases hm) h)
  have hne : r.pieces ≠ [] := by
    intro h
    cases r with
    | fromRoot ns => cases h
    | fromHere ups ns => simp_all [pieces]
  rw [henter, Path.ofPieces_concat hne, Path.child, if_neg hdot, if_neg hslash,
    toPath_eq_buffer hhere, buffer_eq_ofPieces hroot]

theorem ofPath_join_name (p : Path α) {n : List α} (hn : IsName n) :
    ofPath (p.join n) = (ofPath p).enter n := by
  refine reach_injective fun cwd _ => ?_
  rw [reach_enter, ← resolve_eq_reach, ← resolve_eq_reach, Path.resolve_join,
    Path.resolve_name hn]

end Route

namespace Path

theorem canonical_join_name (p : Path α) {n : List α} (hn : IsName n) :
    (p.join n).canonical = p.canonical.child n := by
  rw [canonical, Route.ofPath_join_name p hn, Route.toPath_enter (Route.isProper_ofPath p),
    ← canonical]

/-! ## 2. Pieces of a path with a name behind it -/

/-- The pieces of a path with a name joined to it: one more than before,
but for a separator at the end. -/
theorem pieces_join_name {p : Path α} (hp : p ≠ []) {n : List α} (hn : IsName n) :
    ∃ first ps, (p.join n).pieces = first :: (ps ++ [n]) ∧
      (p.pieces = first :: ps ∨ p.pieces = first :: (ps ++ [[]])) := by
  obtain ⟨r, hr, hpr⟩ := exists_opened_eq hp
  obtain ⟨first, ps, hps⟩ := List.exists_cons_of_ne_nil (pieces_ne_nil r)
  refine ⟨first, ps, ?_, ?_⟩
  · rw [join_of_not_isAbsolute (not_isAbsolute_of_slash_notMem hn.2.2.2), hr, List.append_assoc,
      List.singleton_append, pieces_append_slash, hps, pieces_of_slash_notMem hn.2.2.2,
      List.cons_append]
  · rcases hpr with rfl | rfl
    · exact .inl hps
    · exact .inr (by rw [pieces_append_slash, hps, pieces_nil, List.cons_append])

/-! ## 3. Entries of anchored paths -/

theorem afterTilde?_eq_none_of_head? {p : Path Char} (h : p.pieces.head? ≠ some tilde) :
    p.afterTilde? = none :=
  afterTilde?_eq_none fun hname => h ((head?_components_eq_name isName_tilde).mp hname)

theorem resolve_expandTilde_join {p : Path Char} {n : Text} (hn : IsName n)
    (htilde : ¬ (p = [] ∧ n = tilde)) (home : Option (Path Char)) (cwd : List Text) :
    resolve cwd (expandTilde home (p.join n)) = resolve cwd (expandTilde home p) ++ [n] := by
  -- without a tilde in front neither path is expanded
  have hplain : (p.join n).pieces.head? ≠ some tilde → p.pieces.head? ≠ some tilde →
      resolve cwd (expandTilde home (p.join n)) = resolve cwd (expandTilde home p) ++ [n] := by
    intro hjoin hpath
    rw [expandTilde_of_afterTilde?_eq_none (afterTilde?_eq_none_of_head? hjoin),
      expandTilde_of_afterTilde?_eq_none (afterTilde?_eq_none_of_head? hpath),
      resolve_join, resolve_name hn]
  by_cases hp : p = []
  · subst hp
    refine hplain ?_ (by simp [tilde])
    rw [nil_join, pieces_of_slash_notMem hn.2.2.2]
    simpa using htilde
  obtain ⟨first, ps, hjoin, hpath⟩ := pieces_join_name hp hn
  by_cases hfirst : first = tilde
  · subst hfirst
    cases home with
    | none => rw [expandTilde_none, expandTilde_none, resolve_join, resolve_name hn]
    | some h =>
      rw [resolve_expandTilde hjoin, List.foldl_append, List.foldl_cons, List.foldl_nil,
        travel_name hn]
      rcases hpath with hpath | hpath
      · rw [resolve_expandTilde hpath]
      · rw [resolve_expandTilde hpath, List.foldl_append, List.foldl_cons, List.foldl_nil,
          travel_nil]
  · refine hplain (by simp [hjoin, hfirst]) ?_
    rcases hpath with hpath | hpath <;> simp [hpath, hfirst]

/-- **A name can be joined before or after anchoring.** -/
theorem anchor_join_name {p : Path Char} {n : Text} (hn : IsName n)
    (htilde : ¬ (p = [] ∧ n = tilde)) (home : Option (Path Char)) (base : Path Char) :
    anchor home base (p.join n) = (anchor home base p).child n := by
  rw [anchor, anchor, ← canonical_join_name _ hn]
  refine canonical_eq_of_resolve_eq fun cwd _ => ?_
  rw [resolve_join, resolve_expandTilde_join hn htilde, resolve_join, resolve_join,
    resolve_name hn]

end Path

end BenchConfig
