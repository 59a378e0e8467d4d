/-
BenchConfig.Proofs.Path.Buffer — the canonical path, built in a text.

The canonical path of a path can be built without a route, in one text
that grows and shrinks. A name is joined to the text. For a step up the
text itself is read again, and its last component decides: a name is
dropped, the root stays, and otherwise one more step up is joined.

`build_eq_canonical` says that this gives the canonical path. The
invariant is that the text is the text of a proper route
(`Route.buffer`), so that reading it again shows the end of the route.
-/
import BenchConfig.Proofs.Path.Canonical

namespace BenchConfig

open PathChar (slash dot)
open BenchConfig.Path (IsName)

variable {α : Type} [PathChar α]

namespace Path

/-! ## 1. Texts of pieces -/

theorem ofPieces_concat {ps : List (List α)} (h : ps ≠ []) (q : List α) :
    ofPieces (ps ++ [q]) = ofPieces ps ++ slash :: q := by
  induction ps with
  | nil => exact absurd rfl h
  | cons r ps ih =>
    cases ps with
    | nil => simp [ofPieces]
    | cons s ps =>
      rw [List.cons_append, List.cons_append, ofPieces_cons_cons, ← List.cons_append,
        ih (List.cons_ne_nil s ps), ofPieces_cons_cons]
      simp

theorem getLast?_ofPieces {last : List α} (h : last ≠ []) (ps : List (List α)) :
    (ofPieces (ps ++ [last])).getLast? = last.getLast? := by
  cases ps with
  | nil => simp [ofPieces]
  | cons r ps =>
    rw [ofPieces_concat (List.cons_ne_nil r ps), List.getLast?_append, List.getLast?_cons,
      List.getLast?_eq_some_getLast h]
    rfl

theorem ofPieces_concat_ne_nil {last : List α} (h : last ≠ []) (ps : List (List α)) :
    ofPieces (ps ++ [last]) ≠ [] := by
  intro hnil
  have hlast := getLast?_ofPieces h ps
  rw [hnil, List.getLast?_eq_some_getLast h] at hlast
  cases hlast

variable [DecidableEq α]

theorem join_ofPieces {last q : List α} (hlast : last ≠ []) (hslash : slash ∉ last)
    (hq : slash ∉ q) (ps : List (List α)) :
    (ofPieces (ps ++ [last])).join q = ofPieces (ps ++ [last] ++ [q]) := by
  have hend : (ofPieces (ps ++ [last])).getLast? ≠ some slash := by
    rw [getLast?_ofPieces hlast]
    exact fun h => hslash (List.mem_of_getLast? h)
  rw [join_of_not_isAbsolute (not_isAbsolute_of_slash_notMem hq), opened,
    if_neg (by simp [ofPieces_concat_ne_nil hlast, hend]), ofPieces_concat (by simp) q,
    List.append_assoc, List.singleton_append]

/-! ## 2. Building -/

/-- A text that ends in a name, without the name and the separator in
front of it. The separator of the root stays. -/
def dropName (p : Path α) : Path α :=
  let before := ofPieces p.pieces.dropLast
  if before = [] ∧ p.IsAbsolute then [slash] else before

/-- Takes one component into the text. -/
def extend (out : Path α) : Component α → Path α
  | .root => out.join [slash]
  | .here => out
  | .up =>
    match out.components.getLast? with
    | some (.name _) => out.dropName
    | some .root => out
    | _ => out.join up
  | .name n => out.join n

/-- Takes the components into an empty text, from left to right. A text
that is still empty at the end becomes a dot. -/
def build (p : Path α) : Path α :=
  let out := p.components.foldl extend []
  if out = [] then here else out

theorem dropName_ofPieces {n : List α} {ps : List (List α)}
    (h : ∀ q ∈ ps ++ [n], slash ∉ q) :
    dropName (ofPieces (ps ++ [n]))
      = if ofPieces ps = [] ∧ IsAbsolute (ofPieces (ps ++ [n])) then [slash] else ofPieces ps := by
  simp only [dropName, pieces_ofPieces (List.concat_ne_nil n ps) h, List.dropLast_concat]

end Path

namespace Route

/-! ## 3. The text of a route -/

/-- The pieces of the text. For a route from the root the first piece is
empty. -/
def pieces : Route α → List (List α)
  | .fromRoot ns => [] :: ns
  | .fromHere ups ns => List.replicate ups Path.up ++ ns

/-- The text while a route is being followed. Unlike the path of the
route it may be empty. -/
def buffer : Route α → Path α
  | .fromRoot ns => slash :: Path.ofPieces ns
  | .fromHere ups ns => Path.ofPieces (List.replicate ups Path.up ++ ns)

theorem toPath_eq_buffer {r : Route α} (hr : r ≠ .fromHere 0 []) : r.toPath = r.buffer := by
  cases r with
  | fromRoot ns => rfl
  | fromHere ups ns =>
    cases ups with
    | zero =>
      cases ns with
      | nil => exact absurd rfl hr
      | cons n ns => rfl
    | succ ups => rfl

/-- Only the root is not written as its pieces, because a separator
alone cuts two empty pieces. -/
theorem buffer_eq_ofPieces {r : Route α} (hr : r ≠ .fromRoot []) :
    r.buffer = Path.ofPieces r.pieces := by
  cases r with
  | fromRoot ns =>
    cases ns with
    | nil => exact absurd rfl hr
    | cons n ns => simp [buffer, pieces, Path.ofPieces_cons_cons]
  | fromHere ups ns => rfl

theorem pieces_enter (r : Route α) (q : List α) : (r.enter q).pieces = r.pieces ++ [q] := by
  cases r <;> simp [enter, pieces]

theorem buffer_enter (r : Route α) (q : List α) :
    (r.enter q).buffer = Path.ofPieces (r.pieces ++ [q]) := by
  rw [buffer_eq_ofPieces (enter_ne_fromRoot r q), pieces_enter]

theorem slash_notMem_of_mem_pieces {r : Route α} (hr : r.IsProper) :
    ∀ q ∈ r.pieces, slash ∉ q := by
  cases r with
  | fromRoot ns =>
    intro q hq
    rcases List.mem_cons.mp hq with rfl | hq
    · exact List.not_mem_nil
    · exact (hr q hq).2.2.2
  | fromHere ups ns => exact slash_notMem_of_mem_ups_append ups hr

theorem buffer_eq_nil {r : Route α} (hr : r.IsProper) : r.buffer = [] ↔ r = .fromHere 0 [] := by
  constructor
  · intro h
    obtain rfl | ⟨k, rfl⟩ | ⟨s, n, rfl, -, hn⟩ := isProper_cases hr
    · cases h
    · cases k with
      | zero => rfl
      | succ k =>
        rw [buffer, List.append_nil, List.replicate_succ'] at h
        exact absurd h (Path.ofPieces_concat_ne_nil (by simp [Path.up]) _)
    · rw [buffer_enter] at h
      exact absurd h (Path.ofPieces_concat_ne_nil hn.1 _)
  · rintro rfl
    rfl

variable [DecidableEq α]

/-! ## 4. One component -/

/-- Joining one piece to the text of a route. -/
theorem join_buffer {r : Route α} (hr : r.IsProper) {q : List α} (hq : slash ∉ q) :
    r.buffer.join q = (r.enter q).buffer := by
  rw [buffer_enter]
  obtain rfl | ⟨k, rfl⟩ | ⟨s, n, rfl, -, hn⟩ := isProper_cases hr
  · have habs := Path.not_isAbsolute_of_slash_notMem hq
    simp [buffer, pieces, Path.ofPieces, Path.join_of_not_isAbsolute habs, Path.opened]
  · cases k with
    | zero => simp [buffer, pieces, Path.ofPieces]
    | succ k =>
      rw [buffer, pieces, List.append_nil, List.replicate_succ']
      exact Path.join_ofPieces (by simp [Path.up]) Path.slash_notMem_up hq _
  · rw [buffer_enter, pieces_enter]
    exact Path.join_ofPieces hn.1 hn.2.2.2 hq _

theorem dropName_buffer_enter {r : Route α} (hr : r.IsProper) {n : List α} (hn : IsName n) :
    (r.enter n).buffer.dropName = r.buffer := by
  have hslash : ∀ q ∈ r.pieces ++ [n], slash ∉ q := by
    rw [← pieces_enter]
    exact slash_notMem_of_mem_pieces (isProper_enter hr hn)
  rw [buffer_enter, Path.dropName_ofPieces hslash]
  by_cases hroot : r = .fromRoot []
  · subst hroot
    simp [buffer, pieces, Path.ofPieces]
  · rw [← buffer_eq_ofPieces hroot, if_neg]
    rintro ⟨hnil, habs⟩
    obtain rfl := (buffer_eq_nil hr).mp hnil
    exact Path.not_isAbsolute_of_slash_notMem hn.2.2.2 (by simpa [pieces, Path.ofPieces] using habs)

/-- What reading the text of a route again shows. -/
theorem components_buffer {r : Route α} (hr : r.IsProper) (hne : r ≠ .fromHere 0 []) :
    r.buffer.components = r.components := by
  rw [← toPath_eq_buffer hne, components_toPath hr]

theorem getLast?_components_ups (ups : Nat) :
    (fromHere ups []).buffer.components.getLast?
      = if ups = 0 then none else some (Component.up (α := α)) := by
  cases ups with
  | zero => simp [buffer, Path.ofPieces, Path.components, Path.component?, Path.IsIdle, Path.here]
  | succ ups =>
    rw [components_buffer (by intro n hn; cases hn) (by simp)]
    simp [components, List.replicate_succ']

/-- Taking a component into the text of a route gives the text of the
route that goes on with it. -/
theorem extend_buffer {r : Route α} (hr : r.IsProper) {c : Component α}
    (hc : ∀ n, c = .name n → IsName n) : r.buffer.extend c = (r.follow c).buffer := by
  cases c with
  | root => simp [Path.extend, follow, buffer, Path.join_of_isAbsolute, Path.ofPieces]
  | here => rfl
  | name n => exact join_buffer hr (hc n rfl).2.2.2
  | up =>
    obtain rfl | ⟨ups, rfl⟩ | ⟨s, n, rfl, hs, hn⟩ := isProper_cases hr
    · have hroot := components_buffer hr (by simp)
      simp [Path.extend, hroot, components, follow, rise]
    · have hjoin : (fromHere ups []).buffer.join (Path.up (α := α))
          = (fromHere (ups + 1) []).buffer := by
        rw [join_buffer hr Path.slash_notMem_up]
        simp [enter, buffer, List.replicate_succ']
      cases ups <;> simpa [Path.extend, getLast?_components_ups, follow, rise] using hjoin
    · have hlast := components_buffer hr (enter_ne_fromHere s n 0)
      simp only [Path.extend, hlast, getLast?_components_enter]
      rw [dropName_buffer_enter hs hn, follow, rise_enter]

theorem foldl_extend_buffer (cs : List (Component α)) :
    ∀ r : Route α, r.IsProper → (∀ n, .name n ∈ cs → IsName n) →
      cs.foldl Path.extend r.buffer = (cs.foldl follow r).buffer := by
  induction cs with
  | nil => exact fun r _ _ => rfl
  | cons c cs ih =>
    intro r hr hcs
    have hc : ∀ n, c = .name n → IsName n := by
      rintro n rfl
      exact hcs n List.mem_cons_self
    rw [List.foldl_cons, List.foldl_cons, extend_buffer hr hc]
    exact ih (r.follow c) (isProper_follow hr hc) fun n hn => hcs n (List.mem_cons_of_mem _ hn)

end Route

namespace Path

/-! ## 5. All components -/

variable [DecidableEq α]

/-- **Building in a text gives the canonical path.** -/
theorem build_eq_canonical (p : Path α) : p.build = p.canonical := by
  have htext : p.components.foldl extend [] = (Route.ofPath p).buffer :=
    Route.foldl_extend_buffer p.components (.fromHere 0 []) (by intro n hn; cases hn)
      fun n hn => Route.isName_of_mem_components hn
  simp only [build, htext, Route.buffer_eq_nil (Route.isProper_ofPath p)]
  by_cases hr : Route.ofPath p = .fromHere 0 []
  · rw [if_pos hr, canonical, hr]
    rfl
  · rw [if_neg hr, canonical, Route.toPath_eq_buffer hr]

end Path

end BenchConfig
