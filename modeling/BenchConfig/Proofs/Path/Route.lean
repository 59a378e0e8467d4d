/-
BenchConfig.Proofs.Path.Route — routes as the meaning of paths.

A route is what is left of a path when only its meaning counts. Three
facts say so.

* `resolve_eq_reach`: from every directory a path leads where its route
  leads. The invariant is on the pieces: following the component of a
  piece moves the end of a route as `travel` moves a directory.
* `reach_injective`: different routes lead to different directories from
  somewhere. Directories of different depth are enough to tell them
  apart, whatever their names are.
* `ofPath_toPath`: a route that enters only proper names can be read off
  its own path. The way there is `Route.components`, the components that
  the path of the route has.
-/
import BenchConfig.Proofs.Path.Pieces

namespace BenchConfig.Route

open PathChar (slash dot)
open BenchConfig.Path (IsName IsIdle component? travel resolve)

variable {α : Type}

/-! ## 1. Steps -/

theorem reach_rise (cwd : List (List α)) (r : Route α) :
    r.rise.reach cwd = (r.reach cwd).dropLast := by
  cases r with
  | fromRoot ns => rfl
  | fromHere ups ns =>
    cases ns with
    | nil => simp [rise, reach, List.dropLast_eq_take]; grind
    | cons m ns => simp [rise, reach, List.dropLast_append_of_ne_nil]

theorem reach_enter (cwd : List (List α)) (n : List α) (r : Route α) :
    (r.enter n).reach cwd = r.reach cwd ++ [n] := by
  cases r <;> simp [enter, reach]

theorem rise_enter (r : Route α) (n : List α) : (r.enter n).rise = r := by
  cases r with
  | fromRoot ns => simp [enter, rise]
  | fromHere ups ns =>
    cases ns with
    | nil => rfl
    | cons m ns =>
      show fromHere ups (m :: ns ++ [n]).dropLast = _
      rw [List.dropLast_concat]

theorem enter_ne_fromRoot (r : Route α) (n : List α) : r.enter n ≠ .fromRoot [] := by
  cases r <;> simp [enter]

theorem enter_ne_fromHere (r : Route α) (n : List α) (ups : Nat) :
    r.enter n ≠ .fromHere ups [] := by
  cases r <;> simp [enter]

/-! ## 2. Routes as components -/

/-- The components of the path of a route. -/
def components : Route α → List (Component α)
  | .fromRoot ns => .root :: ns.map .name
  | .fromHere 0 [] => [.here]
  | .fromHere ups ns => List.replicate ups .up ++ ns.map .name

theorem components_fromHere_head? (k : Nat) (ns : List (List α)) :
    (fromHere k ns).components.head? ≠ some .root := by
  cases k with
  | zero => cases ns <;> simp [components]
  | succ k => simp [components, List.replicate_succ]

theorem getLast?_components_enter (r : Route α) (n : List α) :
    (r.enter n).components.getLast? = some (.name n) := by
  cases r with
  | fromRoot ns => simp [enter, components, List.getLast?_cons]
  | fromHere ups ns =>
    cases ups <;> cases ns <;> simp [enter, components, List.getLast?_cons]

theorem foldl_follow_names (ns : List (List α)) :
    ∀ r : Route α, (ns.map Component.name).foldl follow r
      = match r with
        | .fromRoot ms => .fromRoot (ms ++ ns)
        | .fromHere ups ms => .fromHere ups (ms ++ ns) := by
  induction ns with
  | nil => intro r; cases r <;> simp
  | cons n ns ih =>
    intro r
    rw [List.map_cons, List.foldl_cons, ih]
    cases r <;> simp [follow, enter]

theorem foldl_follow_ups (ups : Nat) : ∀ k : Nat,
    (List.replicate ups (Component.up (α := α))).foldl follow (.fromHere k [])
      = .fromHere (k + ups) [] := by
  induction ups with
  | zero => intro k; rfl
  | succ ups ih =>
    intro k
    rw [List.replicate_succ, List.foldl_cons]
    simp only [follow, rise]
    rw [ih, Nat.add_right_comm, Nat.add_assoc]

theorem foldl_follow_components (r : Route α) :
    r.components.foldl follow (.fromHere 0 []) = r := by
  cases r with
  | fromRoot ns => simp [components, follow, foldl_follow_names]
  | fromHere ups ns =>
    unfold components
    split
    · next h => cases h
    · next h => cases h; rfl
    · next h =>
      cases h
      rw [List.foldl_append, foldl_follow_ups, foldl_follow_names]
      simp

/-- A route from the root stays one. Only the root makes one of a route
from elsewhere. -/
theorem foldl_follow_fromRoot (cs : List (Component α)) :
    ∀ ns, ∃ ms, cs.foldl follow (.fromRoot ns) = .fromRoot ms := by
  induction cs with
  | nil =>
    intro ns
    exact ⟨ns, rfl⟩
  | cons c cs ih =>
    intro ns
    cases c <;> exact ih _

theorem foldl_follow_fromHere (cs : List (Component α)) (hcs : .root ∉ cs) :
    ∀ k ns, ∃ l ms, cs.foldl follow (.fromHere k ns) = .fromHere l ms := by
  induction cs with
  | nil =>
    intro k ns
    exact ⟨k, ns, rfl⟩
  | cons c cs ih =>
    intro k ns
    have ih := ih fun h => hcs (List.mem_cons_of_mem _ h)
    cases c with
    | root => exact absurd List.mem_cons_self hcs
    | here => exact ih k ns
    | up => cases ns <;> exact ih _ _
    | name n => exact ih _ _

variable [PathChar α]

/-! ## 3. Telling routes apart -/

/-- A directory `k` names deep. Any name serves; three dots are one over
every type of characters. -/
def depth (k : Nat) : List (List α) :=
  List.replicate k [dot, dot, dot]

theorem isName_of_mem_depth {k : Nat} {n : List α} (h : n ∈ depth k) : IsName n := by
  rw [List.eq_of_mem_replicate h]
  simp [IsName, Path.here, Path.up, PathChar.slash_ne_dot]

theorem reach_depth_fromHere {k ups : Nat} (ns : List (List α)) :
    ((fromHere ups ns).reach (depth k)).length = k - ups + ns.length := by
  simp [reach, depth]

theorem fromRoot_reach_ne_fromHere {ns ms : List (List α)} {ups : Nat}
    (h : ∀ k, (fromRoot ns).reach (depth k) = (fromHere ups ms).reach (depth k)) : False := by
  -- one name more in the starting directory shows on the right only
  have h₀ := congrArg List.length (h ups)
  have h₁ := congrArg List.length (h (ups + 1))
  rw [reach_depth_fromHere] at h₀ h₁
  simp only [reach] at h₀ h₁
  omega

theorem fromHere_injective_of_reach {ns ms : List (List α)} {k l : Nat}
    (h : ∀ d, (fromHere k ns).reach (depth d) = (fromHere l ms).reach (depth d)) :
    k = l ∧ ns = ms := by
  have hnames : ns = ms := by simpa [reach, depth] using h 0
  have hlength := congrArg List.length (h (k + l))
  rw [reach_depth_fromHere, reach_depth_fromHere, hnames] at hlength
  exact ⟨by omega, hnames⟩

theorem reach_injective {r s : Route α}
    (h : ∀ cwd, (∀ n ∈ cwd, IsName n) → r.reach cwd = s.reach cwd) : r = s := by
  have hdepth : ∀ k, r.reach (depth k) = s.reach (depth k) :=
    fun k => h (depth k) fun n hn => isName_of_mem_depth hn
  cases r with
  | fromRoot ns =>
    cases s with
    | fromRoot ms => exact congrArg fromRoot (hdepth 0)
    | fromHere l ms => exact (fromRoot_reach_ne_fromHere hdepth).elim
  | fromHere k ns =>
    cases s with
    | fromRoot ms => exact (fromRoot_reach_ne_fromHere fun d => (hdepth d).symm).elim
    | fromHere l ms =>
      obtain ⟨rfl, rfl⟩ := fromHere_injective_of_reach hdepth
      rfl

/-! ## 4. Proper routes -/

/-- The names that a route enters and does not leave. -/
def names : Route α → List (List α)
  | .fromRoot ns => ns
  | .fromHere _ ns => ns

/-- Every name on the route names an entry. -/
def IsProper (r : Route α) : Prop :=
  ∀ n ∈ r.names, IsName n

theorem isProper_rise {r : Route α} (hr : r.IsProper) : r.rise.IsProper := by
  cases r with
  | fromRoot ns => exact fun n hn => hr n (List.dropLast_subset ns hn)
  | fromHere ups ns =>
    cases ns with
    | nil => exact hr
    | cons m ns => exact fun n hn => hr n (List.dropLast_subset (m :: ns) hn)

theorem isProper_enter {r : Route α} (hr : r.IsProper) {n : List α} (hn : IsName n) :
    (r.enter n).IsProper := by
  intro m hm
  have hm' : m ∈ r.names ++ [n] := by cases r <;> exact hm
  rcases List.mem_append.mp hm' with hm' | hm'
  · exact hr m hm'
  · exact List.mem_singleton.mp hm' ▸ hn

theorem isProper_follow {r : Route α} (hr : r.IsProper) {c : Component α}
    (hc : ∀ n, c = .name n → IsName n) : (r.follow c).IsProper := by
  cases c with
  | root => intro n hn; cases hn
  | here => exact hr
  | up => exact isProper_rise hr
  | name n => exact isProper_enter hr (hc n rfl)

theorem isProper_foldl_follow (cs : List (Component α)) :
    ∀ r : Route α, r.IsProper → (∀ n, .name n ∈ cs → IsName n) →
      (cs.foldl follow r).IsProper := by
  induction cs with
  | nil =>
    intro r hr _
    exact hr
  | cons c cs ih =>
    intro r hr hcs
    have hc : ∀ n, c = .name n → IsName n := by
      rintro n rfl
      exact hcs n List.mem_cons_self
    exact ih (r.follow c) (isProper_follow hr hc) fun n hn => hcs n (List.mem_cons_of_mem _ hn)

/-- A proper route ends with a name, or it has none. -/
theorem isProper_cases {r : Route α} (hr : r.IsProper) :
    r = .fromRoot [] ∨ (∃ ups, r = .fromHere ups []) ∨
      ∃ (s : Route α) (n : List α), r = s.enter n ∧ s.IsProper ∧ IsName n := by
  cases r with
  | fromRoot ns =>
    obtain rfl | ⟨ms, m, hns⟩ := ns.eq_nil_or_concat
    · exact Or.inl rfl
    · rw [List.concat_eq_append] at hns
      subst hns
      have hms : (fromRoot ms).IsProper := fun n hn => hr n (List.mem_append_left _ hn)
      have hm : IsName m := hr m (by simp [names])
      exact Or.inr (Or.inr ⟨.fromRoot ms, m, rfl, hms, hm⟩)
  | fromHere ups ns =>
    obtain rfl | ⟨ms, m, hns⟩ := ns.eq_nil_or_concat
    · exact Or.inr (Or.inl ⟨ups, rfl⟩)
    · rw [List.concat_eq_append] at hns
      subst hns
      have hms : (fromHere ups ms).IsProper := fun n hn => hr n (List.mem_append_left _ hn)
      have hm : IsName m := hr m (by simp [names])
      exact Or.inr (Or.inr ⟨.fromHere ups ms, m, rfl, hms, hm⟩)

theorem slash_notMem_of_mem_ups_append (ups : Nat) {ns : List (List α)}
    (h : ∀ n ∈ ns, IsName n) : ∀ q ∈ List.replicate ups Path.up ++ ns, slash ∉ q := by
  intro q hq
  rcases List.mem_append.mp hq with hq | hq
  · exact List.eq_of_mem_replicate hq ▸ Path.slash_notMem_up
  · exact (h q hq).2.2.2

/-- Steps up and then names begin with a piece that is not idle. -/
theorem exists_first_piece {ups : Nat} {ns : List (List α)} (hne : ups ≠ 0 ∨ ns ≠ [])
    (h : ∀ n ∈ ns, IsName n) :
    ∃ first rest, List.replicate ups Path.up ++ ns = first :: rest
      ∧ first ≠ [] ∧ first ≠ Path.here := by
  cases ups with
  | zero =>
    cases ns with
    | nil => simp at hne
    | cons n ns =>
      have hn : IsName n := h n List.mem_cons_self
      exact ⟨n, ns, rfl, hn.1, hn.2.1⟩
  | succ ups => exact ⟨Path.up, _, rfl, by simp [Path.up], by simp [Path.up, Path.here]⟩

variable [DecidableEq α]

/-! ## 5. The route of a path -/

theorem isName_of_mem_components {p : Path α} {n : List α} (h : .name n ∈ p.components) :
    IsName n := by
  unfold Path.components at h
  rcases List.mem_append.mp h with h | h
  · grind
  · obtain ⟨q, hq, hn⟩ := List.mem_filterMap.mp h
    exact (Path.isName_of_component? (Path.slash_notMem_of_mem_pieces hq) hn).2

theorem isProper_ofPath (p : Path α) : (ofPath p).IsProper := by
  refine isProper_foldl_follow _ _ ?_ fun n hn => isName_of_mem_components hn
  intro n hn
  cases hn

theorem ofPath_of_isAbsolute {p : Path α} (h : p.IsAbsolute) :
    ∃ ns, ofPath p = .fromRoot ns := by
  unfold ofPath Path.components
  rw [if_pos h, List.singleton_append, List.foldl_cons]
  exact foldl_follow_fromRoot _ []

theorem ofPath_of_not_isAbsolute {p : Path α} (h : ¬ p.IsAbsolute) :
    ∃ k ns, ofPath p = .fromHere k ns :=
  foldl_follow_fromHere p.components (Path.root_notMem_components h) 0 []

/-- Following pieces from the end of a route is travelling from where
the route leads. -/
theorem reach_foldl_follow (cwd : List (List α)) (ps : List (List α)) :
    ∀ r : Route α, ((ps.filterMap component?).foldl follow r).reach cwd
      = ps.foldl travel (r.reach cwd) := by
  induction ps with
  | nil =>
    intro r
    rfl
  | cons q ps ih =>
    intro r
    rw [List.foldl_cons]
    by_cases hidle : IsIdle q
    · have hq : component? q = none := Path.component?_eq_none.mpr hidle
      rw [List.filterMap_cons_none hq, ih r, Path.travel_of_isIdle hidle]
    · by_cases hup : q = Path.up
      · have hq : component? q = some .up := Path.component?_eq_some_up.mpr hup
        rw [List.filterMap_cons_some hq, List.foldl_cons, ih]
        subst hup
        simp [follow, reach_rise, travel, hidle]
      · have hq : component? q = some (.name q) := by simp [component?, hidle, hup]
        rw [List.filterMap_cons_some hq, List.foldl_cons, ih]
        simp [follow, reach_enter, travel, hidle, hup]

theorem resolve_eq_reach (cwd : List (List α)) (p : Path α) :
    resolve cwd p = (ofPath p).reach cwd := by
  have hstart : ((if p.IsAbsolute then [.root]
      else if p.pieces.head? = some Path.here then [.here] else []).foldl follow
        (.fromHere 0 [])).reach cwd = if p.IsAbsolute then [] else cwd := by
    split
    · rfl
    · split <;> simp [follow, reach]
  unfold ofPath Path.components resolve
  rw [List.foldl_append, reach_foldl_follow, hstart]

/-! ## 6. The path of a route -/

theorem filterMap_component?_names {ns : List (List α)} (h : ∀ n ∈ ns, IsName n) :
    ns.filterMap component? = ns.map Component.name := by
  induction ns with
  | nil => rfl
  | cons n ns ih =>
    have hn : component? n = some (.name n) := Path.component?_of_isName (h n List.mem_cons_self)
    have hns := ih fun m hm => h m (List.mem_cons_of_mem _ hm)
    rw [List.filterMap_cons_some hn, hns, List.map_cons]

theorem filterMap_component?_ups (ups : Nat) :
    (List.replicate ups (Path.up (α := α))).filterMap component?
      = List.replicate ups .up := by
  exact List.filterMap_replicate_of_some (Path.component?_eq_some_up.mpr rfl)

theorem components_fromRoot {ns : List (List α)} (h : ∀ n ∈ ns, IsName n) :
    (fromRoot ns).toPath.components = .root :: ns.map .name := by
  have hpieces : (Path.pieces (slash :: Path.ofPieces ns)).filterMap component?
      = ns.map Component.name := by
    rw [Path.pieces_cons_slash, List.filterMap_cons_none (Path.component?_eq_none.mpr (Or.inl rfl))]
    cases ns with
    | nil => simp [Path.ofPieces, component?, IsIdle]
    | cons n ns =>
      rw [Path.pieces_ofPieces (List.cons_ne_nil n ns) fun m hm => (h m hm).2.2.2]
      exact filterMap_component?_names h
  simp [toPath, Path.components, hpieces]

theorem components_ofPieces {ups : Nat} {ns : List (List α)} (hne : ups ≠ 0 ∨ ns ≠ [])
    (h : ∀ n ∈ ns, IsName n) :
    (Path.ofPieces (List.replicate ups Path.up ++ ns)).components
      = List.replicate ups .up ++ ns.map .name := by
  obtain ⟨first, rest, hps, hnil, hhere⟩ := exists_first_piece hne h
  have hslash := slash_notMem_of_mem_ups_append ups h
  have habs : ¬ Path.IsAbsolute (Path.ofPieces (List.replicate ups Path.up ++ ns)) := by
    rw [hps]
    exact Path.not_isAbsolute_ofPieces hnil (hslash first (by simp [hps])) rest
  have hpieces : Path.pieces (Path.ofPieces (List.replicate ups Path.up ++ ns))
      = List.replicate ups Path.up ++ ns :=
    Path.pieces_ofPieces (by simp [hps]) hslash
  have hhead : (List.replicate ups Path.up ++ ns).head? ≠ some Path.here := by
    simp [hps, hhere]
  simp only [Path.components, habs, hpieces, hhead, if_false, List.nil_append,
    List.filterMap_append, filterMap_component?_ups, filterMap_component?_names h]

theorem components_toPath {r : Route α} (hr : r.IsProper) :
    r.toPath.components = r.components := by
  cases r with
  | fromRoot ns => exact components_fromRoot hr
  | fromHere ups ns =>
    cases ups with
    | zero =>
      cases ns with
      | nil =>
        simp [toPath, components, Path.components, Path.here, Path.IsAbsolute,
          Path.pieces_of_slash_notMem, PathChar.slash_ne_dot, component?, IsIdle,
          Ne.symm PathChar.slash_ne_dot]
      | cons n ns => exact components_ofPieces (Or.inr (List.cons_ne_nil n ns)) hr
    | succ ups => exact components_ofPieces (Or.inl (Nat.succ_ne_zero ups)) hr

theorem ofPath_toPath {r : Route α} (hr : r.IsProper) : ofPath r.toPath = r := by
  rw [ofPath, components_toPath hr, foldl_follow_components]

end BenchConfig.Route
