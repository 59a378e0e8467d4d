/-
BenchConfig.Proofs.Path.Climb — how far a path climbs out of the directory
where it starts.

A relative path goes up and down. After some of its components it is
outside of the directory where it started if it has gone up more often
than down. The route of a path keeps the names that are still entered and
the number of steps up in front of them; it does not keep what happened on
the way. That number is nevertheless the largest excess of steps up over
names among the prefixes of the components (`isClimb_ofPath`).

The invariant along the components is `IsClimb`. It says of the components
read so far that no prefix of them has a larger excess than `ups`, that one
has this excess, and how deep below the highest point they end. The depth
is what the induction needs: a step up reaches a new highest point from
depth 0 and from nowhere else, and that is when the route has no name left
to take back.

## Coming back does not count

A path that climbs out may come back to where it was by naming the
directory again: `../a` leads from `/a` to `/a`. So it is not enough to look
at one base. A base whose only name is not the first that the path enters
shows that it was left (`prefix_reach_iff`), and the path that never climbs
out stays inside of every base.
-/
import BenchConfig.Proofs.Path.Anchor

namespace BenchConfig

open PathChar (dot)
open BenchConfig.Path (IsName)

variable {α : Type}

/-! ## 1. Steps up and down -/

namespace Component

/-- A step up. -/
def isUp : Component α → Bool
  | .up => true
  | _ => false

/-- A name that is entered. -/
def isName : Component α → Bool
  | .name _ => true
  | _ => false

/-- The number of steps up. -/
def climbs (cs : List (Component α)) : Nat :=
  cs.countP isUp

/-- The number of names. -/
def descents (cs : List (Component α)) : Nat :=
  cs.countP isName

theorem climbs_concat (cs : List (Component α)) (c : Component α) :
    climbs (cs ++ [c]) = climbs cs + if c.isUp then 1 else 0 := by
  simp [climbs, List.countP_cons]

theorem descents_concat (cs : List (Component α)) (c : Component α) :
    descents (cs ++ [c]) = descents cs + if c.isName then 1 else 0 := by
  simp [descents, List.countP_cons]

end Component

open Component (climbs descents)

/-- At their highest point the components are `ups` directories above their
start, and they end `depth` directories below that point. -/
structure IsClimb (cs : List (Component α)) (ups depth : Nat) : Prop where
  most : ∀ q, q <+: cs → climbs q ≤ descents q + ups
  reached : ∃ q, q <+: cs ∧ climbs q = descents q + ups
  ends : climbs cs + depth = descents cs + ups

namespace IsClimb

theorem nil : IsClimb ([] : List (Component α)) 0 0 where
  most q hq := by simp [List.prefix_nil.mp hq, climbs]
  reached := ⟨[], List.prefix_rfl, rfl⟩
  ends := rfl

variable {cs : List (Component α)} {ups depth : Nat}

/-- One more component. The highest point is the old one, or it is where
the components end now. -/
theorem concat (h : IsClimb cs ups depth) {c : Component α} {ups' depth' : Nat}
    (hhigher : ups ≤ ups') (hpoint : ups' = ups ∨ depth' = 0)
    (hends : climbs (cs ++ [c]) + depth' = descents (cs ++ [c]) + ups') :
    IsClimb (cs ++ [c]) ups' depth' where
  most q hq := by
    rcases List.prefix_concat_iff.mp hq with rfl | hq
    · omega
    · have := h.most q hq
      omega
  reached := by
    rcases hpoint with rfl | rfl
    · obtain ⟨q, hq, hexcess⟩ := h.reached
      exact ⟨q, hq.trans (List.prefix_append cs [c]), hexcess⟩
    · exact ⟨cs ++ [c], List.prefix_rfl, hends⟩
  ends := hends

/-- The start is the highest point if no prefix goes up more often than
down. -/
theorem ups_eq_zero_iff (h : IsClimb cs ups depth) :
    ups = 0 ↔ ∀ q, q <+: cs → climbs q ≤ descents q := by
  constructor
  · rintro rfl q hq
    exact h.most q hq
  · intro hnever
    obtain ⟨q, hq, hexcess⟩ := h.reached
    have := hnever q hq
    omega

end IsClimb

namespace Route

/-! ## 2. The climb of a route -/

/-- The route that has followed the components has their highest point as
its own. -/
def Climbs (cs : List (Component α)) : Route α → Prop
  | .fromRoot _ => False
  | .fromHere ups names => IsClimb cs ups names.length

theorem climbs_follow {cs : List (Component α)} {r : Route α} (h : r.Climbs cs)
    {c : Component α} (hc : c ≠ .root) : (r.follow c).Climbs (cs ++ [c]) := by
  cases r with
  | fromRoot names => exact h.elim
  | fromHere ups names =>
    have hends := h.ends
    have hclimbs := Component.climbs_concat cs c
    have hdescents := Component.descents_concat cs c
    cases c with
    | root => exact absurd rfl hc
    | here =>
      refine h.concat (Nat.le_refl ups) (.inl rfl) ?_
      rw [hclimbs, hdescents]
      exact hends
    | name n =>
      refine h.concat (Nat.le_refl ups) (.inl rfl) ?_
      rw [hclimbs, hdescents, List.length_append, List.length_singleton]
      simp only [Component.isUp, Component.isName, Bool.false_eq_true, if_false, if_true]
      omega
    | up =>
      simp only [Component.isUp, Component.isName, Bool.false_eq_true, if_false, if_true]
        at hclimbs hdescents
      cases names with
      | nil =>
        -- nothing is left to take back, so this is the highest point so far
        refine h.concat (Nat.le_succ ups) (.inr rfl) ?_
        rw [List.length_nil] at hends ⊢
        omega
      | cons m names =>
        refine h.concat (Nat.le_refl ups) (.inl rfl) ?_
        rw [List.length_cons] at hends
        rw [List.length_dropLast, List.length_cons]
        omega

theorem climbs_foldl_follow (cs : List (Component α)) (hcs : .root ∉ cs) :
    ∀ (done : List (Component α)) (r : Route α), r.Climbs done →
      (cs.foldl follow r).Climbs (done ++ cs) := by
  induction cs with
  | nil =>
    intro done r h
    rwa [List.append_nil]
  | cons c cs ih =>
    intro done r h
    have hc : c ≠ .root := fun heq => hcs (heq ▸ List.mem_cons_self)
    have hrest := ih (fun hmem => hcs (List.mem_cons_of_mem c hmem)) (done ++ [c]) (r.follow c)
      (climbs_follow h hc)
    rwa [List.append_assoc, List.singleton_append] at hrest

/-- The components of a route begin with its steps up. -/
theorem length_takeWhile_isUp (ups : Nat) (names : List (List α)) :
    ((fromHere ups names).components.takeWhile Component.isUp).length = ups := by
  have hnames : (names.map Component.name).takeWhile Component.isUp = [] := by
    cases names <;> simp [Component.isUp]
  unfold components
  split
  · next h => cases h
  · next h => cases h; rfl
  · next h =>
    cases h
    rw [List.takeWhile_append_of_pos (by simp [Component.isUp]), hnames, List.append_nil,
      List.length_replicate]

/-! ## 3. Staying inside -/

theorem components_fromRoot_prefix_iff {names names' : List (List α)} :
    (fromRoot names).components <+: (fromRoot names').components ↔ names <+: names' := by
  rw [components, components, List.cons_prefix_cons, eq_self, true_and]
  exact List.prefix_map_iff_of_injective fun _ _ heq => Component.name.inj heq

variable [PathChar α]

theorem exists_isName_ne (m : List α) : ∃ n : List α, IsName n ∧ n ≠ m := by
  by_cases h : m = [dot, dot, dot]
  · exact ⟨[dot, dot, dot, dot], by simp [IsName, Path.here, Path.up, PathChar.slash_ne_dot],
      by simp [h]⟩
  · exact ⟨[dot, dot, dot], by simp [IsName, Path.here, Path.up, PathChar.slash_ne_dot],
      Ne.symm h⟩

/-- From every directory a route leads to a place inside of it if it has
no step up, and only then. -/
theorem prefix_reach_iff (ups : Nat) (names : List (List α)) :
    (∀ cwd, (∀ n ∈ cwd, IsName n) → cwd <+: (fromHere ups names).reach cwd) ↔ ups = 0 := by
  constructor
  · intro hinside
    cases ups with
    | zero => rfl
    | succ k =>
      obtain ⟨n, hn, hne⟩ := exists_isName_ne (names.headD [])
      have hprefix := hinside [n] (by simpa using hn)
      -- the name is left, and another one or none is entered
      have hreach : (fromHere (k + 1) names).reach [n] = names := by simp [reach]
      rw [hreach] at hprefix
      obtain ⟨rest, rfl⟩ := hprefix
      exact absurd rfl hne
  · rintro rfl cwd _
    simp [reach]

/-! ## 4. The route of a path -/

variable [DecidableEq α]

/-- The steps up in front of the route of a relative path are its climb. -/
theorem isClimb_ofPath {p : Path α} (h : ¬ p.IsAbsolute) :
    ∃ ups names, ofPath p = .fromHere ups names ∧ IsClimb p.components ups names.length := by
  obtain ⟨ups, names, hroute⟩ := ofPath_of_not_isAbsolute h
  have hclimbs := climbs_foldl_follow p.components (Path.root_notMem_components h) []
    (.fromHere 0 []) .nil
  rw [← ofPath, hroute] at hclimbs
  exact ⟨ups, names, hroute, hclimbs⟩

theorem ofPath_join_of_isAbsolute {b : Path α} (hb : b.IsAbsolute) (p : Path α) :
    ∃ names, ofPath b = .fromRoot names ∧
      ofPath (b.join p) = .fromRoot ((ofPath p).reach names) := by
  obtain ⟨names, hnames⟩ := ofPath_of_isAbsolute hb
  obtain ⟨joined, hjoined⟩ := ofPath_of_isAbsolute (Path.isAbsolute_join.mpr (.inl hb))
  have hplace : joined = (ofPath p).reach names := by
    have hresolve := Path.resolve_join [] b p
    rwa [resolve_eq_reach, resolve_eq_reach, resolve_eq_reach, hnames, hjoined] at hresolve
  exact ⟨names, hnames, by rw [hjoined, hplace]⟩

end Route

namespace Path

/-! ## 5. Bases -/

variable [PathChar α] [DecidableEq α]

/-- A path stays inside of all absolute bases if its route has no step
up. -/
theorem prefix_canonical_join_iff {p : Path α} {ups : Nat} {names : List (List α)}
    (hp : Route.ofPath p = .fromHere ups names) :
    (∀ b : Path α, b.IsAbsolute → b.canonical.components <+: (b.join p).canonical.components) ↔
      ups = 0 := by
  rw [← Route.prefix_reach_iff ups names, ← hp]
  constructor
  · intro hinside cwd hcwd
    have hproper : (Route.fromRoot cwd).IsProper := hcwd
    have habs : (Route.fromRoot cwd).toPath.IsAbsolute := isAbsolute_cons_slash _
    have hprefix := hinside _ habs
    obtain ⟨names', hb, hjoin⟩ := Route.ofPath_join_of_isAbsolute habs p
    rw [components_canonical, components_canonical, hb, hjoin,
      Route.components_fromRoot_prefix_iff] at hprefix
    rw [Route.ofPath_toPath hproper] at hb
    cases hb
    exact hprefix
  · intro hinside b hb
    obtain ⟨names', hnames, hjoin⟩ := Route.ofPath_join_of_isAbsolute hb p
    rw [components_canonical, components_canonical, hnames, hjoin,
      Route.components_fromRoot_prefix_iff]
    have hproper := Route.isProper_ofPath b
    rw [hnames] at hproper
    exact hinside names' hproper

/-- **A relative path stays inside of the base if it never climbs more than
it has descended.** Unless it begins with a tilde, the path that it is
anchored to begins with the components of the base for every absolute base
if and only if no prefix of its components has more steps up than names.
The steps up in front of its canonical path are the largest excess of steps
up over names in a prefix, which is 0 at least, since no component at all
is a prefix too. -/
theorem anchor_stays_inside_iff {p : Path Char} (hrel : ¬ p.IsAbsolute) :
    (p.components.head? ≠ some (.name tilde) → ∀ home : Option (Path Char),
      (∀ b : Path Char, b.IsAbsolute → b.canonical.components <+: (anchor home b p).components) ↔
        ∀ q, q <+: p.components → climbs q ≤ descents q) ∧
    let ups := (p.canonical.components.takeWhile Component.isUp).length
    (∀ q, q <+: p.components → climbs q ≤ descents q + ups) ∧
      ∃ q, q <+: p.components ∧ climbs q = descents q + ups := by
  obtain ⟨ups, names, hroute, hclimb⟩ := Route.isClimb_ofPath hrel
  have hups : (p.canonical.components.takeWhile Component.isUp).length = ups := by
    rw [components_canonical, hroute, Route.length_takeWhile_isUp]
  constructor
  · intro hhead home
    have hanchor : ∀ b, anchor home b p = (b.join p).canonical := fun b => by
      rw [anchor, expandTilde_of_head?_ne hhead]
    simp only [hanchor]
    exact (prefix_canonical_join_iff hroute).trans hclimb.ups_eq_zero_iff
  · rw [hups]
    exact ⟨hclimb.most, hclimb.reached⟩

/-- The path climbs out twice, one directory each time, with names around
the steps up, and the last name is entered too late. -/
theorem anchor_stays_inside_iff_climbing :
    let p : Path Char := "./a/../..//b/../../c".toList
    ¬ p.IsAbsolute ∧ p.components.head? ≠ some (.name tilde) ∧
      p.canonical = "../../c".toList ∧
      (∀ q, q <+: p.components → climbs q ≤ descents q + 2) ∧
      ¬ ∀ b : Path Char, b.IsAbsolute →
        b.canonical.components <+: (anchor none b p).components := by
  intro p
  have hrel : ¬ p.IsAbsolute := by decide
  have hhead : p.components.head? ≠ some (.name tilde) := by decide
  obtain ⟨hinside, hmost, -⟩ := anchor_stays_inside_iff hrel
  refine ⟨hrel, hhead, by decide, hmost, fun hprefix => ?_⟩
  have hnever := (hinside hhead none).mp hprefix (p.components.take 4) (List.take_prefix 4 _)
  exact absurd hnever (by decide)

/-- Back to the base by its name: this base does not show that it was
left. -/
example : canonical "/a".toList = anchor none "/a".toList "../a".toList := by decide

end Path

end BenchConfig
