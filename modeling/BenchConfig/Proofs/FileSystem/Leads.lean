/-
BenchConfig.Proofs.FileSystem.Leads — the place that a path leads to, by
rules.

`Leads fs k d ps e n` says that from the directory `d` on, the pieces
`ps` lead to the entry `n` of the directory `e`, with `k` links followed
at most. There is one rule for each thing that can happen to a piece.
The last piece has to be a name. What is there is left open, except that
it is no link: a link is followed, also when its target does not exist.

* `walk_eq_ok_iff`: walks for `through` and for `fill` arrive at an
  entry, with nothing behind its name, exactly where the rules say.
* `Leads.unique`: there is at most one such place.
* `SameWays.leads`: the rules look at directories and links only.
  Whatever else changes, the ways stay the same.
-/
import BenchConfig.FileSystem.Walk

namespace BenchConfig.FileSystem

/-! ## 1. The rules -/

/-- A piece that is looked up in a directory. -/
def IsStep (q : List UInt8) : Prop :=
  ¬ Path.IsIdle q ∧ q ≠ Path.up ∧ q.length ≤ maxName

/-- Where pieces lead from a directory, with some links at most. -/
inductive Leads (fs : FileSystem) :
    Nat → Location → List (List UInt8) → Location → Name → Prop
  | idle {k d q ps e n} : Path.IsIdle q → Leads fs k d ps e n → Leads fs k d (q :: ps) e n
  | up {k d ps e n} : Leads fs k d.dropLast ps e n → Leads fs k d (Path.up :: ps) e n
  | down {k d q ps e n} : IsStep q → fs.IsDirectory (d ++ [q]) →
      Leads fs k (d ++ [q]) ps e n → Leads fs k d (q :: ps) e n
  | link {k d q ps e n target} : IsStep q → fs.get? (d ++ [q]) = some (.link target) →
      Leads fs k (origin d target) (target.pieces ++ ps) e n → Leads fs (k + 1) d (q :: ps) e n
  | last {k d q} : IsStep q → (∀ target, fs.get? (d ++ [q]) ≠ some (.link target)) →
      Leads fs k d [q] d q

/-- Where a path leads, for someone who stands in `cwd`. -/
def LeadsTo (fs : FileSystem) (cwd : Location) (p : Path UInt8) (e : Location) (n : Name) : Prop :=
  ∃ k, Leads fs k (origin cwd p) p.pieces e n

namespace Leads

variable {fs : FileSystem} {k l : Nat} {d e e' : Location} {ps : List (List UInt8)} {n n' : Name}

theorem mono (h : Leads fs k d ps e n) : k ≤ l → Leads fs l d ps e n := by
  induction h generalizing l with
  | idle hq _ ih => exact fun hkl => .idle hq (ih hkl)
  | up _ ih => exact fun hkl => .up (ih hkl)
  | down hq hdir _ ih => exact fun hkl => .down hq hdir (ih hkl)
  | link hq hlink _ ih =>
    intro hkl
    obtain ⟨l, rfl⟩ := Nat.exists_eq_add_one_of_ne_zero (n := l) (by omega)
    exact .link hq hlink (ih (by omega))
  | last hq hnot => exact fun _ => .last hq hnot

/-- What is arrived at has been looked up. -/
theorem isStep (h : Leads fs k d ps e n) : IsStep n := by
  induction h with
  | idle _ _ ih | up _ ih | down _ _ _ ih | link _ _ _ ih => exact ih
  | last hq _ => exact hq

/-- The pieces end in one that is not idle. -/
theorem getLast?_eq (h : Leads fs k d ps e n) : ∃ q, ps.getLast? = some q ∧ ¬ Path.IsIdle q := by
  induction h with
  | idle _ _ ih | up _ ih | down _ _ _ ih =>
    obtain ⟨q, hlast, hq⟩ := ih
    exact ⟨q, by simp [List.getLast?_cons, hlast], hq⟩
  | @link k d q ps e n target hq _ _ ih =>
    obtain ⟨r, hlast, hr⟩ := ih
    cases ps with
    | nil => exact ⟨q, rfl, hq.1⟩
    | cons p ps => exact ⟨r, by simpa [List.getLast?_append, List.getLast?_cons] using hlast, hr⟩
  | @last k d q hq _ => exact ⟨q, rfl, hq.1⟩

end Leads

/-! ## 2. Walks follow the rules -/

theorem lookup?_eq_ok {fs : FileSystem} {d : Location} {n : Name} {x : Option Node} :
    fs.lookup? d n = .ok x ↔ n.length ≤ maxName ∧ fs.get? (d ++ [n]) = x := by
  unfold lookup?
  split
  · next h => simp; omega
  · next h => simp; omega

/-- What goes on behind a link, when `k` more may be followed. -/
def onward (fs : FileSystem) (reach : Reach) :
    Nat → Location → List (List UInt8) → Except Fault Landing
  | 0 => fun _ _ => .error .linkLoop
  | k + 1 => fs.walk reach k

theorem walk_eq (fs : FileSystem) (reach : Reach) (k : Nat) :
    fs.walk reach k = fs.walkPieces reach (fs.onward reach k) := by
  cases k <;> rfl

section

variable {fs : FileSystem} {reach : Reach} (hreach : reach ≠ .entry)
  {follow : Location → List (List UInt8) → Except Fault Landing}
  {d e : Location} {q : List UInt8} {ps : List (List UInt8)} {n : Name}

include hreach

/-- All that can come of one piece on a walk that arrives. -/
theorem walkPieces_cons_cases (h : fs.walkPieces reach follow d (q :: ps) = .ok (.at e n false)) :
    (Path.IsIdle q ∧ fs.walkPieces reach follow d ps = .ok (.at e n false)) ∨
    (q = Path.up ∧ fs.walkPieces reach follow d.dropLast ps = .ok (.at e n false)) ∨
    (IsStep q ∧ fs.IsDirectory (d ++ [q]) ∧
      fs.walkPieces reach follow (d ++ [q]) ps = .ok (.at e n false)) ∨
    (IsStep q ∧ ∃ target, fs.get? (d ++ [q]) = some (.link target) ∧
      follow (origin d target) (target.pieces ++ ps) = .ok (.at e n false)) ∨
    (IsStep q ∧ (∀ target, fs.get? (d ++ [q]) ≠ some (.link target)) ∧
      ps = [] ∧ e = d ∧ n = q) := by
  rw [walkPieces] at h
  by_cases hidle : Path.IsIdle q
  · rw [if_pos hidle] at h
    exact .inl ⟨hidle, h⟩
  by_cases hup : q = Path.up
  · rw [if_neg hidle, if_pos hup] at h
    exact .inr (.inl ⟨hup, h⟩)
  rw [if_neg hidle, if_neg hup] at h
  refine .inr (.inr ?_)
  split at h
  · split at h
    · next hfollows =>
      obtain rfl := hfollows.2
      split at h
      · cases h
      · next target hentry =>
        obtain ⟨hlen, hget⟩ := lookup?_eq_ok.mp hentry
        exact .inr (.inl ⟨⟨hidle, hup, hlen⟩, target, hget, h⟩)
      · next hnot hentry =>
        cases h
        obtain ⟨hlen, rfl⟩ := lookup?_eq_ok.mp hentry
        exact .inr (.inr ⟨⟨hidle, hup, hlen⟩, hnot, rfl, rfl, rfl⟩)
    · next hfollows =>
      -- something stands behind the name, so the landing says so
      simp only [Except.ok.injEq, Landing.at.injEq, decide_eq_false_iff_not] at h
      exact absurd ⟨hreach, Decidable.not_not.mp h.2.2⟩ hfollows
  · split at h
    · cases h
    · cases h
    · next hentry =>
      obtain ⟨hlen, hget⟩ := lookup?_eq_ok.mp hentry
      exact .inl ⟨⟨hidle, hup, hlen⟩, hget, h⟩
    · next target hentry =>
      obtain ⟨hlen, hget⟩ := lookup?_eq_ok.mp hentry
      exact .inr (.inl ⟨⟨hidle, hup, hlen⟩, target, hget, h⟩)
    · cases h

/-- The sound half, for one stretch between two links. -/
theorem leads_of_walkPieces {k : Nat}
    (hfollow : ∀ d ps, follow d ps = .ok (.at e n false) → ∃ j, k = j + 1 ∧ Leads fs j d ps e n) :
    ∀ ps d, fs.walkPieces reach follow d ps = .ok (.at e n false) → Leads fs k d ps e n := by
  intro ps
  induction ps with
  | nil => intro d h; simp [walkPieces] at h
  | cons q ps ih =>
    intro d h
    rcases walkPieces_cons_cases hreach h with ⟨hidle, h⟩ | ⟨rfl, h⟩ | ⟨hq, hdir, h⟩ |
      ⟨hq, target, hlink, h⟩ | ⟨hq, hnot, rfl, rfl, rfl⟩
    · exact .idle hidle (ih d h)
    · exact .up (ih _ h)
    · exact .down hq hdir (ih _ h)
    · obtain ⟨j, rfl, hj⟩ := hfollow _ _ h
      exact .link hq hlink hj
    · exact .last hq hnot

end

theorem leads_of_walk {fs : FileSystem} {reach : Reach} (hreach : reach ≠ .entry)
    {e : Location} {n : Name} : ∀ (k : Nat) (d : Location) (ps : List (List UInt8)),
      fs.walk reach k d ps = .ok (.at e n false) → Leads fs k d ps e n := by
  intro k
  induction k with
  | zero =>
    intro d ps h
    rw [walk_eq] at h
    exact leads_of_walkPieces hreach (fun _ _ hto => by cases hto) ps d h
  | succ k ih =>
    intro d ps h
    rw [walk_eq] at h
    exact leads_of_walkPieces hreach (fun d ps hto => ⟨k, rfl, ih d ps hto⟩) ps d h

/-- Names that are followed by something else are not the last ones. -/
theorem not_endsBefore {reach : Reach} (hreach : reach ≠ .entry) {q : List UInt8}
    {ps : List (List UInt8)} (hlast : ps.getLast? = some q) (hq : ¬ Path.IsIdle q) :
    ¬ reach.EndsBefore ps := by
  have hmem : q ∈ ps := List.mem_of_getLast? hlast
  cases reach with
  | through => rintro rfl; cases hmem
  | fill => exact fun hall => hq (Or.inl (hall q hmem))
  | entry => exact absurd rfl hreach

theorem walk_of_leads {fs : FileSystem} {reach : Reach} (hreach : reach ≠ .entry) {k : Nat}
    {d e : Location} {ps : List (List UInt8)} {n : Name} (h : Leads fs k d ps e n) :
    fs.walk reach k d ps = .ok (.at e n false) := by
  induction h with
  | idle hq _ ih => rwa [walk_eq, walkPieces, if_pos hq, ← walk_eq]
  | up _ ih => rwa [walk_eq, walkPieces, if_neg (by decide), if_pos rfl, ← walk_eq]
  | @down k d q ps e n hq hdir hps ih =>
    obtain ⟨r, hlast, hr⟩ := hps.getLast?_eq
    have hentry : fs.lookup? d q = .ok (some .directory) := lookup?_eq_ok.mpr ⟨hq.2.2, hdir⟩
    rw [walk_eq, walkPieces, if_neg hq.1, if_neg hq.2.1,
      if_neg (not_endsBefore hreach hlast hr), hentry, ← walk_eq]
    exact ih
  | @link k d q ps e n target hq hget hps ih =>
    have hentry : fs.lookup? d q = .ok (some (.link target)) := lookup?_eq_ok.mpr ⟨hq.2.2, hget⟩
    rw [walk_eq, walkPieces, if_neg hq.1, if_neg hq.2.1]
    obtain ⟨r, hlast, hr⟩ := hps.getLast?_eq
    by_cases hnil : ps = []
    · subst hnil
      have hends : reach.EndsBefore [] := by cases reach <;> simp [Reach.EndsBefore]
      rw [if_pos hends, if_pos ⟨hreach, rfl⟩, hentry]
      exact ih
    · have hlast : ps.getLast? = some r := by
        simpa [List.getLast?_append, List.getLast?_eq_some_getLast hnil] using hlast
      rw [if_neg (not_endsBefore hreach hlast hr), hentry]
      exact ih
  | @last k d q hq hnot =>
    have hends : reach.EndsBefore [] := by cases reach <;> simp [Reach.EndsBefore]
    have hentry : fs.lookup? d q = .ok (fs.get? (d ++ [q])) := lookup?_eq_ok.mpr ⟨hq.2.2, rfl⟩
    rw [walk_eq, walkPieces, if_neg hq.1, if_neg hq.2.1, if_pos hends, if_pos ⟨hreach, rfl⟩,
      hentry]
    split
    · next h => cases h
    · next target h => exact absurd (Except.ok.inj h) (hnot target)
    · rfl

theorem walk_eq_ok_iff {fs : FileSystem} {reach : Reach} (hreach : reach ≠ .entry) {k : Nat}
    {d e : Location} {ps : List (List UInt8)} {n : Name} :
    fs.walk reach k d ps = .ok (.at e n false) ↔ Leads fs k d ps e n :=
  ⟨leads_of_walk hreach k d ps, walk_of_leads hreach⟩

theorem Leads.unique {fs : FileSystem} {k l : Nat} {d e e' : Location}
    {ps : List (List UInt8)} {n n' : Name} (h : Leads fs k d ps e n)
    (h' : Leads fs l d ps e' n') : e' = e ∧ n' = n := by
  have hreach : Reach.fill ≠ .entry := by decide
  have hwalk := walk_of_leads hreach (h.mono (Nat.le_max_left k l))
  rw [walk_of_leads hreach (h'.mono (Nat.le_max_right k l))] at hwalk
  simpa using hwalk

/-- There is at most one place that a path leads to. -/
theorem LeadsTo.unique {fs : FileSystem} {cwd e e' : Location} {p : Path UInt8} {n n' : Name}
    (h : fs.LeadsTo cwd p e n) (h' : fs.LeadsTo cwd p e' n') : e' = e ∧ n' = n := by
  obtain ⟨k, hk⟩ := h
  obtain ⟨l, hl⟩ := h'
  exact hk.unique hl

theorem land_eq_ok_iff {fs : FileSystem} {reach : Reach} (hreach : reach ≠ .entry)
    {cwd e : Location} {p : Path UInt8} {n : Name} :
    fs.land reach cwd p = .ok (.at e n false) ↔
      checkPath p = .ok () ∧ fs.IsDirectory (origin cwd p) ∧
        Leads fs maxLinks (origin cwd p) p.pieces e n := by
  rw [← walk_eq_ok_iff hreach, land]
  split
  · next fault hcheck => simp [hcheck]
  · next hcheck => split <;> simp_all

theorem leadsTo_of_land {fs : FileSystem} {reach : Reach} (hreach : reach ≠ .entry)
    {cwd e : Location} {p : Path UInt8} {n : Name}
    (h : fs.land reach cwd p = .ok (.at e n false)) : fs.LeadsTo cwd p e n :=
  ⟨maxLinks, ((land_eq_ok_iff hreach).mp h).2.2⟩

/-! ## 3. What ways depend on -/

/-- The two have the same directories and the same links. -/
structure SameWays (a b : FileSystem) : Prop where
  directory : ∀ l, b.IsDirectory l ↔ a.IsDirectory l
  link : ∀ l target, b.get? l = some (.link target) ↔ a.get? l = some (.link target)

namespace SameWays

variable {a b : FileSystem} {d e : Location} {n : Name}

theorem refl (a : FileSystem) : SameWays a a :=
  ⟨fun _ => Iff.rfl, fun _ _ => Iff.rfl⟩

theorem leads (h : SameWays a b) {k : Nat} {ps : List (List UInt8)} (hl : Leads a k d ps e n) :
    Leads b k d ps e n := by
  induction hl with
  | idle hq _ ih => exact .idle hq ih
  | up _ ih => exact .up ih
  | down hq hdir _ ih => exact .down hq ((h.directory _).mpr hdir) ih
  | link hq hlink _ ih => exact .link hq ((h.link _ _).mpr hlink) ih
  | last hq hnot => exact .last hq fun target hto => hnot target ((h.link _ target).mp hto)

/-- Whoever arrives in one arrives at the same entry in the other. -/
theorem land (h : SameWays a b) {reach reach' : Reach} (hreach : reach ≠ .entry)
    (hreach' : reach' ≠ .entry) {cwd : Location} {p : Path UInt8}
    (hl : a.land reach cwd p = .ok (.at e n false)) :
    b.land reach' cwd p = .ok (.at e n false) := by
  obtain ⟨hcheck, hdir, hleads⟩ := (land_eq_ok_iff hreach).mp hl
  exact (land_eq_ok_iff hreach').mpr ⟨hcheck, (h.directory _).mpr hdir, h.leads hleads⟩

end SameWays

end BenchConfig.FileSystem
