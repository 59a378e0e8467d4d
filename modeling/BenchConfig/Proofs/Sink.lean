/-
BenchConfig.Proofs.Sink — what a sink holds after a write.

However a sink shares out what it is offered, it ends up with the part of
the data for which it has room, and a write fails exactly if that is not
all of it (`write_eq`). Only the room matters, so writing several
sequences one after another is writing them as one (`send_eq`).

Two sorts of sinks stand at the ends: those without a limit, which take
everything (`written_of_limit_eq_none`), and those that are full from the
start and say why (`Refuses.written`).
-/
import BenchConfig.Sink

namespace BenchConfig.Sink

/-- The fault that a write to the sink runs into when it is full. -/
def refusal (s : Sink) : Fault :=
  match s.whenFull with
  | .refuse fault => fault
  | .takeNothing => .sinkStalled

/-- There is room for all of the data. -/
def Fits (s : Sink) (data : Bytes) : Prop :=
  data.length ≤ s.room data.length

instance (s : Sink) (data : Bytes) : Decidable (s.Fits data) :=
  inferInstanceAs (Decidable (_ ≤ _))

/-- The part of the data for which there is room. -/
def fitting (s : Sink) (data : Bytes) : Bytes :=
  data.take (s.room data.length)

variable {s : Sink} {data x y : Bytes}

/-! ## 1. Room -/

theorem le_room {k n : Nat} : k ≤ s.room n ↔ k ≤ n ∧ k ≤ s.room k := by
  unfold room
  cases s.limit with
  | none => simp
  | some limit => simp only; omega

theorem room_le (s : Sink) (n : Nat) : s.room n ≤ n :=
  (le_room.mp (Nat.le_refl _)).1

theorem fitting_of_fits (h : s.Fits data) : s.fitting data = data :=
  List.take_of_length_le h

@[simp] theorem held_take (s : Sink) (x : Bytes) : (s.take x).held = s.held ++ x := rfl

@[simp] theorem flush_take (s : Sink) (x : Bytes) : (s.take x).flush = s.flush := rfl

@[simp] theorem take_nil (s : Sink) : s.take [] = s := by
  simp [take]

theorem take_take (s : Sink) (x y : Bytes) : (s.take x).take y = s.take (x ++ y) := by
  simp [take]

/-- What has been taken takes up room. -/
theorem room_take (h : s.Fits x) (n : Nat) :
    s.room (x.length + n) = x.length + (s.take x).room n := by
  unfold Fits room at *
  cases hlimit : s.limit with
  | none => simp only [take, hlimit]
  | some limit => simp only [take, hlimit, List.length_append] at *; omega

theorem fits_append : s.Fits (x ++ y) ↔ s.Fits x ∧ (s.take x).Fits y := by
  constructor
  · intro h
    rw [Fits, List.length_append] at h
    have hx : s.Fits x := (le_room.mp (Nat.le_trans (Nat.le_add_right _ _) h)).2
    rw [room_take hx] at h
    exact ⟨hx, Nat.le_of_add_le_add_left h⟩
  · rintro ⟨hx, hy⟩
    rw [Fits, List.length_append, room_take hx]
    exact Nat.add_le_add_left hy _

theorem fitting_append (h : s.Fits x) (y : Bytes) :
    s.fitting (x ++ y) = x ++ (s.take x).fitting y := by
  rw [fitting, List.length_append, room_take h, List.take_length_add_append, fitting]

/-- A sink that has no room for the beginning takes nothing behind it. -/
theorem fitting_append_of_not_fits (h : ¬ s.Fits x) (y : Bytes) :
    s.fitting (x ++ y) = s.fitting x := by
  have hroom : s.room (x ++ y).length = s.room x.length := by
    rw [Fits] at h
    rw [List.length_append]
    unfold room at *
    cases hlimit : s.limit with
    | none => simp [hlimit] at h
    | some limit => simp only [hlimit] at *; omega
  rw [fitting, fitting, hroom, List.take_append_of_le_length (room_le s _)]

/-! ## 2. One attempt -/

theorem taken_pos (s : Sink) {n : Nat} (h : 0 < n) : 0 < s.taken n := by
  unfold taken
  split
  · exact h
  · next share hshare => exact Nat.lt_min.mpr ⟨h, s.share_pos share hshare⟩

theorem taken_le (s : Sink) (n : Nat) : s.taken n ≤ n := by
  unfold taken
  split
  · exact Nat.le_refl n
  · exact Nat.min_le_left n _

/-- An attempt fails, in one of the two ways of a full sink, or it takes
something for which there is room. -/
theorem offer_cases (s : Sink) (data : Bytes) :
    (s.room data.length = 0 ∧ s.offer data = .error s.refusal) ∨
    (s.room data.length = 0 ∧ s.offer data = .ok 0 ∧ s.refusal = .sinkStalled) ∨
    ∃ n, s.offer data = .ok (n + 1) ∧ n + 1 ≤ s.room data.length := by
  unfold offer refusal
  by_cases hroom : s.room data.length = 0
  · cases s.whenFull <;> simp [hroom]
  · have hpos := s.taken_pos (Nat.pos_of_ne_zero hroom)
    have hle := s.taken_le (s.room data.length)
    refine .inr (.inr ⟨s.taken (s.room data.length) - 1, ?_, by omega⟩)
    rw [if_neg hroom, Nat.sub_add_cancel hpos]

/-! ## 3. Writing -/

/-- What a write comes to. -/
def written (s : Sink) (done : Except Fault Unit) (data : Bytes) : Except Fault Unit × Sink :=
  (if s.Fits data then done else .error s.refusal, s.take (s.fitting data))

theorem written_of_room_eq_zero (hroom : s.room data.length = 0) (hne : data ≠ [])
    (done : Except Fault Unit) : s.written done data = (.error s.refusal, s) := by
  have hpos := List.length_pos_iff.mpr hne
  have hfits : ¬ s.Fits data := by rw [Fits, hroom]; omega
  simp [written, hfits, fitting, hroom]

theorem written_append (h : s.Fits x) (done : Except Fault Unit) (y : Bytes) :
    s.written done (x ++ y) = (s.take x).written done y := by
  simp only [written, fits_append, h, true_and, fitting_append h, take_take]
  rfl

/-- Success means that the sink has taken all. -/
theorem eq_take_of_written_eq_ok {done : Except Fault Unit} {s' : Sink}
    (h : s.written done data = (.ok (), s')) : s' = s.take data := by
  unfold written at h
  by_cases hfits : s.Fits data
  · rw [fitting_of_fits hfits] at h
    exact (congrArg Prod.snd h).symm
  · rw [if_neg hfits] at h
    cases h

/-- The sink takes the data as far as there is room. -/
theorem write_eq (s : Sink) (data : Bytes) : s.write data = s.written (.ok ()) data := by
  fun_induction write s data with
  | case1 s => simp [written, Fits, fitting]
  | case2 s data hne fault hoffer =>
    obtain ⟨hroom, h⟩ | ⟨-, h, -⟩ | ⟨n, h, -⟩ := s.offer_cases data
    · rw [written_of_room_eq_zero hroom hne]
      cases hoffer.symm.trans h
      rfl
    · cases hoffer.symm.trans h
    · cases hoffer.symm.trans h
  | case3 s data hne hoffer =>
    obtain ⟨-, h⟩ | ⟨hroom, -, hstalled⟩ | ⟨n, h, -⟩ := s.offer_cases data
    · cases hoffer.symm.trans h
    · rw [written_of_room_eq_zero hroom hne, hstalled]
    · cases hoffer.symm.trans h
  | case4 s data hne n hoffer ih =>
    have hroom : n + 1 ≤ s.room data.length := by
      obtain ⟨-, h⟩ | ⟨-, h, -⟩ | ⟨m, h, hm⟩ := s.offer_cases data
      · cases hoffer.symm.trans h
      · cases hoffer.symm.trans h
      · cases hoffer.symm.trans h
        exact hm
    have hlen : (data.take (n + 1)).length = n + 1 := by
      rw [List.length_take]
      have := s.room_le data.length
      omega
    -- what the attempt took fits, so the rest is written as if behind it
    have hfits : s.Fits (data.take (n + 1)) := by
      rw [Fits, hlen]
      exact (le_room.mp hroom).2
    rw [ih, ← written_append hfits, List.take_append_drop]

theorem write_of_fits (h : s.Fits data) : s.write data = (.ok (), s.take data) := by
  rw [write_eq, written, if_pos h, fitting_of_fits h]

theorem write_of_not_fits (h : ¬ s.Fits data) :
    s.write data = (.error s.refusal, s.take (s.fitting data)) := by
  rw [write_eq, written, if_neg h]

/-- Sequences that are written one after another are written as one. -/
theorem send_eq (parts : List Bytes) : ∀ s : Sink,
    s.send parts = s.written s.flush parts.flatten := by
  induction parts with
  | nil =>
    intro s
    simp [send, written, Fits, fitting]
  | cons data parts ih =>
    intro s
    rw [send, List.flatten_cons]
    by_cases hfits : s.Fits data
    · rw [write_of_fits hfits, written_append hfits]
      exact ih (s.take data)
    · have hall : ¬ s.Fits (data ++ parts.flatten) := fun h => hfits (fits_append.mp h).1
      rw [write_of_not_fits hfits, written, if_neg hall, fitting_append_of_not_fits hfits]

/-! ## 4. All or nothing -/

/-- The sink takes whatever it is given and delivers it. -/
def TakesAll (s : Sink) : Prop :=
  s.limit = none ∧ s.flushFault = none

/-- Every attempt to write something runs into the fault. -/
def Refuses (fault : Fault) (s : Sink) : Prop :=
  s.limit = some 0 ∧ s.whenFull = .refuse fault

theorem Refuses.not_takesAll {fault : Fault} (h : s.Refuses fault) : ¬ s.TakesAll := by
  rintro ⟨hlimit, -⟩
  cases hlimit.symm.trans h.1

theorem TakesAll.flush (h : s.TakesAll) : s.flush = .ok () := by
  simp [Sink.flush, h.2]

theorem written_of_limit_eq_none (h : s.limit = none) (done : Except Fault Unit) (data : Bytes) :
    s.written done data = (done, s.take data) := by
  have hfits : s.Fits data := by simp [Fits, room, h]
  rw [written, if_pos hfits, fitting_of_fits hfits]

theorem Refuses.written {fault : Fault} (h : s.Refuses fault) (hne : data ≠ [])
    (done : Except Fault Unit) : s.written done data = (.error fault, s) := by
  obtain ⟨hlimit, hfull⟩ := h
  have hroom : s.room data.length = 0 := by simp [room, hlimit]
  have hrefusal : s.refusal = fault := by rw [refusal, hfull]
  rw [written_of_room_eq_zero hroom hne, hrefusal]

end BenchConfig.Sink
