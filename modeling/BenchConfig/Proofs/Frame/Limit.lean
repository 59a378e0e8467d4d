/-
BenchConfig.Proofs.Frame.Limit — presenting a bench to a sink that may be
too small for it.

A bench is presented piece by piece, and a sink takes each piece in shares
of its own size. None of this can be seen afterwards. The pieces make up
one frame (`Bench.present_eq`), and a new sink takes of a sequence what its
limit allows (`fitting_of_held_eq_nil`), wherever the limit cuts it: in a
line, between two pieces, or inside a character. The fault of a full sink
is reported exactly when something was cut off. Only without that fault
does it matter whether the sink can be flushed.
-/
import BenchConfig.Proofs.Frame

namespace BenchConfig

/-! ## 1. New sinks -/

namespace Sink

/-- The sink has a limit, and the data goes beyond it. -/
def Cuts (s : Sink) (data : Bytes) : Prop :=
  ∃ limit, s.limit = some limit ∧ limit < data.length

variable {s : Sink}

theorem fits_of_held_eq_nil (h : s.held = []) (data : Bytes) : s.Fits data ↔ ¬ s.Cuts data := by
  unfold Fits room Cuts
  cases s.limit with
  | none => simp
  | some limit =>
    simp only [h, List.length_nil, Nat.sub_zero, Option.some.injEq, exists_eq_left']
    omega

theorem fitting_of_held_eq_nil (h : s.held = []) (data : Bytes) :
    s.fitting data = s.limit.elim data data.take := by
  unfold fitting room
  cases s.limit with
  | none => simp
  | some limit =>
    simp only [h, List.length_nil, Nat.sub_zero, Option.elim_some, Nat.min_comm,
      ← List.take_eq_take_min]

theorem flush_eq_error_iff {fault : Fault} :
    s.flush = .error fault ↔ s.flushFault = some fault := by
  unfold flush
  cases s.flushFault <;> simp

/-- What a new sink holds after a write, and how the write ends. -/
theorem written_of_held_eq_nil (h : s.held = []) (done : Except Fault Unit) (data : Bytes) :
    (s.written done data).2.held = s.limit.elim data data.take ∧
      (s.Cuts data → (s.written done data).1 = .error s.refusal) ∧
      (¬ s.Cuts data → (s.written done data).1 = done) := by
  refine ⟨?_, fun hcuts => ?_, fun hcuts => ?_⟩
  · rw [written, held_take, h, List.nil_append, fitting_of_held_eq_nil h]
  · exact if_neg fun hfits => (fits_of_held_eq_nil h data).mp hfits hcuts
  · exact if_pos ((fits_of_held_eq_nil h data).mpr hcuts)

end Sink

/-! ## 2. Frames -/

/-- **A sink with a limit gets the beginning of the frame**, as much as
fits, and the fault of a full sink is reported exactly when that is not
all. Otherwise the answer is that of the flush. The size of the shares in
which the sink takes octets makes no difference, nor do the pieces in
which the frame is written. -/
theorem presented_bench_is_cut_at_limit (b : Bench) (s : Sink) (hheld : s.held = []) :
    let frame := Utf8.encode
      (Frame.beginMarker ++ '\n' :: b.text ++ Frame.endMarker ++ ['\n', '\n'])
    (b.present s).2.held = s.limit.elim frame frame.take ∧
    (s.Cuts frame → (b.present s).1 = .error s.refusal) ∧
    (¬ s.Cuts frame → (b.present s).1 = s.flush) ∧
    (s.flushFault ≠ some s.refusal →
      ((b.present s).1 = .error s.refusal ↔ s.Cuts frame)) ∧
    (s.whenFull = .refuse .sinkFull → s.refusal.kind = "Other".toList) ∧
    (s.whenFull = .takeNothing → s.refusal.kind = "WriteZero".toList) ∧
    (∀ share hshare, (b.present { s with share := share, share_pos := hshare }).1
        = (b.present s).1 ∧
      (b.present { s with share := share, share_pos := hshare }).2.held
        = (b.present s).2.held) ∧
    ∀ parts : List Bytes, parts.flatten = frame → s.send parts = b.present s := by
  intro frame
  have hframe : Utf8.encode (Frame.wrap b.text) = frame := by rw [Frame.wrap_text]
  have hpresent : ∀ t : Sink, b.present t = t.written t.flush frame := by
    intro t
    rw [b.present_eq, hframe]
  obtain ⟨htaken, hcut, hwhole⟩ := Sink.written_of_held_eq_nil hheld s.flush frame
  rw [← hpresent] at htaken hcut hwhole
  refine ⟨htaken, hcut, hwhole, fun hflush => ⟨fun hfull => ?_, hcut⟩, fun h => ?_, fun h => ?_,
    fun share hshare => ?_, fun parts hparts => ?_⟩
  · by_cases hcuts : s.Cuts frame
    · exact hcuts
    · rw [hwhole hcuts, Sink.flush_eq_error_iff] at hfull
      exact absurd hfull hflush
  · rw [Sink.refusal, h]; rfl
  · rw [Sink.refusal, h]; rfl
  · rw [hpresent, hpresent]
    exact ⟨rfl, rfl⟩
  · rw [Sink.send_eq, hparts, hpresent]

/-- The limit falls into a character of two octets, the sink takes five
octets at once, and the flush would fail too. -/
theorem presented_bench_is_cut_at_limit_in_character :
    let b : Bench := ⟨⟨['é'], []⟩, ⟨[], []⟩⟩
    let s : Sink :=
      { limit := some 55, share := some 5, share_pos := by rintro n ⟨⟩; decide,
        whenFull := .takeNothing, flushFault := some .flushFailed }
    s.held = [] ∧ (b.present s).1 = .error .sinkStalled ∧
      (b.present s).2.held
        = Utf8.encode (Frame.beginMarker ++ "\n[RISCOF]\nReferencePlugin=".toList) ++ [195] := by
  intro b s
  obtain ⟨hheld, hcut, -⟩ := presented_bench_is_cut_at_limit b s rfl
  refine ⟨rfl, hcut ⟨55, rfl, by decide +kernel⟩, ?_⟩
  rw [hheld]
  decide

end BenchConfig
