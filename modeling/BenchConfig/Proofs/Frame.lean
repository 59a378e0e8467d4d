/-
BenchConfig.Proofs.Frame — what presenting a bench writes, and how it is
read back.

* A frame is the configuration itself between two marker lines
  (`wrap_text`): nothing that trimming takes away is missing, because one
  line end is put back.
* A sink without a limit gets the whole frame (`present_of_limit_eq_none`),
  and one that refuses everything gets nothing (`present_of_refuses`).
* No line of a configuration is the end marker, since lines begin with
  brackets and letters. So the reader closes a frame where it ends
  (`collect_lines`) and is then outside of frames again, and a stream of
  frames is read back by induction on the benches.
-/
import BenchConfig.Frame
import BenchConfig.Proofs.Bench.Lines
import BenchConfig.Proofs.Sink
import BenchConfig.Proofs.Text.Utf8

namespace BenchConfig

/-! ## 1. One frame -/

namespace Frame

/-- The lines of the frame around a configuration with the given lines. -/
def lines (ls : List Text) : List Text :=
  beginMarker :: ls ++ [endMarker, []]

theorem wrap_text (b : Bench) :
    wrap b.text = beginMarker ++ '\n' :: b.text ++ endMarker ++ ['\n', '\n'] := by
  rw [wrap, parts, b.trimEnd_text]
  simp

theorem wrap_eq_unlines (b : Bench) : wrap b.text = unlines (lines b.lines) := by
  rw [wrap_text, b.text_eq_unlines]
  simp [lines]

end Frame

theorem Utf8.flatten_map_encode (ts : List Text) : (ts.map encode).flatten = encode ts.flatten := by
  induction ts with
  | nil => rfl
  | cons t ts ih => simp [ih]

namespace Bench

variable {s : Sink}

/-- The pieces of a frame are written as one sequence. -/
theorem present_eq (b : Bench) (s : Sink) :
    b.present s = s.written s.flush (Utf8.encode (Frame.wrap b.text)) := by
  rw [present, Sink.send_eq, Utf8.flatten_map_encode, Frame.wrap]

theorem present_of_limit_eq_none (h : s.limit = none) (b : Bench) :
    b.present s = (s.flush, s.take (Utf8.encode (Frame.wrap b.text))) := by
  rw [present_eq, Sink.written_of_limit_eq_none h]

theorem present_of_refuses {fault : Fault} (h : s.Refuses fault) (b : Bench) :
    b.present s = (.error fault, s) := by
  rw [present_eq, h.written (Utf8.encode_ne_nil (by simp [Frame.wrap, Frame.parts]))]

/-! ## 2. A stream of frames -/

/-- Presents benches one after another to one sink: the outcomes, and the
sink at the end. -/
def presentAll : Sink → List Bench → List (Except Fault Unit) × Sink
  | s, [] => ([], s)
  | s, b :: bs =>
    let (outcome, s') := b.present s
    let (outcomes, last) := presentAll s' bs
    (outcome :: outcomes, last)

theorem presentAll_of_limit_eq_none (bs : List Bench) : ∀ s : Sink, s.limit = none →
    presentAll s bs
      = (List.replicate bs.length s.flush,
         s.take (Utf8.encode (bs.flatMap fun b => Frame.wrap b.text))) := by
  induction bs with
  | nil =>
    intro s _
    simp [presentAll]
  | cons b bs ih =>
    intro s h
    rw [presentAll, present_of_limit_eq_none h]
    simp only [ih (s.take _) h, Sink.take_take, Sink.flush_take, ← Utf8.encode_append,
      List.flatMap_cons, List.length_cons, List.replicate_succ]

end Bench

/-! ## 3. Reading -/

namespace Frame

theorem collect_append_endMarker {ls : List Text} (h : endMarker ∉ ls) (rest : List Text) :
    ∀ t, collect (some t) (ls ++ endMarker :: rest) = (t ++ unlines ls) :: collect none rest := by
  induction ls with
  | nil =>
    intro t
    simp [collect]
  | cons l ls ih =>
    intro t
    rw [List.mem_cons, not_or] at h
    rw [List.cons_append, collect, if_neg (Ne.symm h.1), ih h.2]
    simp

/-- One frame is read, and the reader is as before. -/
theorem collect_lines {ls : List Text} (h : endMarker ∉ ls) (rest : List Text) :
    collect none (lines ls ++ rest) = unlines ls :: collect none rest := by
  have hopen : collect none (lines ls ++ rest)
      = collect (some []) (ls ++ endMarker :: [] :: rest) := by
    simp [lines, collect]
  have hempty : collect none ([] :: rest) = collect none rest := if_neg (by decide)
  rw [hopen, collect_append_endMarker h, hempty, List.nil_append]

theorem endMarker_notMem_lines (b : Bench) : endMarker ∉ b.lines := by
  intro h
  -- a marker begins with a dash, and no line does
  obtain hnil | ⟨c, hc, hcases⟩ := Bench.head?_of_mem_lines h
  · revert hnil; decide
  · obtain rfl : '-' = c := Option.some.inj hc
    revert hcases; decide

theorem newline_notMem_lines {b : Bench} (h : b.FitsLines) :
    ∀ l ∈ lines b.lines, '\n' ∉ l := by
  have hb := Bench.newline_notMem_of_mem_lines h
  have hbegin : '\n' ∉ beginMarker := by decide
  have hend : '\n' ∉ endMarker := by decide
  simpa [lines, hbegin, hend, or_imp, forall_and] using hb

theorem collect_flatMap_wrap (bs : List Bench) :
    collect none (bs.flatMap (fun b => lines b.lines) ++ [[]]) = bs.map Bench.text := by
  induction bs with
  | nil => exact if_neg (by decide)
  | cons b bs ih =>
    rw [List.flatMap_cons, List.append_assoc, collect_lines (endMarker_notMem_lines b), ih,
      ← b.text_eq_unlines, List.map_cons]

theorem contents_flatMap_wrap {bs : List Bench} (h : ∀ b ∈ bs, b.FitsLines) :
    contents (bs.flatMap fun b => wrap b.text) = bs.map Bench.text := by
  have hstream : (bs.flatMap fun b => wrap b.text) = unlines (bs.flatMap fun b => lines b.lines) := by
    simp only [wrap_eq_unlines, unlines, List.flatMap_assoc]
  have hlines : ∀ l ∈ bs.flatMap fun b => lines b.lines, '\n' ∉ l := by
    intro l hl
    obtain ⟨b, hb, hl⟩ := List.mem_flatMap.mp hl
    exact newline_notMem_lines (h b hb) l hl
  have hsplit := splitOn_unlines_append hlines []
  rw [List.append_nil, List.splitOn_nil] at hsplit
  rw [contents, hstream, hsplit, collect_flatMap_wrap]

end Frame

/-- **Benches that were presented one after another are read back**, in
order and to the last line end. Nothing is asked of the sink but that it
never gets full; it may take the octets in shares of any size. Names and
directories may hold anything but a line end, the markers too. -/
theorem presented_benches_read_back (s : Sink) (hlimit : s.limit = none) (hheld : s.held = [])
    (bs : List Bench) (hbs : ∀ b ∈ bs, b.FitsLines) :
    (Bench.presentAll s bs).1 = List.replicate bs.length s.flush ∧
    ∃ stream, Utf8.decode? (Bench.presentAll s bs).2.held = some stream ∧
      Frame.contents stream = bs.map Bench.text := by
  have hread := Frame.contents_flatMap_wrap hbs
  rw [Bench.presentAll_of_limit_eq_none bs s hlimit]
  refine ⟨rfl, _, ?_, hread⟩
  rw [Sink.held_take, hheld, List.nil_append, Utf8.decode?_encode]

/-- A sink that takes one octet at a time, and two benches: one whose
names are the markers, and one whose directory ends in blanks. -/
theorem presented_benches_read_back_markers :
    let s : Sink := { share := some 1, share_pos := by rintro n ⟨⟩; decide }
    let bs : List Bench :=
      [⟨⟨Frame.endMarker, "/[a]=".toList⟩, ⟨Frame.beginMarker, Frame.endMarker⟩⟩,
       ⟨⟨[], "x \t\u2003".toList⟩, ⟨"]".toList, "/..".toList⟩⟩]
    (∀ b ∈ bs, b.FitsLines) ∧ (Bench.presentAll s bs).1 = [.ok (), .ok ()] ∧
      ∃ stream, Utf8.decode? (Bench.presentAll s bs).2.held = some stream ∧
        Frame.contents stream = bs.map Bench.text := by
  intro s bs
  have hbs : ∀ b ∈ bs, b.FitsLines := by decide
  exact ⟨hbs, presented_benches_read_back s rfl rfl bs hbs⟩

end BenchConfig
