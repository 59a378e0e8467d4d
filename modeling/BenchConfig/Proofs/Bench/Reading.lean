/-
BenchConfig.Proofs.Bench.Reading — the configuration of a bench is read
back as it was written.

The reader (`Ini.read?`) looks at one line at a time. What a line says is
a `Ini.Line`, and the text of a line is read back as that line
(`Ini.Line.ofText?_text`). The keys make this true: a key begins neither
with a bracket nor does it contain `=`, so an entry is not taken for a
header and is split behind its key, whatever the value is.

Of a file of sections the lines and the last empty piece are the lines of
the sections, each with an empty line behind it (`Ini.script`). Gathering
them gives the sections back (`Ini.gather_script`).

## The side condition

Nothing in a file is quoted, so a name or a directory with a line end in
it is not read back. `Bench.FitsLines` excludes these and nothing else.
-/
import BenchConfig.Ini.Reader
import BenchConfig.Proofs.Bench.Lines

namespace BenchConfig

namespace Ini

/-! ## 1. One line -/

/-- The text of a line. -/
def Line.text : Line → Text
  | .empty => []
  | .header name => '[' :: name ++ [']']
  | .entry e => e.line

theorem IsKey.exists_cons {k : Text} (h : IsKey k) : ∃ c rest, k = c :: rest ∧ c ≠ '[' := by
  obtain ⟨c, rest, rfl⟩ := List.exists_cons_of_ne_nil h.1
  have hbracket : '[' ∉ c :: rest := h.notMem (by decide)
  exact ⟨c, rest, rfl, fun hc => hbracket (hc ▸ List.mem_cons_self)⟩

/-- An entry is cut behind its key, whatever its value is. -/
theorem cut_line {e : Entry} (h : '=' ∉ e.key) :
    e.line.takeWhile (· ≠ '=') = e.key ∧ e.line.dropWhile (· ≠ '=') = '=' :: e.value := by
  have hkey : ∀ c ∈ e.key, decide (c ≠ '=') = true := by
    intro c hc
    simpa using fun heq : c = '=' => h (heq ▸ hc)
  rw [Entry.line, List.takeWhile_append_of_pos hkey, List.dropWhile_append_of_pos hkey]
  simp

theorem Line.ofText?_line {e : Entry} (h : IsKey e.key) : ofText? e.line = some (.entry e) := by
  obtain ⟨hkeyText, hvalueText⟩ := cut_line (h.notMem (by decide))
  obtain ⟨c, rest, hkey, hc⟩ := h.exists_cons
  have hline : e.line = c :: (rest ++ '=' :: e.value) := by simp [Entry.line, hkey]
  rw [hline, ofText?, if_neg fun hheader => hc hheader.1, ← hline, hvalueText, hkeyText]

theorem Line.ofText?_text {l : Line} (h : ∀ e, l = .entry e → IsKey e.key) :
    ofText? l.text = some l := by
  cases l with
  | empty => rfl
  | header name => simp [text, ofText?]
  | entry e => exact ofText?_line (h e rfl)

theorem mapM_ofText?_text {ls : List Line} (h : ∀ e, .entry e ∈ ls → IsKey e.key) :
    (ls.map Line.text).mapM Line.ofText? = some ls := by
  induction ls with
  | nil => rfl
  | cons l ls ih =>
    have hl : Line.ofText? l.text = some l :=
      Line.ofText?_text fun e he => h e (he ▸ List.mem_cons_self)
    have hls := ih fun e he => h e (List.mem_cons_of_mem l he)
    simp [List.mapM_cons, hl, hls]

/-! ## 2. All lines -/

/-- What the lines of a file say, with an empty line behind every
section. -/
def script (ss : List Section) : List Line :=
  ss.flatMap fun s => .header s.name :: s.entries.map .entry ++ [.empty]

theorem script_cons (s : Section) (ss : List Section) :
    script (s :: ss) = .header s.name :: (s.entries.map .entry ++ .empty :: script ss) := by
  simp [script]

theorem map_text_script_cons (s : Section) (ss : List Section) :
    (script (s :: ss)).map Line.text = s.lines ++ [] :: (script ss).map Line.text := by
  simp [script_cons, Section.lines, Line.text, Function.comp_def]

theorem lines_append_empty {ss : List Section} (hne : ss ≠ []) :
    lines ss ++ [[]] = (script ss).map Line.text := by
  induction ss with
  | nil => exact absurd rfl hne
  | cons s ss ih =>
    rw [map_text_script_cons]
    cases ss with
    | nil => simp [lines, script]
    | cons t ss =>
      rw [lines_cons_cons, List.append_assoc, List.cons_append, ih (List.cons_ne_nil t ss)]

theorem isKey_of_entry_mem_script {ss : List Section}
    (hkeys : ∀ s ∈ ss, ∀ e ∈ s.entries, IsKey e.key) {e : Entry} (he : .entry e ∈ script ss) :
    IsKey e.key := by
  obtain ⟨s, hs, he⟩ := List.mem_flatMap.mp he
  exact hkeys s hs e (by simpa using he)

theorem gather_map_entry_append (es : List Entry) (ls : List Line) :
    gather (es.map .entry ++ ls) = (es ++ (gather ls).1, (gather ls).2) := by
  induction es with
  | nil => rfl
  | cons e es ih => simp [gather, ih]

theorem gather_script (ss : List Section) : gather (script ss) = ([], ss) := by
  induction ss with
  | nil => rfl
  | cons s ss ih => simp [script_cons, gather, gather_map_entry_append, ih]

/-- Reading a rendered file gives its sections. -/
theorem read?_render {ss : List Section} (hkeys : ∀ s ∈ ss, ∀ e ∈ s.entries, IsKey e.key)
    (hplain : ∀ s ∈ ss, s.IsPlain) : read? (render ss) = some ss := by
  by_cases hne : ss = []
  · subst hne
    rfl
  have hsplit : (render ss).splitOn '\n' = (script ss).map Line.text := by
    have hlines := splitOn_unlines_append (newline_notMem_of_mem_lines hkeys hplain) []
    rw [render_eq_unlines, ← lines_append_empty hne]
    simpa using hlines
  have hmeaning := mapM_ofText?_text fun e he => isKey_of_entry_mem_script hkeys he
  simp only [read?, hsplit, hmeaning, gather_script, if_true]

end Ini

/-! ## 3. Benches -/

namespace Bench

theorem read?_text {b : Bench} (h : b.FitsLines) : Ini.read? b.text = some b.sections :=
  Ini.read?_render b.isKey_of_mem_sections (isPlain_of_mem_sections h)

/-- The first section alone tells the bench. -/
theorem sections_injective {b c : Bench} (h : b.sections = c.sections) : b = c := by
  have hparts : b.partsSection = c.partsSection := (List.cons.inj h).1
  have hvalues : [b.reference.name, b.reference.directory, b.dut.name, b.dut.directory]
      = [c.reference.name, c.reference.directory, c.dut.name, c.dut.directory] :=
    congrArg (fun s => s.entries.map Ini.Entry.value) hparts
  obtain ⟨⟨_, _⟩, ⟨_, _⟩⟩ := b
  obtain ⟨⟨_, _⟩, ⟨_, _⟩⟩ := c
  simp only [List.cons.injEq, and_true] at hvalues
  obtain ⟨rfl, rfl, rfl, rfl⟩ := hvalues
  rfl

end Bench

/-- **What is written is what is read.** The reader finds three sections,
the parts and then the two plugins, with the names, the directories and
the files of the bench as their values. So no two benches that fit their
lines have one configuration. -/
theorem bench_text_reads_back {b : Bench} (h : b.FitsLines) :
    Ini.read? b.text = some
      [⟨"RISCOF".toList,
        [⟨"ReferencePlugin".toList, b.reference.name⟩,
         ⟨"ReferencePluginPath".toList, b.reference.directory⟩,
         ⟨"DUTPlugin".toList, b.dut.name⟩,
         ⟨"DUTPluginPath".toList, b.dut.directory⟩]⟩,
       ⟨b.dut.name,
        [⟨"pluginpath".toList, b.dut.directory⟩,
         ⟨"ispec".toList, b.dut.isaFile⟩,
         ⟨"pspec".toList, b.dut.platformFile⟩,
         ⟨"target_run".toList, "1".toList⟩]⟩,
       ⟨b.reference.name,
        [⟨"pluginpath".toList, b.reference.directory⟩,
         ⟨"ispec".toList, b.reference.isaFile⟩,
         ⟨"pspec".toList, b.reference.platformFile⟩,
         ⟨"target_run".toList, "1".toList⟩]⟩] ∧
    ∀ c : Bench, c.FitsLines → b.text = c.text → b = c := by
  refine ⟨Bench.read?_text h, fun c hc htext => Bench.sections_injective ?_⟩
  have hread := Bench.read?_text h
  rw [htext, Bench.read?_text hc] at hread
  exact (Option.some.inj hread).symm

/-- Names and directories that look like headers and entries, a name that
is an absolute path, and the same directory spelled with and without a
separator at its end. -/
theorem bench_text_reads_back_lookalikes :
    let b : Bench := ⟨⟨"/a=]".toList, "[b]=c".toList⟩, ⟨"[RISCOF]".toList, "d/".toList⟩⟩
    let c : Bench := ⟨⟨"/a=]".toList, "[b]=c".toList⟩, ⟨"[RISCOF]".toList, "d".toList⟩⟩
    b.FitsLines ∧ c.FitsLines ∧ b.text ≠ c.text ∧
      (Ini.read? b.text).map (·.map (·.name))
        = some ["RISCOF".toList, "[RISCOF]".toList, "/a=]".toList] ∧
      b.reference.isaFile = "/a=]_isa.yaml".toList ∧
      b.dut.isaFile = "d/[RISCOF]_isa.yaml".toList := by
  intro b c
  have hb : b.FitsLines := by decide
  have hc : c.FitsLines := by decide
  obtain ⟨hread, hinjective⟩ := bench_text_reads_back hb
  have hne : b.text ≠ c.text := fun htext => by
    have hdirectory := congrArg (·.dut.directory) (hinjective c hc htext)
    exact absurd hdirectory (by decide)
  refine ⟨hb, hc, hne, ?_, by decide, by decide⟩
  rw [hread]
  rfl

end BenchConfig
