/-
BenchConfig.Proofs.Bench.Lines — the configuration of a bench as a
sequence of lines.

A configuration is made of lines, each with a line end behind it
(`Ini.render_eq_unlines`). Splitting at the line ends gives these lines
back as long as no line contains one (`splitOn_unlines_append`).

* The keys are plain words (`Ini.IsKey`), so what a line begins with is
  known whatever the names and the values are: a bracket or a character
  of a key, if it is not empty (`head?_of_mem_lines`).
* Names and directories without a line end make lines without one
  (`newline_notMem_of_mem_lines`).
* The last line of a bench is a constant that does not end in a blank, so
  trimming the configuration removes the last line end and nothing else
  (`trimEnd_text`).
-/
import BenchConfig.Bench
import BenchConfig.Text.Blank

namespace BenchConfig

/-! ## 1. Lines -/

/-- The text with the given lines. -/
def unlines (ls : List Text) : Text :=
  ls.flatMap (· ++ ['\n'])

@[simp] theorem unlines_nil : unlines [] = [] := rfl

@[simp] theorem unlines_cons (l : Text) (ls : List Text) :
    unlines (l :: ls) = l ++ '\n' :: unlines ls := by
  simp [unlines]

@[simp] theorem unlines_append (ls ms : List Text) :
    unlines (ls ++ ms) = unlines ls ++ unlines ms :=
  List.flatMap_append

theorem splitOn_unlines_append {ls : List Text} (h : ∀ l ∈ ls, '\n' ∉ l) (t : Text) :
    (unlines ls ++ t).splitOn '\n' = ls ++ t.splitOn '\n' := by
  induction ls with
  | nil => rfl
  | cons l ls ih =>
    have hl : '\n' ∉ l := h l List.mem_cons_self
    have hls := ih fun m hm => h m (List.mem_cons_of_mem _ hm)
    rw [unlines_cons, List.append_assoc, List.cons_append, List.splitOn_append_cons_self,
      List.splitOn_eq_singleton hl, hls, List.singleton_append, List.cons_append]

/-! ## 2. Sections -/

namespace Ini

/-- The line of an entry, without its line end. -/
def Entry.line (e : Entry) : Text :=
  e.key ++ '=' :: e.value

/-- The lines of a section. -/
def Section.lines (s : Section) : List Text :=
  ('[' :: s.name ++ [']']) :: s.entries.map Entry.line

/-- The lines of a file, with an empty one between two sections. -/
def lines (sections : List Section) : List Text :=
  [[]].intercalate (sections.map Section.lines)

theorem Section.text_eq_unlines (s : Section) : s.text = unlines s.lines := by
  have hentries : s.entries.flatMap Entry.text = unlines (s.entries.map Entry.line) := by
    induction s.entries with
    | nil => rfl
    | cons e es ih => simp [ih, Entry.text, Entry.line]
  simp [text, header, lines, hentries]

theorem lines_cons_cons (s t : Section) (ss : List Section) :
    lines (s :: t :: ss) = s.lines ++ [] :: lines (t :: ss) := by
  simp [lines]

theorem render_eq_unlines (ss : List Section) : render ss = unlines (lines ss) := by
  induction ss with
  | nil => rfl
  | cons s ss ih =>
    cases ss with
    | nil => simp [render, lines, Section.text_eq_unlines]
    | cons t ss =>
      have hrender : render (s :: t :: ss) = s.text ++ '\n' :: render (t :: ss) := by
        simp [render]
      rw [hrender, lines_cons_cons, unlines_append, unlines_cons, ih, Section.text_eq_unlines,
        List.nil_append]

theorem mem_lines {ss : List Section} {l : Text} (h : l ∈ lines ss) :
    l = [] ∨ ∃ s ∈ ss, l ∈ s.lines := by
  induction ss with
  | nil => cases h
  | cons s ss ih =>
    cases ss with
    | nil =>
      have h : l ∈ s.lines := by simpa [lines] using h
      exact .inr ⟨s, List.mem_cons_self, h⟩
    | cons t ss =>
      rw [lines_cons_cons, List.mem_append, List.mem_cons] at h
      obtain h | h | h := h
      · exact .inr ⟨s, List.mem_cons_self, h⟩
      · exact .inl h
      · obtain h | ⟨u, hu, h⟩ := ih h
        · exact .inl h
        · exact .inr ⟨u, List.mem_cons_of_mem _ hu, h⟩

/-- A character of a key: a letter or an underscore. -/
def isKeyChar (c : Char) : Bool :=
  c.isAlpha || c == '_'

/-- A key is a word of such characters. -/
def IsKey (k : Text) : Prop :=
  k ≠ [] ∧ k.all isKeyChar = true

instance : DecidablePred IsKey := fun _ =>
  inferInstanceAs (Decidable (_ ∧ _))

theorem IsKey.notMem {k : Text} (h : IsKey k) {c : Char} (hc : isKeyChar c = false) : c ∉ k := by
  intro hmem
  have hkey := List.all_eq_true.mp h.2 c hmem
  simp [hc] at hkey

/-- Neither the name nor a value breaks a line. -/
structure Section.IsPlain (s : Section) : Prop where
  name : '\n' ∉ s.name
  value : ∀ e ∈ s.entries, '\n' ∉ e.value

/-- Every line of a section begins with a bracket or a key. -/
theorem Section.head?_of_mem_lines {s : Section} (hs : ∀ e ∈ s.entries, IsKey e.key) {l : Text}
    (hl : l ∈ s.lines) : ∃ c, l.head? = some c ∧ (c = '[' ∨ isKeyChar c = true) := by
  rcases List.mem_cons.mp hl with rfl | hl
  · exact ⟨'[', rfl, .inl rfl⟩
  · obtain ⟨e, he, rfl⟩ := List.mem_map.mp hl
    obtain ⟨hne, hchars⟩ := hs e he
    obtain ⟨c, rest, hkey⟩ := List.exists_cons_of_ne_nil hne
    have hc := List.all_eq_true.mp hchars c (by simp [hkey])
    exact ⟨c, by simp [Entry.line, hkey], .inr hc⟩

theorem Section.newline_notMem_of_mem_lines {s : Section} (hkeys : ∀ e ∈ s.entries, IsKey e.key)
    (hs : s.IsPlain) {l : Text} (hl : l ∈ s.lines) : '\n' ∉ l := by
  rcases List.mem_cons.mp hl with rfl | hl
  · simp [hs.name]
  · obtain ⟨e, he, rfl⟩ := List.mem_map.mp hl
    have hkey : '\n' ∉ e.key := (hkeys e he).notMem (by decide)
    simp [Entry.line, hkey, hs.value e he]

theorem newline_notMem_of_mem_lines {ss : List Section}
    (hkeys : ∀ s ∈ ss, ∀ e ∈ s.entries, IsKey e.key) (hplain : ∀ s ∈ ss, s.IsPlain) :
    ∀ l ∈ lines ss, '\n' ∉ l := by
  intro l hl
  obtain rfl | ⟨s, hs, hl⟩ := mem_lines hl
  · exact List.not_mem_nil
  · exact Section.newline_notMem_of_mem_lines (hkeys s hs) (hplain s hs) hl

end Ini

/-! ## 3. Benches -/

/-- Neither the name nor the directory of the plugin breaks a line. -/
def Plugin.FitsLine (p : Plugin) : Prop :=
  '\n' ∉ p.name ∧ '\n' ∉ p.directory

instance (p : Plugin) : Decidable p.FitsLine :=
  inferInstanceAs (Decidable (_ ∧ _))

theorem Path.newline_notMem_join {p q : Path Char} (hp : '\n' ∉ p) (hq : '\n' ∉ q) :
    '\n' ∉ p.join q := by
  unfold join opened
  split
  · exact hq
  · split
    · simp [hp, hq]
    · simp [hp, hq, PathChar.slash]

theorem Plugin.FitsLine.newline_notMem_file {p : Plugin} (h : p.FitsLine) :
    '\n' ∉ p.isaFile ∧ '\n' ∉ p.platformFile :=
  ⟨Path.newline_notMem_join h.2 (by simp [h.1]), Path.newline_notMem_join h.2 (by simp [h.1])⟩

namespace Bench

/-- Neither plugin of the bench breaks a line. -/
def FitsLines (b : Bench) : Prop :=
  b.reference.FitsLine ∧ b.dut.FitsLine

instance (b : Bench) : Decidable b.FitsLines :=
  inferInstanceAs (Decidable (_ ∧ _))

/-- The lines of the configuration. -/
def lines (b : Bench) : List Text :=
  Ini.lines b.sections

theorem text_eq_unlines (b : Bench) : b.text = unlines b.lines :=
  Ini.render_eq_unlines b.sections

theorem isKey_partsSection (b : Bench) : ∀ e ∈ b.partsSection.entries, Ini.IsKey e.key := by
  unfold partsSection
  simp only [List.forall_mem_cons]
  decide

theorem isKey_pluginSection (p : Plugin) : ∀ e ∈ (pluginSection p).entries, Ini.IsKey e.key := by
  unfold pluginSection
  simp only [List.forall_mem_cons]
  decide

theorem isKey_of_mem_sections (b : Bench) :
    ∀ s ∈ b.sections, ∀ e ∈ s.entries, Ini.IsKey e.key := by
  simp only [sections, List.forall_mem_cons]
  exact ⟨b.isKey_partsSection, isKey_pluginSection b.dut, isKey_pluginSection b.reference,
    fun s hs => absurd hs List.not_mem_nil⟩

theorem head?_of_mem_lines {b : Bench} {l : Text} (hl : l ∈ b.lines) :
    l = [] ∨ ∃ c, l.head? = some c ∧ (c = '[' ∨ Ini.isKeyChar c = true) := by
  obtain h | ⟨s, hs, h⟩ := Ini.mem_lines hl
  · exact .inl h
  · exact .inr (Ini.Section.head?_of_mem_lines (b.isKey_of_mem_sections s hs) h)

theorem isPlain_pluginSection {p : Plugin} (h : p.FitsLine) : (pluginSection p).IsPlain where
  name := h.1
  value := by
    unfold pluginSection
    simp [h.2, h.newline_notMem_file]

theorem isPlain_partsSection {b : Bench} (h : b.FitsLines) : b.partsSection.IsPlain where
  name := by show '\n' ∉ "RISCOF".toList; decide
  value := by
    unfold partsSection
    simp [h.1.1, h.1.2, h.2.1, h.2.2]

theorem isPlain_of_mem_sections {b : Bench} (h : b.FitsLines) : ∀ s ∈ b.sections, s.IsPlain := by
  simp only [sections, List.forall_mem_cons]
  exact ⟨isPlain_partsSection h, isPlain_pluginSection h.2, isPlain_pluginSection h.1,
    fun s hs => absurd hs List.not_mem_nil⟩

theorem newline_notMem_of_mem_lines {b : Bench} (h : b.FitsLines) : ∀ l ∈ b.lines, '\n' ∉ l :=
  Ini.newline_notMem_of_mem_lines b.isKey_of_mem_sections (isPlain_of_mem_sections h)

/-! ## 4. The end -/

theorem getLast?_lines (b : Bench) : b.lines.getLast? = some "target_run=1".toList := rfl

/-- Trimming a configuration removes its last line end. -/
theorem trimEnd_text (b : Bench) : trimEnd b.text ++ ['\n'] = b.text := by
  obtain ⟨init, hinit⟩ := List.getLast?_eq_some_iff.mp b.getLast?_lines
  have htext : b.text = unlines init ++ "target_run=".toList ++ ['1'] ++ ['\n'] := by
    rw [text_eq_unlines, hinit, unlines_append]
    simp
  rw [htext, trimEnd_append_blank (by decide), trimEnd_append_singleton (by decide)]

end Bench

end BenchConfig
