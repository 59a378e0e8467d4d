/-
BenchConfig.Proofs.Bench.Equality — two benches made from directories of
plugins are equal exactly when their configurations are the same text.

Equality of benches compares paths by their components, so it is coarser
than equality of texts. Between canonical paths there is no difference,
and the paths of such a bench are canonical.

For the other direction the text must determine the paths. It can not be
read line by line, because a path may contain a line end and then
imitates lines of the configuration. But nothing is known of such a bench
except one text, what stands in front of the names of its plugins
(`behind`). It occurs eight times in the configuration, so the length of
the configuration tells how long it is, and its first occurrence tells
what it is (`text_behind_injective`).
-/
import BenchConfig.Proofs.Bench.Layout

namespace BenchConfig

open BenchConfig.Path (IsName anchor)

/-! ## 1. Lengths -/

theorem Ini.Entry.length_text (e : Ini.Entry) :
    e.text.length = e.key.length + e.value.length + 2 := by
  simp only [text, List.length_append, List.length_cons, List.length_nil]
  omega

namespace Bench

/-! ## 2. One text in front of both names -/

/-- The bench whose plugins have their names behind the text `front`. -/
def behind (front : Text) : Bench where
  reference := ⟨referenceName, front ++ referenceName⟩
  dut := ⟨dutName, front ++ dutName⟩

theorem plugin_within_eq {name : Text} (hname : IsName name) (htilde : name ≠ Path.tilde)
    (home : Option (Path Char)) (base plugins : Path Char) :
    Plugin.within home base plugins name = ⟨name, (anchor home base plugins).front ++ name⟩ := by
  rw [Plugin.within, Path.anchor_join_name hname fun h => htilde h.2, Path.child_eq_front_append]

theorem within_eq_behind (home : Option (Path Char)) (base plugins : Path Char) :
    within home base plugins = behind (anchor home base plugins).front := by
  rw [within, plugin_within_eq isName_referenceName (by decide),
    plugin_within_eq isName_dutName (by decide), behind]

/-- The section of a plugin has the text in front of its name three times. -/
theorem length_pluginSection_text {n : Text} (hn : IsName n) (f g : Text) :
    (pluginSection ⟨n, f ++ n⟩).text.length + 3 * g.length
      = (pluginSection ⟨n, g ++ n⟩).text.length + 3 * f.length := by
  have hfile : ∀ (front : Text) (suffix : String),
      (Path.join (front ++ n) (n ++ suffix.toList)).length
        = front.length + 2 * n.length + suffix.toList.length + 1 := by
    intro front suffix
    rw [Path.join_append_name hn (Path.not_isAbsolute_name_append hn _)]
    simp only [List.length_append, List.length_cons]
    omega
  simp only [pluginSection, Ini.Section.text, Ini.Section.header, Plugin.isaFile,
    Plugin.platformFile, List.flatMap_cons, List.flatMap_nil, List.length_append, List.length_cons,
    Ini.Entry.length_text, hfile]
  omega

theorem length_partsSection_text (f g : Text) :
    (behind f).partsSection.text.length + 2 * g.length
      = (behind g).partsSection.text.length + 2 * f.length := by
  unfold partsSection
  simp only [behind, Ini.Section.text, Ini.Section.header, List.flatMap_cons, List.flatMap_nil,
    List.length_append, List.length_cons, Ini.Entry.length_text]
  omega

theorem text_eq_append (b : Bench) :
    b.text = b.partsSection.text ++ '\n' :: ((pluginSection b.dut).text
      ++ '\n' :: (pluginSection b.reference).text) := by
  simp [text, sections, Ini.render]

/-- Twice in the first section and three times in each of the others. -/
theorem length_text_behind (f g : Text) :
    (behind f).text.length + 8 * g.length = (behind g).text.length + 8 * f.length := by
  have hparts := length_partsSection_text f g
  have hdut := length_pluginSection_text isName_dutName f g
  have hreference := length_pluginSection_text isName_referenceName f g
  rw [text_eq_append, text_eq_append]
  simp only [List.length_append, List.length_cons]
  simp only [behind] at *
  omega

/-- What the configuration begins with, up to the first directory. -/
def opening : Text :=
  "[RISCOF]\nReferencePlugin=spike_simple\nReferencePluginPath=".toList

theorem exists_text_behind_eq (front : Text) :
    ∃ rest, (behind front).text = opening ++ (front ++ rest) := by
  rw [text_eq_append]
  unfold partsSection
  simp only [behind, Ini.Section.text, List.flatMap_cons, Ini.Entry.text, List.append_assoc,
    List.cons_append]
  exact ⟨_, rfl⟩

/-- The configuration tells what stands in front of the names. -/
theorem text_behind_injective {f g : Text} (h : (behind f).text = (behind g).text) : f = g := by
  have hlength : f.length = g.length := by
    have := length_text_behind f g
    rw [h] at this
    omega
  obtain ⟨restF, hf⟩ := exists_text_behind_eq f
  obtain ⟨restG, hg⟩ := exists_text_behind_eq g
  rw [hf, hg] at h
  exact (List.append_inj (List.append_cancel_left h) hlength).1

/-! ## 3. Equality -/

theorem plugin_within_eq_of_beq {home home' : Option (Path Char)}
    {base base' plugins plugins' : Path Char} {name : Text}
    (h : (Plugin.within home base plugins name == Plugin.within home' base' plugins' name) = true) :
    Plugin.within home base plugins name = Plugin.within home' base' plugins' name := by
  have hsame := (Plugin.beq_iff.mp h).2
  exact congrArg (Plugin.mk name) (Path.eq_of_same_canonical hsame)

end Bench

/-- **Benches that were made from directories of plugins are equal exactly
when their configurations are the same text**, whatever the directories,
the bases and the home directories are. -/
theorem bench_beq_iff_text_eq (home home' : Option (Path Char))
    (base base' plugins plugins' : Path Char) :
    (Bench.within home base plugins == Bench.within home' base' plugins') = true ↔
      (Bench.within home base plugins).text = (Bench.within home' base' plugins').text := by
  constructor
  · intro h
    obtain ⟨hreference, hdut⟩ := Bench.beq_iff.mp h
    rw [Bench.within, Bench.within, Bench.plugin_within_eq_of_beq hreference,
      Bench.plugin_within_eq_of_beq hdut]
  · intro h
    rw [Bench.within_eq_behind, Bench.within_eq_behind] at h ⊢
    rw [Bench.text_behind_injective h]
    exact Bench.beq_iff.mpr ⟨Plugin.beq_iff.mpr ⟨rfl, rfl⟩, Plugin.beq_iff.mpr ⟨rfl, rfl⟩⟩

end BenchConfig
