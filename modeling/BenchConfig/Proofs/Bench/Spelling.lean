/-
BenchConfig.Proofs.Bench.Spelling — equal plugins agree on everything that
is derived from them, however their directories are spelled.

Equality of plugins compares names as texts and directories by their
components. The text of a configuration shows the spelling of a directory,
so equal benches may have different texts. What equality promises is

* that the specification files are the same paths. A file is the directory
  joined with a text that begins with the name, and the name is any text:
  with a separator in front it replaces the directory, and with two dots in
  it the file is not in the directory. Joining respects the components in
  all these cases (`Plugin.same_file_of_beq`);
* that no spelling is left once the directories are canonical. Then equal
  plugins are one plugin (`Plugin.canonical_eq_of_beq`), and equal benches
  one bench (`Bench.canonical_eq_of_beq`) with one text.

Benches that were made from directories of plugins have canonical
directories from the start; for them equality is equality of the texts, and
that is another theorem. Here the names and the directories are arbitrary.
-/
import BenchConfig.Bench
import BenchConfig.Proofs.Path.Same

namespace BenchConfig

/-! ## 1. Plugins -/

namespace Plugin

/-- The plugin with the canonical path of its directory. -/
def canonical (p : Plugin) : Plugin :=
  { p with directory := p.directory.canonical }

variable {a b : Plugin}

theorem same_file_of_beq (h : (a == b) = true) (suffix : Text) :
    (a.directory.join (a.name ++ suffix)).Same (b.directory.join (b.name ++ suffix)) := by
  obtain ⟨hname, hdirectory⟩ := beq_iff.mp h
  rw [hname]
  exact hdirectory.join (Path.Same.refl _)

theorem canonical_eq_of_beq (h : (a == b) = true) : a.canonical = b.canonical := by
  obtain ⟨hname, hdirectory⟩ := beq_iff.mp h
  rw [canonical, canonical, hname, hdirectory.canonical_eq]

end Plugin

/-! ## 2. Benches -/

namespace Bench

/-- The bench with the canonical paths of both directories. -/
def canonical (b : Bench) : Bench where
  reference := b.reference.canonical
  dut := b.dut.canonical

theorem canonical_eq_of_beq {b c : Bench} (h : (b == c) = true) : b.canonical = c.canonical := by
  obtain ⟨hreference, hdut⟩ := beq_iff.mp h
  rw [canonical, canonical, Plugin.canonical_eq_of_beq hreference, Plugin.canonical_eq_of_beq hdut]

end Bench

/-- **Equality looks through the spelling of a directory, and so does
everything derived from it.** Equal plugins have the same specification
files, and one canonical path each for the directory and for the two files.
Equal benches have one text once their directories are canonical. The names
and the directories may be any texts. -/
theorem equality_respects_files_and_texts :
    (∀ a b : Plugin, (a == b) = true →
      a.isaFile.Same b.isaFile ∧ a.platformFile.Same b.platformFile ∧
        a.directory.canonical = b.directory.canonical ∧
        a.isaFile.canonical = b.isaFile.canonical ∧
        a.platformFile.canonical = b.platformFile.canonical) ∧
    ∀ b c : Bench, (b == c) = true → b.canonical.text = c.canonical.text := by
  refine ⟨fun a b h => ?_, fun b c h => ?_⟩
  · have hdirectory : a.directory.Same b.directory := (Plugin.beq_iff.mp h).2
    have hisa : a.isaFile.Same b.isaFile := Plugin.same_file_of_beq h _
    have hplatform : a.platformFile.Same b.platformFile := Plugin.same_file_of_beq h _
    exact ⟨hisa, hplatform, hdirectory.canonical_eq, hisa.canonical_eq, hplatform.canonical_eq⟩
  · rw [Bench.canonical_eq_of_beq h]

/-- The files of the device are outside of its directory, because its name
goes up, and the name of the reference replaces its directory. The four
directories are spelled in four ways. -/
theorem equality_respects_files_and_texts_odd_names :
    let a : Plugin := ⟨"./..//sim".toList, "/opt//plugins/./".toList⟩
    let a' : Plugin := ⟨"./..//sim".toList, "/opt/plugins".toList⟩
    let b : Bench := ⟨⟨"/model".toList, "./ref/".toList⟩, a⟩
    let b' : Bench := ⟨⟨"/model".toList, ".//ref/.".toList⟩, a'⟩
    (a == a') = true ∧ a.isaFile = "/opt//plugins/././..//sim_isa.yaml".toList ∧
      a'.isaFile = "/opt/plugins/./..//sim_isa.yaml".toList ∧ a.isaFile.Same a'.isaFile ∧
      a.isaFile.canonical = "/opt/sim_isa.yaml".toList ∧
      a.isaFile.canonical = a'.isaFile.canonical ∧
      (b == b') = true ∧ b.text ≠ b'.text ∧ b.canonical.text = b'.canonical.text := by
  intro a a' b b'
  have hplugins : (a == a') = true := by decide
  have hbenches : (b == b') = true := by decide
  obtain ⟨hsame, -, -, hcanonical, -⟩ := equality_respects_files_and_texts.1 a a' hplugins
  exact ⟨hplugins, by decide, by decide, hsame, by decide, hcanonical, hbenches, by decide,
    equality_respects_files_and_texts.2 b b' hbenches⟩

end BenchConfig
