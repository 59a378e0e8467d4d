/-
BenchConfig.Proofs.Publish.Lossy — the texts that a publication makes of its
working directory.

The working directory is bytes, and two texts are made of it. The plugins
are read from one of them if their path is relative; this is the directory
itself, read before anything is joined to it. The other is what the log and
a failure show: the path of the file, read after the name of the file was
joined. Neither need be what the bytes are.

They fit together for all bytes. The second is the first with the name of
the file joined to it, whatever the last octets of the directory are, and
the first has the components of the bytes, each read for itself. Both are
facts about lossy reading of paths (`Path.decodeLossy_join`,
`Path.components_decodeLossy`); here they are put together with what is
published, logged and reported.
-/
import BenchConfig.Proofs.Path.Lossy
import BenchConfig.Proofs.Text.Utf8
import BenchConfig.Proofs.Publish.OneFile

namespace BenchConfig

open Utf8 (decodeLossy)

/-- The working directory as a text: read strictly, and lossily only where
that is refused. -/
def baseText (workingDir : Path UInt8) : Path Char :=
  (Utf8.decode? workingDir).getD (decodeLossy workingDir)

/-- Strict reading gives no other text than lossy reading. -/
theorem baseText_eq (workingDir : Path UInt8) : baseText workingDir = decodeLossy workingDir := by
  unfold baseText Utf8.decode?
  split <;> rfl

theorem baseText_encode (t : Text) : baseText (Utf8.encode t) = t := by
  rw [baseText_eq, Utf8.decodeLossy_encode]

/-- The path of the file, read as a text. -/
theorem decodeLossy_configPath (workingDir : Path UInt8) :
    decodeLossy (configPath workingDir) = Path.join (decodeLossy workingDir) configName := by
  rw [configPath, Path.decodeLossy_join, Utf8.decodeLossy_encode]

theorem Bench.forWorkingDir_eq_within_baseText {home : Option (Path Char)} {plugins : Path Char}
    {workingDir : Path UInt8} :
    Bench.forWorkingDir home plugins workingDir = .within home (baseText workingDir) plugins := by
  rw [forWorkingDir, baseText_eq]

/-- **The texts of a working directory agree.** The base is the lossy
reading of the working directory, and the directory itself where that is a
text. It has the components of the directory, each read for itself. The
lossy reading of the file is the base with the name of the file joined to
it. A publication that succeeds gives the bench for this base and logs this
file, and one that fails has logged the plugins of that bench and names this
file. -/
theorem lossy_texts_agree (home : Option (Path Char)) (plugins : Path Char) (cwd : Location)
    (workingDir : Path UInt8) (files : FileSystem) :
    let base := baseText workingDir
    let file := Path.join base configName
    let p := publish home plugins cwd workingDir files
    (base = decodeLossy workingDir ∧ ∀ t, Utf8.encode t = workingDir → base = t) ∧
    Path.components base = workingDir.components.map (.map decodeLossy) ∧
    decodeLossy (configPath workingDir) = file ∧
    (∀ bench, p.outcome = .ok bench →
      bench = .within home base plugins ∧
      p.log = openingRecords plugins bench ++ [⟨.info, "Wrote ".toList ++ file⟩]) ∧
    ∀ failure, p.outcome = .error failure →
      p.log = openingRecords plugins (.within home base plugins) ∧
      failure.headline = "failed to write ".toList ++ file := by
  intro base file p
  have hfile : decodeLossy (configPath workingDir) = file := by
    rw [decodeLossy_configPath, ← baseText_eq]
  refine ⟨⟨baseText_eq workingDir, ?_⟩, ?_, hfile, ?_, ?_⟩
  · rintro t rfl
    exact baseText_encode t
  · rw [← Path.components_decodeLossy, ← baseText_eq]
  · intro bench h
    have hbench : bench = .forWorkingDir home plugins workingDir := (writeOn_of_outcome_eq_ok (p := p) rfl h).1
    have hlog := log_of_outcome_eq_ok (p := p) rfl h
    rw [← hbench, hfile] at hlog
    exact ⟨hbench.trans Bench.forWorkingDir_eq_within_baseText, hlog⟩
  · intro failure h
    have hpath := (writeOn_of_outcome_eq_error (p := p) rfl h).1
    have hlog := log_of_outcome_eq_error (p := p) rfl h
    rw [Bench.forWorkingDir_eq_within_baseText] at hlog
    exact ⟨hlog, by rw [failure.headline_eq, hpath, hfile]⟩

/-- A directory whose name ends inside a character, and one in it whose name
is no part of a character. -/
def cutFiles : FileSystem :=
  ⟨[([[0x77, 0xE2, 0x82]], .directory), ([[0x77, 0xE2, 0x82], [0xFF]], .directory)]⟩

/-- The character that is cut off stands right before the separator. -/
theorem lossy_texts_agree_cut_before_separator :
    let w : Path UInt8 := [0x77, 0xE2, 0x82, 0x2F, 0xFF]
    let made := publish none "p".toList [] w cutFiles
    let failed := publish none "p".toList [] w ⟨[]⟩
    baseText w = "w\uFFFD/\uFFFD".toList ∧
      made.outcome = .ok (.within none "w\uFFFD/\uFFFD".toList "p".toList) ∧
      made.log.getLast? = some ⟨.info, "Wrote w\uFFFD/\uFFFD/config.ini".toList⟩ ∧
      failed.outcome = .error ⟨configPath w, .notFound⟩ ∧
      WriteFailure.headline ⟨configPath w, .notFound⟩
        = "failed to write w\uFFFD/\uFFFD/config.ini".toList := by
  intro w made failed
  have hbase : baseText w = "w\uFFFD/\uFFFD".toList := by decide
  have hmade : made.outcome = .ok (.forWorkingDir none "p".toList w) := rfl
  have hfailed : failed.outcome = .error ⟨configPath w, .notFound⟩ := rfl
  obtain ⟨-, -, -, hok, -⟩ := lossy_texts_agree none "p".toList [] w cutFiles
  obtain ⟨-, -, -, -, herror⟩ := lossy_texts_agree none "p".toList [] w ⟨[]⟩
  obtain ⟨hbench, hlog⟩ := hok _ hmade
  obtain ⟨-, hheadline⟩ := herror _ hfailed
  rw [hbase] at hbench hlog hheadline
  refine ⟨hbase, ?_, ?_, hfailed, hheadline⟩
  · rw [hmade, hbench]
  · rw [hlog, List.getLast?_concat]
    rfl

end BenchConfig
