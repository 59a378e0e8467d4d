/-
BenchConfig.Proofs.Publish.Report — the report of a failed publication,
and when it is one line.

The report names the file and the cause. Nothing in it comes from the
plugins or the home directory: these only make the text that was to be
written, and whether a text is refused, and why, does not depend on the
text as long as there is one (`FileSystem.fst_writeOn_of_ne_nil`).

A report is read line by line, so it should be one line. The words around
the file and the messages of the causes are. The file is what is left, and
it is bytes that are read lossily: an octet that is a newline is read as
one, whatever unfinished character it cuts off, and nothing else is read as
one (`Utf8.ofNat_mem_decodeLossy`). The name of the file adds none to the
working directory.

## Not always one line

A directory may have a newline in its name. Nothing is done about it when
the file is shown, so the report has it too, and this is the only way to
break it.
-/
import BenchConfig.Proofs.Publish.Overwrite
import BenchConfig.Proofs.Path.Lossy

namespace BenchConfig

open FileSystem
open PathChar (slash)
open Utf8 (decodeLossy)

/-- The octet that is read as a newline. -/
def newlineOctet : UInt8 := 0x0A

/-! ## 1. What the working directory brings in -/

theorem Path.mem_opened {α : Type} [DecidableEq α] [PathChar α] {c : α} (hc : c ≠ slash) {p : Path α} :
    c ∈ p.opened ↔ c ∈ p := by
  unfold opened
  split
  · exact Iff.rfl
  · simp [hc]

theorem newlineOctet_mem_configPath {workingDir : Path UInt8} :
    newlineOctet ∈ configPath workingDir ↔ newlineOctet ∈ workingDir := by
  have hname : newlineOctet ∉ Utf8.encode configName := by decide
  have hrelative : ¬ Path.IsAbsolute (Utf8.encode configName) := by decide
  rw [configPath, Path.join_of_not_isAbsolute hrelative, List.mem_append,
    Path.mem_opened (by decide), or_iff_left hname]

/-- Of what a failure reports, only the file can break the line. -/
theorem WriteFailure.newline_mem_report (e : WriteFailure) :
    '\n' ∈ e.report ↔ newlineOctet ∈ e.path := by
  have hchar : Char.ofNat newlineOctet.toNat = '\n' := by decide
  have hread : '\n' ∈ decodeLossy e.path ↔ newlineOctet ∈ e.path := by
    rw [← hchar]
    exact Utf8.ofNat_mem_decodeLossy (by decide)
  have hwords : '\n' ∉ "failed to write ".toList := by decide
  have hcolon : '\n' ∉ ": ".toList := by decide
  rw [report_eq, List.mem_append, List.mem_append, List.mem_append, hread,
    or_iff_left e.fault.newline_notMem_message, or_iff_left hcolon, or_iff_right hwords]

/-! ## 2. What does not matter -/

section

variable {home : Option (Path Char)} {plugins : Path Char} {cwd : Location}
  {workingDir : Path UInt8} {files : FileSystem} {failure : WriteFailure}

/-- A failure is the failure of every publication into that directory. -/
theorem publish_fails_of (h : (publish home plugins cwd workingDir files).outcome = .error failure)
    (home' : Option (Path Char)) (plugins' : Path Char) :
    (publish home' plugins' cwd workingDir files).outcome = .error failure := by
  obtain ⟨hpath, hwrite⟩ := writeOn_of_outcome_eq_error rfl h
  have hwrite' : (files.writeOn .unlimited cwd (configPath workingDir)
      (configBytes home' plugins' workingDir)).1 = .error failure.fault := by
    rw [fst_writeOn_of_ne_nil (configBytes_ne_nil _ _ _) (configBytes_ne_nil home plugins _), hwrite]
  rw [publish, publishOn_of_fst_eq_error hwrite', ← hpath]

/-! ## 3. The report -/

/-- **The report is one line exactly when the working directory allows it.**
The report of a failed publication names the file, read lossily, and the
fault of the write. It is the same for all plugins and every home directory.
It has no newline if and only if the working directory has none. -/
theorem report_is_one_line_iff
    (h : (publish home plugins cwd workingDir files).outcome = .error failure) :
    files.write cwd (configPath workingDir) (configBytes home plugins workingDir)
      = .error failure.fault ∧
    failure.report = "failed to write ".toList ++ decodeLossy (configPath workingDir)
      ++ ": ".toList ++ failure.fault.message ∧
    (∀ home' plugins', (publish home' plugins' cwd workingDir files).outcome = .error failure) ∧
    ('\n' ∉ failure.report ↔ newlineOctet ∉ workingDir) := by
  obtain ⟨hpath, hwriteOn⟩ := writeOn_of_outcome_eq_error rfl h
  have hwrite : files.write cwd (configPath workingDir) (configBytes home plugins workingDir)
      = .error failure.fault := write_eq_error_iff.mpr (congrArg Prod.fst hwriteOn)
  have hreport := failure.report_eq
  rw [hpath] at hreport
  have hnewline : '\n' ∈ failure.report ↔ newlineOctet ∈ workingDir := by
    rw [failure.newline_mem_report, hpath, newlineOctet_mem_configPath]
  exact ⟨hwrite, hreport, publish_fails_of h, not_congr hnewline⟩

end

/-- The newline cuts off a character, and is all that keeps two octets from
being one. An octet that is a newline but for its highest bit is none. -/
theorem report_is_one_line_iff_next_to_cut :
    let broken : WriteFailure := ⟨configPath [0xC2, 0x0A, 0x85], .notFound⟩
    let whole : WriteFailure := ⟨configPath [0xC2, 0x8A], .notFound⟩
    (publish none "p".toList [] [0xC2, 0x0A, 0x85] ⟨[]⟩).outcome = .error broken ∧
      '\n' ∈ broken.report ∧
      (publish none "p".toList [] [0xC2, 0x8A] ⟨[]⟩).outcome = .error whole ∧
      '\n' ∉ whole.report := by
  intro broken whole
  have hbroken : (publish none "p".toList [] [0xC2, 0x0A, 0x85] ⟨[]⟩).outcome = .error broken := rfl
  have hwhole : (publish none "p".toList [] [0xC2, 0x8A] ⟨[]⟩).outcome = .error whole := rfl
  obtain ⟨-, -, -, htwo⟩ := report_is_one_line_iff hbroken
  obtain ⟨-, -, -, hone⟩ := report_is_one_line_iff hwhole
  have hnewline : newlineOctet ∈ ([0xC2, 0x0A, 0x85] : Path UInt8) := by simp [newlineOctet]
  refine ⟨hbroken, ?_, hwhole, hone.mpr (by simp [newlineOctet])⟩
  exact Decidable.not_not.mp fun hnone => htwo.mp hnone hnewline

end BenchConfig
