/-
BenchConfig.Proofs.Publish.Failure — a publication that fails leaves no
trace but its log.

A publication can fail in many ways and late: the working directory is
missing, a directory or a loop of links is in the way, a name is too
long, a dangling link leads into a directory that does not exist, or the
file has been opened and the device behind it is full. All of these are
faults of the one write. That the files are then what they were is a fact
about each step of the write, so it is said of the write in pieces, with
the text of the bench cut in any way (`FileSystem.agrees_writeOn`,
`FileSystem.writeInPieces_of_write_eq_error`).

The records of the log are made before the write and do not depend on it.

## Not on every disk

This is about a disk that takes everything. On one that has too little
room a publication can fail when the file is there already, and leaves a
beginning of the text in it (`FileSystem.writeOn_eq_error_cases`).
-/
import BenchConfig.Proofs.FileSystem.Handle
import BenchConfig.Proofs.Publish.OneFile

namespace BenchConfig

open FileSystem

/-- **A failed publication changes nothing.** The failure names the file
byte for byte, the log ends with what was known before the write, and all
files, links and directories are the same, whatever the pieces in which
the text was to be written. A publication that succeeds has one record
more. -/
theorem failed_publication_changes_nothing (home : Option (Path Char)) (plugins : Path Char)
    (cwd : Location) (workingDir : Path UInt8) (files : FileSystem) :
    let bench := Bench.within home (Utf8.decodeLossy workingDir) plugins
    let p := publish home plugins cwd workingDir files
    let opening : List Record :=
      [⟨.debug, "Plugin directory: ".toList ++ plugins⟩,
       ⟨.debug, "Reference plugin: ".toList ++ bench.reference.directory⟩,
       ⟨.debug, "DUT plugin: ".toList ++ bench.dut.directory⟩]
    (∀ failure, p.outcome = .error failure →
      p.files = files ∧ failure.path = configPath workingDir ∧ p.log = opening ∧
      ∀ pieces : List Bytes, pieces.flatten = Utf8.encode bench.text →
        files.writeInPieces cwd (configPath workingDir) pieces
          = (.error failure.fault, files)) ∧
    ∀ published, p.outcome = .ok published →
      p.log = opening
        ++ [⟨.info, "Wrote ".toList ++ Utf8.decodeLossy (configPath workingDir)⟩] ∧
      ∀ pieces : List Bytes, pieces.flatten = Utf8.encode bench.text →
        (files.writeInPieces cwd (configPath workingDir) pieces).1 = .ok () ∧
        Alike (files.writeInPieces cwd (configPath workingDir) pieces).2 p.files := by
  intro bench p opening
  refine ⟨fun failure h => ?failure, fun published h => ?success⟩
  case failure =>
    obtain ⟨hpath, hwrite⟩ := writeOn_of_outcome_eq_error (p := p) rfl h
    have hfiles : p.files = files := eq_of_writeOn_eq_error (Disk.takes_unlimited _) hwrite
    have hlog : p.log = opening := log_of_outcome_eq_error (p := p) rfl h
    refine ⟨hfiles, hpath, hlog, fun pieces hpieces => writeInPieces_of_write_eq_error ?_⟩
    rw [hpieces]
    exact write_eq_error_iff.mpr (congrArg Prod.fst hwrite)
  case success =>
    have hwrite := (writeOn_of_outcome_eq_ok (p := p) rfl h).2
    refine ⟨log_of_outcome_eq_ok (p := p) rfl h, fun pieces hpieces => ?_⟩
    have hagrees : Agrees (files.writeInPieces cwd (configPath workingDir) pieces)
        (.ok (), p.files) := by
      rw [← hwrite, configBytes]
      exact hpieces ▸ agrees_writeOn .unlimited files cwd (configPath workingDir) pieces
    exact ⟨hagrees.outcome, hagrees.files⟩

/-- In the directory `w` the configuration is a link to the full device. -/
def fullFiles : FileSystem :=
  ⟨[([Utf8.encode ['w']], .directory),
    ([Utf8.encode ['w'], Utf8.encode configName], .link (Utf8.encode "/full".toList)),
    ([Utf8.encode "full".toList], .device .full)]⟩

/-- The device is opened and refuses the first of two pieces. -/
theorem failed_publication_changes_nothing_on_full_device :
    let w : Path UInt8 := Utf8.encode ['w']
    let p := publish none "/p".toList [] w fullFiles
    let text := Utf8.encode (Bench.within none ['w'] "/p".toList).text
    p.outcome = .error ⟨configPath w, .noSpace⟩ ∧ p.files = fullFiles ∧ p.log.length = 3 ∧
      fullFiles.writeInPieces [] (configPath w) [text.take 9, text.drop 9]
        = (.error .noSpace, fullFiles) := by
  intro w p text
  have houtcome : p.outcome = .error ⟨configPath w, .noSpace⟩ := rfl
  have hcut : [text.take 9, text.drop 9].flatten = text := by simp
  obtain ⟨hfiles, -, hlog, hpieces⟩ :=
    (failed_publication_changes_nothing none "/p".toList [] w fullFiles).1 _ houtcome
  exact ⟨houtcome, hfiles, congrArg List.length hlog, hpieces _ hcut⟩

end BenchConfig
