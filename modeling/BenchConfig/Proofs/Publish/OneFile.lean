/-
BenchConfig.Proofs.Publish.OneFile — a successful publication changes
one file.

Publishing is one write, and what comes of it is what comes of the write
(`publishOn_of_fst_eq_ok`, `publishOn_of_fst_eq_error`). What a write
changes is known from the file system: the place that the path of the
configuration leads to, and nothing else.
-/
import BenchConfig.Publish
import BenchConfig.Proofs.FileSystem.Write

namespace BenchConfig

open FileSystem

/-- The bytes that are written for a working directory. -/
def configBytes (home : Option (Path Char)) (plugins : Path Char) (workingDir : Path UInt8) :
    Bytes :=
  Utf8.encode (Bench.forWorkingDir home plugins workingDir).text

variable {home : Option (Path Char)} {plugins : Path Char} {cwd : Location}
  {workingDir : Path UInt8} {files files' : FileSystem} {bench : Bench} {log : List Record}
  {disk : Disk} {p : Publication}

/-! ## 1. A publication and its write -/

section

variable {path : Path UInt8} {w : Except Fault Unit × FileSystem}

theorem Publication.ofWrite_eq_error {fault : Fault} (h : w.1 = .error fault) :
    ofWrite plugins bench path w = ⟨.error ⟨path, fault⟩, openingRecords plugins bench, w.2⟩ := by
  obtain ⟨_, _⟩ := w
  cases h
  rfl

theorem Publication.ofWrite_eq_ok (h : w.1 = .ok ()) :
    ofWrite plugins bench path w
      = ⟨.ok bench,
         openingRecords plugins bench ++ [⟨.info, "Wrote ".toList ++ Utf8.decodeLossy path⟩],
         w.2⟩ := by
  obtain ⟨_, _⟩ := w
  cases h
  rfl

/-- The files are those of the write, whether it succeeds or not. -/
theorem Publication.files_ofWrite : (ofWrite plugins bench path w).files = w.2 := by
  obtain ⟨_ | _, _⟩ := w <;> rfl

theorem Publication.write_of_outcome_eq_ok {published : Bench}
    (hp : ofWrite plugins bench path w = p) (h : p.outcome = .ok published) :
    published = bench ∧ w = (.ok (), p.files) := by
  subst hp
  obtain ⟨_ | _, files⟩ := w
  · cases h
  · cases h
    exact ⟨rfl, rfl⟩

theorem Publication.write_of_outcome_eq_error {failure : WriteFailure}
    (hp : ofWrite plugins bench path w = p) (h : p.outcome = .error failure) :
    failure.path = path ∧ w = (.error failure.fault, p.files) := by
  subst hp
  obtain ⟨_ | _, files⟩ := w
  · cases h
    exact ⟨rfl, rfl⟩
  · cases h

end

theorem publishOn_of_fst_eq_error {fault : Fault}
    (h : (files.writeOn disk cwd (configPath workingDir) (configBytes home plugins workingDir)).1
      = .error fault) :
    publishOn disk home plugins cwd workingDir files
      = ⟨.error ⟨configPath workingDir, fault⟩,
         openingRecords plugins (.forWorkingDir home plugins workingDir),
         (files.writeOn disk cwd (configPath workingDir) (configBytes home plugins workingDir)).2⟩ :=
  Publication.ofWrite_eq_error h

theorem publishOn_of_fst_eq_ok
    (h : (files.writeOn disk cwd (configPath workingDir) (configBytes home plugins workingDir)).1
      = .ok ()) :
    publishOn disk home plugins cwd workingDir files
      = ⟨.ok (.forWorkingDir home plugins workingDir),
         openingRecords plugins (.forWorkingDir home plugins workingDir)
           ++ [⟨.info, "Wrote ".toList ++ Utf8.decodeLossy (configPath workingDir)⟩],
         (files.writeOn disk cwd (configPath workingDir) (configBytes home plugins workingDir)).2⟩ :=
  Publication.ofWrite_eq_ok h

theorem files_publishOn :
    (publishOn disk home plugins cwd workingDir files).files
      = (files.writeOn disk cwd (configPath workingDir)
          (configBytes home plugins workingDir)).2 :=
  Publication.files_ofWrite

theorem writeOn_of_outcome_eq_ok (hp : publishOn disk home plugins cwd workingDir files = p)
    (h : p.outcome = .ok bench) :
    bench = .forWorkingDir home plugins workingDir ∧
      files.writeOn disk cwd (configPath workingDir) (configBytes home plugins workingDir)
        = (.ok (), p.files) :=
  Publication.write_of_outcome_eq_ok hp h

theorem writeOn_of_outcome_eq_error {failure : WriteFailure}
    (hp : publishOn disk home plugins cwd workingDir files = p) (h : p.outcome = .error failure) :
    failure.path = configPath workingDir ∧
      files.writeOn disk cwd (configPath workingDir) (configBytes home plugins workingDir)
        = (.error failure.fault, p.files) :=
  Publication.write_of_outcome_eq_error hp h

theorem log_of_outcome_eq_ok (hp : publishOn disk home plugins cwd workingDir files = p)
    (h : p.outcome = .ok bench) :
    p.log = openingRecords plugins (.forWorkingDir home plugins workingDir)
      ++ [⟨.info, "Wrote ".toList ++ Utf8.decodeLossy (configPath workingDir)⟩] := by
  have hwrite := (writeOn_of_outcome_eq_ok hp h).2
  rw [← hp, publishOn_of_fst_eq_ok (congrArg Prod.fst hwrite)]

theorem log_of_outcome_eq_error {failure : WriteFailure}
    (hp : publishOn disk home plugins cwd workingDir files = p) (h : p.outcome = .error failure) :
    p.log = openingRecords plugins (.forWorkingDir home plugins workingDir) := by
  have hwrite := (writeOn_of_outcome_eq_error hp h).2
  rw [← hp, publishOn_of_fst_eq_error (congrArg Prod.fst hwrite)]

/-! ## 2. The one file -/

/-- **A successful publication changes one file.** The path of the
configuration leads to one place. The file there has the text of the
bench as its whole content, and is read back by the same path. All else
is as it was: every other node, all links (one in the place of the
configuration too), all directories, and every listing but for the name
of a file that is new. A device in that place keeps nothing, and then
nothing changes at all. -/
theorem publish_changes_one_file
    (h : publish home plugins cwd workingDir files = ⟨.ok bench, log, files'⟩) :
    bench = .within home (Utf8.decodeLossy workingDir) plugins ∧
    ∃ d n, (∀ d' n', files.LeadsTo cwd (configPath workingDir) d' n' ↔ d' = d ∧ n' = n) ∧
      ((∃ device, files.get? (d ++ [n]) = some (.device device)) ∧ files' = files ∨
        Filled files d n (Utf8.encode bench.text) files' ∧
        files'.read cwd (configPath workingDir) = .ok (Utf8.encode bench.text) ∧
        SameWays files files' ∧
        (∀ d', d' ≠ d → files'.names d' = files.names d') ∧
        files'.names d = insertName n (files.names d) ∧
        ((files.get? (d ++ [n])).isSome → files'.names d = files.names d)) := by
  obtain ⟨rfl, hwrite⟩ := writeOn_of_outcome_eq_ok h rfl
  obtain ⟨d, n, hland, hcase⟩ := writeOn_eq_ok_cases hwrite
  have hleads : files.LeadsTo cwd (configPath workingDir) d n := leadsTo_of_land (by decide) hland
  refine ⟨rfl, d, n, fun d' n' => ⟨hleads.unique, ?_⟩, ?_⟩
  · rintro ⟨rfl, rfl⟩
    exact hleads
  rcases hcase with hfilled | ⟨device, hdevice, rfl⟩
  · have hread := read_of_filled hland hfilled
    have hnames : ∀ d', d' ≠ d → files'.names d' = files.names d' := by
      intro d' hd'
      exact hfilled.names_of_ne hd'
    exact .inr ⟨hfilled, hread, hfilled.sameWays, hnames, hfilled.names_eq,
      hfilled.names_of_isSome⟩
  · exact .inl ⟨⟨device, hdevice⟩, rfl⟩

/-- In the directory `w` the configuration is a link to the link `l`,
which leads to a file in `o` that does not exist. -/
def chainedFiles : FileSystem :=
  ⟨[([Utf8.encode ['w']], .directory),
    ([Utf8.encode ['w'], Utf8.encode configName], .link (Utf8.encode "../l".toList)),
    ([Utf8.encode ['l']], .link (Utf8.encode "o/./f".toList)),
    ([Utf8.encode ['o']], .directory)]⟩

/-- The file is created at the end of the chain. -/
theorem publish_changes_one_file_at_chain_end :
    ∃ log files',
      publish none "/p".toList [] (Utf8.encode ['w']) chainedFiles
        = ⟨.ok (.within none ['w'] "/p".toList), log, files'⟩ ∧
      ∃ d n, chainedFiles.LeadsTo [] (configPath (Utf8.encode ['w'])) d n ∧
        Filled chainedFiles d n (Utf8.encode (Bench.within none ['w'] "/p".toList).text) files' := by
  refine ⟨_, chainedFiles.insert [Utf8.encode ['o'], Utf8.encode ['f']] (.file _), rfl, ?_⟩
  obtain ⟨-, d, n, hleads, ⟨-, hsame⟩ | ⟨hfilled, -⟩⟩ := publish_changes_one_file
    (rfl : publish none "/p".toList [] (Utf8.encode ['w']) chainedFiles
      = ⟨.ok (.within none ['w'] "/p".toList), _,
         chainedFiles.insert [Utf8.encode ['o'], Utf8.encode ['f']] (.file _)⟩)
  · exact absurd (congrArg (fun files => files.nodes.length) hsame) (by decide)
  · exact ⟨d, n, (hleads d n).mpr ⟨rfl, rfl⟩, hfilled⟩

end BenchConfig
