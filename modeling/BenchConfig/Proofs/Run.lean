/-
BenchConfig.Proofs.Run — what a run of the program leaves behind.

A run takes three steps, and each of them has one lemma for the case that
it fails and one for the case that the run goes on. Behind the first step
all is made from the publication (`run_eq_ofPublication`). A directory
that can not be read leaves all as it was, and a standard output that
takes nothing leaves itself as it was. So the files show the publication
if and only if the run came that far.

## What a failed publication leaves

A publication that fails leaves the files as they were, except in one
case: the file has been made or emptied, and then the disk has too little
room (`publishOn_of_outcome_eq_error`). Nobody cleans up, so the file is
there with the beginning of the configuration. That the files are the same
is therefore said under the assumption that the disk takes the
configuration, and without it only that nothing else has changed.
-/
import BenchConfig.Run
import BenchConfig.Proofs.Frame
import BenchConfig.Proofs.Publish.OneFile

namespace BenchConfig

open FileSystem

/-! ## 1. The publication of a run -/

/-- The data has become the content of the configuration in a working
directory, and is read back there; or a device stands in that place, and
nothing has changed. -/
def ConfigHolds (files : FileSystem) (cwd : Location) (workingDir : Path UInt8) (data : Bytes)
    (files' : FileSystem) : Prop :=
  ∃ d n, files.LeadsTo cwd (configPath workingDir) d n ∧
    (Filled files d n data files' ∧ files'.read cwd (configPath workingDir) = .ok data ∨
      (∃ device, files.get? (d ++ [n]) = some (.device device)) ∧ files' = files)

/-- A beginning of the data, and not all of it, has become the content of
the configuration in a working directory, and is read back there. -/
def ConfigTorn (files : FileSystem) (cwd : Location) (workingDir : Path UInt8) (data : Bytes)
    (files' : FileSystem) : Prop :=
  ∃ d n part, files.LeadsTo cwd (configPath workingDir) d n ∧ part <+: data ∧ part ≠ data ∧
    Filled files d n part files' ∧ files'.read cwd (configPath workingDir) = .ok part

section

variable {disk : Disk} {home : Option (Path Char)} {plugins : Path Char} {cwd : Location}
  {workingDir : Path UInt8} {files : FileSystem} {p : Publication}

theorem publishOn_of_outcome_eq_error {failure : WriteFailure}
    (hp : publishOn disk home plugins cwd workingDir files = p)
    (h : p.outcome = .error failure) :
    failure.path = configPath workingDir ∧
      (p.files = files ∨
        ¬ disk.Takes (configBytes home plugins workingDir) ∧ failure.fault = disk.fault ∧
          ConfigTorn files cwd workingDir (configBytes home plugins workingDir) p.files) := by
  obtain ⟨hpath, hwrite⟩ := writeOn_of_outcome_eq_error hp h
  refine ⟨hpath, ?_⟩
  obtain hsame | ⟨hnot, hfault, d, n, hland, hfilled⟩ := writeOn_eq_error_cases hwrite
  · exact .inl hsame
  · exact .inr ⟨hnot, hfault, d, n, _, leadsTo_of_land (by decide) hland, disk.keep_isPrefix _,
      Disk.keep_ne_of_not_takes hnot, hfilled, read_of_filled hland hfilled⟩

theorem publishOn_of_outcome_eq_ok {bench : Bench}
    (hp : publishOn disk home plugins cwd workingDir files = p) (h : p.outcome = .ok bench) :
    bench = .forWorkingDir home plugins workingDir ∧
      ConfigHolds files cwd workingDir (configBytes home plugins workingDir) p.files := by
  obtain ⟨rfl, hwrite⟩ := writeOn_of_outcome_eq_ok hp h
  obtain ⟨d, n, hland, hcase⟩ := writeOn_eq_ok_cases hwrite
  refine ⟨rfl, d, n, leadsTo_of_land (by decide) hland, ?_⟩
  obtain hfilled | ⟨device, hdevice, hsame⟩ := hcase
  · exact .inl ⟨hfilled, read_of_filled hland hfilled⟩
  · exact .inr ⟨⟨device, hdevice⟩, hsame⟩

end

namespace Run

/-! ## 2. The steps -/

namespace Step

variable {α β : Type} {step : Step α} {next : α → Step β} {before after : Machine}

theorem bind_of_error {failure : Failure} (h : step before = (.error failure, after)) :
    (step >>= next) before = (.error failure, after) := by
  simp only [bind, h]

theorem bind_of_ok {a : α} (h : step before = (.ok a, after)) :
    (step >>= next) before = next a after := by
  simp only [bind, h]

end Step

/-- What a run leaves behind when its publication is known. -/
def Result.ofPublication (p : Publication) (stdout : Sink) : Result :=
  match p.outcome with
  | .error failure => ⟨some (.publish failure), stdout.held, p.files⟩
  | .ok bench =>
    match bench.present stdout with
    | (.error fault, out) => ⟨some (.stdout fault), out.held, p.files⟩
    | (.ok (), out) => ⟨none, out.held, p.files⟩

namespace Setting

/-- The working directory of a run that finds one. -/
def workingDir (s : Setting) : Path UInt8 :=
  (Route.fromRoot s.cwd).toPath

/-- The publication of a run that comes that far. -/
def publication (s : Setting) : Publication :=
  publishOn s.disk (homeDirectory s.home) s.plugins s.cwd s.workingDir s.files

/-- The bench of the run. -/
def bench (s : Setting) : Bench :=
  .forWorkingDir (homeDirectory s.home) s.plugins s.workingDir

variable {s : Setting}

theorem run_of_currentPath_eq_error {fault : Fault} (h : currentPath s.files s.cwd = .error fault) :
    s.run = ⟨some (.directory fault), s.stdout.held, s.files⟩ := by
  have hstep : Step.directory s ⟨s.stdout, s.files⟩
      = (.error (.directory fault), ⟨s.stdout, s.files⟩) := by
    rw [Step.directory, h]
    rfl
  rw [run, inOrder, Step.bind_of_error hstep]
  rfl

theorem currentPath_cases (s : Setting) :
    currentPath s.files s.cwd = .ok s.workingDir ∨
      ∃ fault, currentPath s.files s.cwd = .error fault := by
  unfold currentPath
  split
  · exact .inl rfl
  · exact .inr ⟨.notFound, rfl⟩

section

variable (hdir : currentPath s.files s.cwd = .ok s.workingDir)

include hdir

theorem run_eq_ofPublication : s.run = .ofPublication s.publication s.stdout := by
  have hstep : Step.directory s ⟨s.stdout, s.files⟩ = (.ok s.workingDir, ⟨s.stdout, s.files⟩) := by
    rw [Step.directory, hdir]
    rfl
  have hnext : Step.publication s s.workingDir ⟨s.stdout, s.files⟩
      = (s.publication.outcome.mapError .publish, ⟨s.stdout, s.publication.files⟩) := rfl
  rw [run, inOrder, Step.bind_of_ok hstep, Result.ofPublication]
  cases houtcome : s.publication.outcome with
  | error failure =>
    rw [houtcome] at hnext
    rw [Step.bind_of_error hnext]
    rfl
  | ok bench =>
    rw [houtcome] at hnext
    rw [Step.bind_of_ok hnext]
    simp only [Step.presentation]
    obtain ⟨fault | done, out⟩ := bench.present s.stdout <;> rfl

theorem run_of_outcome_eq_error {failure : WriteFailure}
    (h : s.publication.outcome = .error failure) :
    s.run = ⟨some (.publish failure), s.stdout.held, s.publication.files⟩ := by
  simp only [run_eq_ofPublication hdir, Result.ofPublication, h]

theorem run_of_refuses {bench : Bench} {fault : Fault} (h : s.publication.outcome = .ok bench)
    (hstdout : s.stdout.Refuses fault) :
    s.run = ⟨some (.stdout fault), s.stdout.held, s.publication.files⟩ := by
  simp only [run_eq_ofPublication hdir, Result.ofPublication, h,
    Bench.present_of_refuses hstdout]

theorem run_of_takesAll {bench : Bench} (h : s.publication.outcome = .ok bench)
    (hstdout : s.stdout.TakesAll) :
    s.run = ⟨none, s.stdout.held ++ Utf8.encode (Frame.wrap s.bench.text),
      s.publication.files⟩ := by
  obtain ⟨rfl, -⟩ := publishOn_of_outcome_eq_ok rfl h
  simp only [run_eq_ofPublication hdir, Result.ofPublication, h,
    Bench.present_of_limit_eq_none hstdout.1, hstdout.flush]
  rfl

end

theorem exitCode_run_eq_zero_iff (hstdout : s.stdout.TakesAll ∨ ∃ fault, s.stdout.Refuses fault) :
    s.run.exitCode = 0 ↔ currentPath s.files s.cwd = .ok s.workingDir ∧
      (∃ bench, s.publication.outcome = .ok bench) ∧ s.stdout.TakesAll := by
  constructor
  · intro hexit
    obtain hdir | ⟨fault, hdir⟩ := s.currentPath_cases
    · cases houtcome : s.publication.outcome with
      | error failure =>
        rw [run_of_outcome_eq_error hdir houtcome] at hexit
        cases hexit
      | ok bench =>
        obtain hall | ⟨fault, hrefuses⟩ := hstdout
        · exact ⟨hdir, ⟨bench, rfl⟩, hall⟩
        · rw [run_of_refuses hdir houtcome hrefuses] at hexit
          cases hexit
    · rw [run_of_currentPath_eq_error hdir] at hexit
      cases hexit
  · rintro ⟨hdir, ⟨bench, houtcome⟩, hall⟩
    rw [run_of_takesAll hdir houtcome hall]
    rfl

end Setting

theorem Result.exitCode_eq (r : Result) : r.exitCode = 0 ∨ r.exitCode = 1 := by
  unfold exitCode
  split
  · exact .inl rfl
  · exact .inr rfl

/-! ## 3. The outcome -/

/-- **Three steps decide the outcome of a run**, and a failure leaves what
the steps before it did. The exit code is 0 if the working directory can
be read, the configuration can be published there and standard output
takes it; otherwise it is 1. In this order,

* a run with exit code 0 says nothing on standard error and shows the
  framed configuration, which is also in the file;
* without a working directory nothing is shown and no file changes;
* the same holds without a publication, on a disk that takes the
  configuration. On any other disk the only file that can have changed is
  the one with the configuration, which then has a beginning of it;
* if only standard output fails, nothing is shown, but the configuration
  is in the file all the same.

Every failure is reported on standard error with its cause. -/
theorem run_outcome (s : Setting) (hheld : s.stdout.held = [])
    (hstdout : s.stdout.TakesAll ∨ ∃ fault, s.stdout.Refuses fault) :
    (s.run.exitCode = 0 ∨ s.run.exitCode = 1) ∧
    (s.run.exitCode = 0 ↔ currentPath s.files s.cwd = .ok s.workingDir ∧
      (∃ bench, s.publication.outcome = .ok bench) ∧ s.stdout.TakesAll) ∧
    (s.run.exitCode = 0 →
      s.run.stderr = [] ∧
      s.run.stdout = Utf8.encode
        (Frame.beginMarker ++ '\n' :: s.bench.text ++ Frame.endMarker ++ ['\n', '\n']) ∧
      ConfigHolds s.files s.cwd s.workingDir (Utf8.encode s.bench.text) s.run.files) ∧
    (∀ fault, currentPath s.files s.cwd = .error fault →
      s.run.stdout = [] ∧ s.run.files = s.files ∧
      s.run.stderr = "Error: failed to read working directory: ".toList
        ++ fault.message ++ ['\n']) ∧
    (currentPath s.files s.cwd = .ok s.workingDir →
      ∀ failure, s.publication.outcome = .error failure →
        s.run.stdout = [] ∧
        (s.disk.Takes (Utf8.encode s.bench.text) → s.run.files = s.files) ∧
        (s.run.files = s.files ∨ failure.fault = s.disk.fault ∧
          ConfigTorn s.files s.cwd s.workingDir (Utf8.encode s.bench.text) s.run.files) ∧
        s.run.stderr = "Error: failed to write ".toList
          ++ Utf8.decodeLossy (configPath s.workingDir) ++ ": ".toList
          ++ failure.fault.message ++ ['\n']) ∧
    (currentPath s.files s.cwd = .ok s.workingDir →
      ∀ bench fault, s.publication.outcome = .ok bench → s.stdout.Refuses fault →
        s.run.stdout = [] ∧
        ConfigHolds s.files s.cwd s.workingDir (Utf8.encode s.bench.text) s.run.files ∧
        s.run.stderr = "Error: failed to write standard output: ".toList
          ++ fault.message ++ ['\n']) := by
  have hexit := Setting.exitCode_run_eq_zero_iff hstdout
  refine ⟨s.run.exitCode_eq, hexit, ?success, ?directory, ?publication, ?stdout⟩
  case success =>
    intro hzero
    obtain ⟨hdir, ⟨bench, houtcome⟩, hall⟩ := hexit.mp hzero
    have hholds := (publishOn_of_outcome_eq_ok (p := s.publication) rfl houtcome).2
    rw [Setting.run_of_takesAll hdir houtcome hall, hheld, Frame.wrap_text, List.nil_append]
    exact ⟨rfl, rfl, hholds⟩
  case directory =>
    intro fault hdir
    rw [Setting.run_of_currentPath_eq_error hdir]
    exact ⟨hheld, rfl, rfl⟩
  case publication =>
    intro hdir failure houtcome
    obtain ⟨hpath, hleft⟩ := publishOn_of_outcome_eq_error (p := s.publication) rfl houtcome
    rw [Setting.run_of_outcome_eq_error hdir houtcome, ← hpath]
    refine ⟨hheld, fun htakes => ?_, hleft.imp_right And.right, rfl⟩
    obtain hsame | ⟨hnot, -⟩ := hleft
    · exact hsame
    · exact absurd htakes hnot
  case stdout =>
    intro hdir bench fault houtcome hrefuses
    have hholds := (publishOn_of_outcome_eq_ok (p := s.publication) rfl houtcome).2
    rw [Setting.run_of_refuses hdir houtcome hrefuses]
    exact ⟨hheld, hholds, rfl⟩

/-- In the directory `w` the configuration is an old file. -/
def oldFiles : FileSystem :=
  ⟨[([Utf8.encode ['w']], .directory),
    ([Utf8.encode ['w'], Utf8.encode configName], .file (Utf8.encode "old".toList))]⟩

/-- Nobody reads standard output, and the configuration is a link to a
link to a file that does not exist yet. Or the configuration is a file,
and the disk has room for its first line. -/
theorem run_outcome_broken_pipe_and_full_disk :
    let s : Setting :=
      { plugins := "/p".toList, cwd := [Utf8.encode ['w']], arguments := [Utf8.encode "-h".toList],
        stdout := .broken .brokenPipe, files := chainedFiles }
    let t : Setting :=
      { plugins := "/p".toList, cwd := [Utf8.encode ['w']], disk := { room := some 9 },
        files := oldFiles }
    (s.stdout.held = [] ∧ s.stdout.Refuses .brokenPipe ∧ s.run.exitCode = 1 ∧ s.run.stdout = [] ∧
      s.run.stderr
        = "Error: failed to write standard output: Broken pipe (os error 32)\n".toList ∧
      ConfigHolds s.files s.cwd s.workingDir (Utf8.encode s.bench.text) s.run.files) ∧
    t.stdout.held = [] ∧ t.stdout.TakesAll ∧ t.run.exitCode = 1 ∧ t.run.stdout = [] ∧
      t.run.stderr
        = "Error: failed to write /w/config.ini: No space left on device (os error 28)\n".toList ∧
      t.run.files.read t.cwd (configPath t.workingDir) = .ok (Utf8.encode "[RISCOF]\n".toList) ∧
      ConfigTorn t.files t.cwd t.workingDir (Utf8.encode t.bench.text) t.run.files := by
  intro s t
  constructor
  · have hrefuses : s.stdout.Refuses .brokenPipe := ⟨rfl, rfl⟩
    obtain ⟨hcode, hzero, -, -, -, hstdout⟩ := run_outcome s rfl (.inr ⟨_, hrefuses⟩)
    obtain ⟨hshown, hholds, hstderr⟩ := hstdout rfl _ _ rfl hrefuses
    have hone := hcode.resolve_left fun h => hrefuses.not_takesAll (hzero.mp h).2.2
    exact ⟨rfl, hrefuses, hone, hshown, hstderr, hholds⟩
  · have hall : t.stdout.TakesAll := ⟨rfl, rfl⟩
    have houtcome : t.publication.outcome = .error ⟨configPath t.workingDir, .noSpace⟩ := rfl
    obtain ⟨hcode, hzero, -, -, hpublication, -⟩ := run_outcome t rfl (.inl hall)
    obtain ⟨hshown, -, hleft, hstderr⟩ := hpublication rfl _ houtcome
    have hfails : ¬ ∃ bench, t.publication.outcome = .ok bench := by
      rintro ⟨bench, hok⟩
      cases houtcome.symm.trans hok
    have hone := hcode.resolve_left fun h => hfails (hzero.mp h).2.1
    have hread : t.run.files.read t.cwd (configPath t.workingDir)
        = .ok (Utf8.encode "[RISCOF]\n".toList) := by
      rw [Setting.run_of_outcome_eq_error rfl houtcome]
      rfl
    obtain hsame | ⟨-, htorn⟩ := hleft
    · rw [hsame] at hread
      exact absurd hread (by decide)
    · exact ⟨rfl, hall, hone, hshown, hstderr, hread, htorn⟩

end Run

end BenchConfig
