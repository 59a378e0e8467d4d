/-
BenchConfig.Proofs.Run.Repeated — runs of the program one after another,
and runs in different places.

What a run leaves behind is made from its publication
(`run_eq_ofPublication`), so what is known about publications carries
over.

* A run that follows another one finds its own file written or made
  already, perhaps at the end of links. It comes to what it comes to
  alone (`invoke_after`), because publications overwrite each other, and
  the working directory is still there. For a sequence of runs the rest
  is induction (`alike_of_mem_invokeAll`).
* The home directory and the working directory are read when the
  directory of plugins is resolved. An absolute one is resolved without
  either (`Bench.within_of_isAbsolute`), so it decides alone about the
  bench, and with it about all that a successful run writes
  (`shown_and_written`).
-/
import BenchConfig.Proofs.Publish.Overwrite
import BenchConfig.Proofs.Bench.Layout
import BenchConfig.Proofs.Run

namespace BenchConfig

open FileSystem

section

variable {disk : Disk} {home : Option (Path Char)} {plugins : Path Char} {cwd : Location}
  {workingDir : Path UInt8} {files : FileSystem}

theorem publishOn_of_isAbsolute (h : plugins.IsAbsolute) (home home' : Option (Path Char)) :
    publishOn disk home plugins cwd workingDir files
      = publishOn disk home' plugins cwd workingDir files := by
  have hbench : Bench.forWorkingDir home plugins workingDir
      = Bench.forWorkingDir home' plugins workingDir :=
    Bench.within_of_isAbsolute h home home' _ _
  rw [publishOn, publishOn, hbench]

/-- Whether it succeeds or not, a publication leaves all ways as they were. -/
theorem sameWays_publishOn :
    SameWays files (publishOn disk home plugins cwd workingDir files).files := by
  rw [files_publishOn]
  exact sameWays_writeOn disk files cwd _ _

end

namespace Run

/-! ## 1. Results -/

/-- The same failure and the same output, and files that are alike. -/
structure Result.Alike (x y : Result) : Prop where
  failure : x.failure = y.failure
  stdout : x.stdout = y.stdout
  files : FileSystem.Alike x.files y.files

namespace Result

theorem Alike.refl (x : Result) : Alike x x :=
  ⟨rfl, rfl, .refl x.files⟩

theorem Alike.trans {x y z : Result} (h : Alike x y) (h' : Alike y z) : Alike x z :=
  ⟨h.failure.trans h'.failure, h.stdout.trans h'.stdout, h.files.trans h'.files⟩

theorem files_ofPublication (p : Publication) (stdout : Sink) :
    (ofPublication p stdout).files = p.files := by
  unfold ofPublication
  split
  · rfl
  · split <;> rfl

theorem alike_ofPublication {p q : Publication} (h : p.Alike q) (stdout : Sink) :
    (ofPublication p stdout).Alike (ofPublication q stdout) := by
  have hfiles : FileSystem.Alike (ofPublication p stdout).files (ofPublication q stdout).files := by
    rw [files_ofPublication, files_ofPublication]
    exact h.files
  refine ⟨?_, ?_, hfiles⟩ <;>
  · unfold ofPublication
    rw [h.outcome]
    split
    · rfl
    · split <;> rfl

theorem stdout_ofPublication {p : Publication} {stdout : Sink} {bench : Bench}
    (hbench : p.outcome = .ok bench) (h : (ofPublication p stdout).exitCode = 0) :
    (ofPublication p stdout).stdout = stdout.held ++ Utf8.encode (Frame.wrap bench.text) := by
  simp only [ofPublication, hbench] at h ⊢
  split at h
  · cases h
  · next out hpresent =>
    rw [Bench.present_eq] at hpresent
    rw [Sink.eq_take_of_written_eq_ok hpresent]
    rfl

end Result

/-! ## 2. One run and the next -/

/-- What a run is given that has no influence on it. -/
structure Invocation where
  /-- Arguments of the command line. -/
  arguments : List Bytes := []
  /-- What the environment names as the home directory. -/
  home : Option Bytes := none

namespace Setting

/-- The same setting under another invocation. -/
def under (s : Setting) (i : Invocation) : Setting :=
  { s with arguments := i.arguments, home := i.home }

/-- The run of an invocation. -/
def invoke (s : Setting) (i : Invocation) : Result :=
  (s.under i).run

/-- The setting that the next run finds. It has a standard output of its
own, which behaves the same, and the disk has the same room. -/
def after (s : Setting) (r : Result) : Setting :=
  { s with files := r.files }

/-- The runs of invocations one after another. -/
def invokeAll : Setting → List Invocation → List Result
  | _, [] => []
  | s, i :: is => s.invoke i :: (s.after (s.invoke i)).invokeAll is

theorem invoke_eq_ofPublication {s : Setting} (hdir : currentPath s.files s.cwd = .ok s.workingDir)
    (i : Invocation) : s.invoke i = .ofPublication (s.under i).publication s.stdout :=
  run_eq_ofPublication (s := s.under i) hdir

theorem currentPath_after {s : Setting} (hdir : currentPath s.files s.cwd = .ok s.workingDir)
    (i : Invocation) : currentPath (s.after (s.invoke i)).files s.cwd = .ok s.workingDir := by
  have hways : SameWays s.files (s.invoke i).files := by
    rw [invoke_eq_ofPublication hdir, Result.files_ofPublication]
    exact sameWays_publishOn
  rw [← hdir]
  simp only [after, currentPath, hways.directory]

theorem after_of_currentPath_eq_error {s : Setting} {fault : Fault}
    (hdir : currentPath s.files s.cwd = .error fault) (i : Invocation) :
    s.after (s.invoke i) = s := by
  rw [invoke, run_of_currentPath_eq_error (s := s.under i) hdir]
  rfl

/-- A run that follows another one comes to what it comes to alone. -/
theorem invoke_after (s : Setting) (i j : Invocation) :
    ((s.after (s.invoke i)).invoke j).Alike (s.invoke j) := by
  obtain hdir | ⟨fault, hdir⟩ := s.currentPath_cases
  · have hfiles : (s.invoke i).files = (s.under i).publication.files := by
      rw [invoke_eq_ofPublication hdir, Result.files_ofPublication]
    have hagain : ((s.after (s.invoke i)).under j).publication.Alike (s.under j).publication := by
      simp only [publication, after, hfiles]
      exact publishOn_publishOn s.disk s.disk
    have hlater := invoke_eq_ofPublication (currentPath_after hdir i) j
    have halone := invoke_eq_ofPublication hdir j
    rw [hlater, halone]
    exact Result.alike_ofPublication hagain s.stdout
  · rw [after_of_currentPath_eq_error hdir]
    exact .refl _

/-! ## 3. What does not matter -/

theorem invoke_eq {s : Setting} (h : s.plugins.IsAbsolute) (i j : Invocation) :
    s.invoke i = s.invoke j := by
  obtain hdir | ⟨fault, hdir⟩ := s.currentPath_cases
  · have hpublication : (s.under i).publication = (s.under j).publication :=
      publishOn_of_isAbsolute h _ _
    rw [invoke_eq_ofPublication hdir, invoke_eq_ofPublication hdir, hpublication]
  · have hi := run_of_currentPath_eq_error (s := s.under i) hdir
    have hj := run_of_currentPath_eq_error (s := s.under j) hdir
    exact hi.trans hj.symm

theorem length_invokeAll (is : List Invocation) : ∀ s : Setting,
    (s.invokeAll is).length = is.length := by
  induction is with
  | nil => exact fun s => rfl
  | cons i is ih => exact fun s => congrArg (· + 1) (ih _)

/-- All runs in a row come to the same. -/
theorem alike_of_mem_invokeAll (is : List Invocation) : ∀ s : Setting, s.plugins.IsAbsolute →
    ∀ j, ∀ r ∈ s.invokeAll is, r.Alike (s.invoke j) := by
  induction is with
  | nil => exact fun s _ j r hr => nomatch hr
  | cons i is ih =>
    intro s h j r hr
    obtain rfl | hr := List.mem_cons.mp hr
    · rw [invoke_eq h i j]
      exact .refl _
    · have hlater : r.Alike ((s.after (s.invoke i)).invoke j) := ih (s.after (s.invoke i)) h j r hr
      exact hlater.trans (s.invoke_after i j)

/-! ## 4. Runs that succeed -/

/-- A run with exit code 0 has shown the bench and written it. -/
theorem shown_and_written {s : Setting} (h : s.run.exitCode = 0) :
    s.run.stdout = s.stdout.held ++ Utf8.encode (Frame.wrap s.bench.text) ∧
      s.files.writeOn s.disk s.cwd (configPath s.workingDir) (Utf8.encode s.bench.text)
        = (.ok (), s.run.files) := by
  obtain hdir | ⟨fault, hdir⟩ := s.currentPath_cases
  · cases houtcome : s.publication.outcome with
    | error failure =>
      rw [run_of_outcome_eq_error hdir houtcome] at h
      cases h
    | ok bench =>
      obtain ⟨rfl, hwrite⟩ := writeOn_of_outcome_eq_ok (p := s.publication) rfl houtcome
      rw [run_eq_ofPublication hdir] at h ⊢
      rw [Result.files_ofPublication]
      exact ⟨Result.stdout_ofPublication houtcome h, hwrite⟩
  · rw [run_of_currentPath_eq_error hdir] at h
    cases h

theorem bench_eq {s t : Setting} (hplugins : t.plugins = s.plugins) (h : s.plugins.IsAbsolute) :
    t.bench = s.bench := by
  rw [bench, bench, hplugins]
  exact Bench.within_of_isAbsolute h _ _ _ _

end Setting

/-- **Runs are stable.** Let the directory of plugins be absolute. Then
any number of runs in a row, each with arguments and a home directory of
its own, comes to what any single one comes to alone: in the exit code,
on both output streams, in the file with the configuration, and for
everyone who looks at the files. Two runs that succeed, wherever they
are, show the same bench and write the same octets. -/
theorem runs_are_stable (s : Setting) (hplugins : s.plugins.IsAbsolute) :
    (∀ (is : List Invocation) (i : Invocation),
      (s.invokeAll is).length = is.length ∧
      ∀ r ∈ s.invokeAll is,
        r.exitCode = (s.invoke i).exitCode ∧ r.stdout = (s.invoke i).stdout ∧
        r.stderr = (s.invoke i).stderr ∧
        r.files.read s.cwd (configPath s.workingDir)
          = (s.invoke i).files.read s.cwd (configPath s.workingDir) ∧
        FileSystem.Alike r.files (s.invoke i).files) ∧
    ∀ t : Setting, t.plugins = s.plugins → t.stdout.held = s.stdout.held →
      s.run.exitCode = 0 → t.run.exitCode = 0 →
        t.run.stdout = s.run.stdout ∧
        ∀ x y, s.run.files.read s.cwd (configPath s.workingDir) = .ok x →
          t.run.files.read t.cwd (configPath t.workingDir) = .ok y → y = x := by
  refine ⟨fun is i => ⟨Setting.length_invokeAll is s, fun r hr => ?inARow⟩, ?elsewhere⟩
  case inARow =>
    obtain ⟨hfailure, hstdout, hfiles⟩ := Setting.alike_of_mem_invokeAll is s hplugins i r hr
    have hexit : r.exitCode = (s.invoke i).exitCode := by
      rw [Result.exitCode, hfailure, Result.exitCode]
    have hstderr : r.stderr = (s.invoke i).stderr := by
      rw [Result.stderr, hfailure, Result.stderr]
    exact ⟨hexit, hstdout, hstderr, hfiles.read _ _, hfiles⟩
  case elsewhere =>
    intro t hsame hheld hs ht
    have hbench := Setting.bench_eq hsame hplugins
    obtain ⟨hshown, hwrite⟩ := Setting.shown_and_written hs
    obtain ⟨hshown', hwrite'⟩ := Setting.shown_and_written ht
    refine ⟨by rw [hshown', hshown, hheld, hbench], fun x y hx hy => ?_⟩
    rw [eq_of_writeOn_of_read hwrite hx, eq_of_writeOn_of_read hwrite' hy, hbench]

/-- Three runs in the directory `w`, where the first one makes the file at
the end of a chain of links, and one in the directory `o`, whose standard
output takes one octet at a time. -/
theorem runs_are_stable_in_two_directories :
    let s : Setting :=
      { plugins := "/p".toList, cwd := [Utf8.encode ['w']], files := chainedFiles }
    let t : Setting :=
      { s with
        cwd := [Utf8.encode ['o']]
        stdout := { share := some 1, share_pos := by rintro n ⟨⟩; decide } }
    let is : List Invocation :=
      [⟨[Utf8.encode "--help".toList], none⟩, ⟨[], some (Utf8.encode "/h".toList)⟩, ⟨[[255]], some []⟩]
    s.plugins.IsAbsolute ∧ (s.invokeAll is).length = 3 ∧
      (∀ r ∈ s.invokeAll is, r.exitCode = 0 ∧ r.stderr = [] ∧ r.stdout = t.run.stdout) ∧
      s.run.files.read s.cwd (configPath s.workingDir) = .ok (Utf8.encode s.bench.text) ∧
      t.run.files.read t.cwd (configPath t.workingDir) = .ok (Utf8.encode s.bench.text) := by
  intro s t is
  have hs := Setting.run_of_takesAll (s := s) rfl rfl ⟨rfl, rfl⟩
  have ht := Setting.run_of_takesAll (s := t) rfl rfl ⟨rfl, rfl⟩
  have hexit : s.run.exitCode = 0 := congrArg Result.exitCode hs
  have hexit' : t.run.exitCode = 0 := congrArg Result.exitCode ht
  have hfiles : s.publication.files
      = chainedFiles.insert [Utf8.encode ['o'], Utf8.encode ['f']]
        (.file (Utf8.encode s.bench.text)) := rfl
  have hx : s.run.files.read s.cwd (configPath s.workingDir) = .ok (Utf8.encode s.bench.text) := by
    rw [hs, hfiles]
    rfl
  have hy : t.run.files.read t.cwd (configPath t.workingDir) = .ok (Utf8.encode t.bench.text) := by
    rw [ht]
    rfl
  have habsolute : s.plugins.IsAbsolute := by decide
  obtain ⟨hrow, helsewhere⟩ := runs_are_stable s habsolute
  obtain ⟨hlength, hruns⟩ := hrow is ⟨s.arguments, s.home⟩
  obtain ⟨hshown, hread⟩ := helsewhere t rfl rfl hexit hexit'
  refine ⟨habsolute, hlength, fun r hr => ?_, hx, by rw [hy, hread _ _ hx hy]⟩
  obtain ⟨hcode, hstdout, hstderr, -⟩ := hruns r hr
  exact ⟨hcode.trans hexit, hstderr.trans (congrArg Result.stderr hs), hstdout.trans hshown.symm⟩

end Run

end BenchConfig
