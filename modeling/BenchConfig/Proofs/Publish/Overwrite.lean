/-
BenchConfig.Proofs.Publish.Overwrite — the last publication into a
working directory is the one that counts.

Every publication into one working directory writes to the same path, so
the law of writing twice applies, and of an earlier publication nothing is
left (`publishOn_publishOn`). None of them writes nothing at all
(`configBytes_ne_nil`), so if one can be written then so can every other
one. A run of publications follows by induction (`publish_publishAll`), the
files before the next publication being alike to files that are known
already.
-/
import BenchConfig.Proofs.Publish.OneFile

namespace BenchConfig

/-- What a publication is made from, apart from where it goes: the
directory of plugins, and the home directory at that time. -/
structure Edition where
  plugins : Path Char
  home : Option (Path Char) := none

namespace Edition

/-- Publishes an edition into a working directory. -/
def publish (e : Edition) (cwd : Location) (workingDir : Path UInt8) (files : FileSystem) :
    Publication :=
  BenchConfig.publish e.home e.plugins cwd workingDir files

end Edition

/-- The files after editions were published into a working directory, one
after another. -/
def publishAll (cwd : Location) (workingDir : Path UInt8) : FileSystem → List Edition → FileSystem :=
  List.foldl fun files e => (e.publish cwd workingDir files).files

/-- The same answer and the same log, and files that are alike. -/
structure Publication.Alike (x y : Publication) : Prop where
  outcome : x.outcome = y.outcome
  log : x.log = y.log
  files : FileSystem.Alike x.files y.files

namespace Publication.Alike

theorem refl (x : Publication) : Alike x x :=
  ⟨rfl, rfl, .refl x.files⟩

theorem trans {x y z : Publication} (h : Alike x y) (h' : Alike y z) : Alike x z :=
  ⟨h.outcome.trans h'.outcome, h.log.trans h'.log, h.files.trans h'.files⟩

end Publication.Alike

open FileSystem

/-! ## 1. One publication and the next -/

theorem Publication.alike_ofWrite {w w' : Except Fault Unit × FileSystem} (h : Agrees w w')
    (plugins : Path Char) (bench : Bench) (path : Path UInt8) :
    (ofWrite plugins bench path w).Alike (ofWrite plugins bench path w') := by
  obtain ⟨houtcome, hfiles⟩ := h
  cases hw : w.1 with
  | error fault =>
    rw [ofWrite_eq_error hw, ofWrite_eq_error (houtcome.symm.trans hw)]
    exact ⟨rfl, rfl, hfiles⟩
  | ok done =>
    rw [ofWrite_eq_ok hw, ofWrite_eq_ok (houtcome.symm.trans hw)]
    exact ⟨rfl, rfl, hfiles⟩

variable {home home' : Option (Path Char)} {plugins plugins' : Path Char} {cwd : Location}
  {workingDir : Path UInt8} {files : FileSystem}

theorem configBytes_ne_nil (home : Option (Path Char)) (plugins : Path Char)
    (workingDir : Path UInt8) : configBytes home plugins workingDir ≠ [] := by
  obtain ⟨rest, hrest⟩ : ∃ rest, (Bench.forWorkingDir home plugins workingDir).text = '[' :: rest :=
    ⟨_, rfl⟩
  rw [configBytes, hrest, Utf8.encode_cons]
  exact List.append_ne_nil_of_left_ne_nil (by decide) _

/-- A publication that follows another one comes to what it comes to
alone. The earlier one may have failed for lack of room. -/
theorem publishOn_publishOn (disk disk' : Disk) :
    (publishOn disk' home' plugins' cwd workingDir
      (publishOn disk home plugins cwd workingDir files).files).Alike
      (publishOn disk' home' plugins' cwd workingDir files) := by
  rw [files_publishOn]
  exact Publication.alike_ofWrite (writeOn_writeOn disk disk' files cwd _ _ _) _ _ _

theorem publish_eq_ok_iff :
    (∃ bench, (publish home plugins cwd workingDir files).outcome = .ok bench) ↔
      (files.writeOn .unlimited cwd (configPath workingDir)
        (configBytes home plugins workingDir)).1 = .ok () := by
  constructor
  · rintro ⟨bench, h⟩
    exact congrArg Prod.fst (writeOn_of_outcome_eq_ok rfl h).2
  · intro hwrite
    exact ⟨_, congrArg Publication.outcome (publishOn_of_fst_eq_ok hwrite)⟩

/-- Success of one edition is success of every other one. -/
theorem publish_succeeds_iff (e₁ e₂ : Edition) :
    (∃ bench, (e₁.publish cwd workingDir files).outcome = .ok bench) ↔
      ∃ bench, (e₂.publish cwd workingDir files).outcome = .ok bench := by
  rw [Edition.publish, Edition.publish, publish_eq_ok_iff, publish_eq_ok_iff,
    fst_writeOn_of_ne_nil (configBytes_ne_nil _ _ _) (configBytes_ne_nil _ _ _)]

/-! ## 2. Runs -/

theorem publish_publishAll (e : Edition) (es : List Edition) : ∀ files,
    (e.publish cwd workingDir (publishAll cwd workingDir files es)).Alike
      (e.publish cwd workingDir files) := by
  induction es with
  | nil =>
    intro files
    exact .refl _
  | cons e' es ih =>
    intro files
    have hlater := ih (e'.publish cwd workingDir files).files
    exact hlater.trans (publishOn_publishOn .unlimited .unlimited)

theorem publishAll_concat (files : FileSystem) (es : List Edition) (e : Edition) :
    publishAll cwd workingDir files (es ++ [e])
      = (e.publish cwd workingDir (publishAll cwd workingDir files es)).files := by
  simp [publishAll]

/-- **The last publication counts.** Into one working directory all
editions can be published or none can. An edition that follows another
one has the answer and the log that it has alone, and leaves files that
no read and no listing tells from those that it leaves alone; so does the
last one of any run, and an edition that is published over and over. -/
theorem publish_overwrites (cwd : Location) (workingDir : Path UInt8) (files : FileSystem) :
    (∀ e₁ e₂ : Edition,
      ((∃ bench, (e₁.publish cwd workingDir files).outcome = .ok bench) ↔
        ∃ bench, (e₂.publish cwd workingDir files).outcome = .ok bench) ∧
      (e₂.publish cwd workingDir (e₁.publish cwd workingDir files).files).Alike
        (e₂.publish cwd workingDir files)) ∧
    (∀ (es : List Edition) (e : Edition),
      (e.publish cwd workingDir (publishAll cwd workingDir files es)).Alike
        (e.publish cwd workingDir files) ∧
      FileSystem.Alike (publishAll cwd workingDir files (es ++ [e]))
        (e.publish cwd workingDir files).files) ∧
    ∀ (e : Edition) (k : Nat),
      FileSystem.Alike (publishAll cwd workingDir files (List.replicate (k + 1) e))
        (e.publish cwd workingDir files).files := by
  have hrun : ∀ (es : List Edition) (e : Edition),
      FileSystem.Alike (publishAll cwd workingDir files (es ++ [e]))
        (e.publish cwd workingDir files).files := by
    intro es e
    rw [publishAll_concat]
    exact (publish_publishAll e es files).files
  refine ⟨fun e₁ e₂ => ⟨publish_succeeds_iff e₁ e₂, publishOn_publishOn .unlimited .unlimited⟩,
    fun es e => ⟨publish_publishAll e es files, hrun es e⟩, fun e k => ?_⟩
  rw [List.replicate_succ']
  exact hrun _ e

end BenchConfig
