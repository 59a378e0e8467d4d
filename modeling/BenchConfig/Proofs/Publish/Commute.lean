/-
BenchConfig.Proofs.Publish.Commute — publications into independent working
directories can be done in either order.

A publication may make a file far from its working directory, at the end
of a chain of links, and the path of another publication may run through
the same directories and the same links. A new file stands in the way of
no path all the same: it takes the place of nothing, and a path that
leads to an entry goes through directories and links alone. So each of
two publications finds its own entry as it would without the other, and
the law of two writes applies (`FileSystem.writeOn_comm`). The answer and
the log of a publication depend on its success and not on the files.
-/
import BenchConfig.Proofs.Publish.Overwrite

namespace BenchConfig

open FileSystem

variable {cwd : Location}

/-- **Independent publications commute.** Two editions, either of which
can be published alone, go to two different places. Published one after
the other, in either order, both succeed with the bench and the log that
they have alone, and no read and no listing tells which was the first. -/
theorem independent_publications_commute {e₁ e₂ : Edition} {w₁ w₂ : Path UInt8}
    {files : FileSystem} {bench₁ bench₂ : Bench} {d₁ d₂ : Location} {n₁ n₂ : Name}
    (h₁ : (e₁.publish cwd w₁ files).outcome = .ok bench₁)
    (h₂ : (e₂.publish cwd w₂ files).outcome = .ok bench₂)
    (hleads₁ : files.LeadsTo cwd (configPath w₁) d₁ n₁)
    (hleads₂ : files.LeadsTo cwd (configPath w₂) d₂ n₂)
    (hne : ¬(d₁ = d₂ ∧ n₁ = n₂)) :
    let first₁ := e₁.publish cwd w₁ files
    let then₂ := e₂.publish cwd w₂ first₁.files
    let first₂ := e₂.publish cwd w₂ files
    let then₁ := e₁.publish cwd w₁ first₂.files
    then₁.outcome = .ok bench₁ ∧ then₂.outcome = .ok bench₂ ∧
      then₁.log = first₁.log ∧ then₂.log = first₂.log ∧
      FileSystem.Alike then₂.files then₁.files := by
  intro first₁ then₂ first₂ then₁
  have hplaces : d₂ ++ [n₂] ≠ d₁ ++ [n₁] := by
    intro heq
    obtain ⟨hd, hn⟩ := List.append_inj' heq rfl
    exact hne ⟨hd.symm, (List.cons.inj hn).1.symm⟩
  obtain ⟨rfl, hwrite₁⟩ := writeOn_of_outcome_eq_ok (p := first₁) rfl h₁
  obtain ⟨rfl, hwrite₂⟩ := writeOn_of_outcome_eq_ok (p := first₂) rfl h₂
  obtain ⟨hagain₁, hagain₂, halike⟩ := writeOn_comm hleads₁ hleads₂ hplaces
    (congrArg Prod.fst hwrite₁) (congrArg Prod.fst hwrite₂)
  rw [hwrite₂] at hagain₁ halike
  rw [hwrite₁] at hagain₂ halike
  have hthen₁ : then₁.outcome = .ok (.forWorkingDir e₁.home e₁.plugins w₁) :=
    congrArg Publication.outcome (publishOn_of_fst_eq_ok hagain₁)
  have hthen₂ : then₂.outcome = .ok (.forWorkingDir e₂.home e₂.plugins w₂) :=
    congrArg Publication.outcome (publishOn_of_fst_eq_ok hagain₂)
  -- the log of a success does not depend on the files
  have hlog₁ : then₁.log = first₁.log :=
    (log_of_outcome_eq_ok rfl hthen₁).trans (log_of_outcome_eq_ok rfl h₁).symm
  have hlog₂ : then₂.log = first₂.log :=
    (log_of_outcome_eq_ok rfl hthen₂).trans (log_of_outcome_eq_ok rfl h₂).symm
  have hfiles₁ : then₁.files = (first₂.files.writeOn .unlimited cwd (configPath w₁)
      (configBytes e₁.home e₁.plugins w₁)).2 := files_publishOn
  have hfiles₂ : then₂.files = (first₁.files.writeOn .unlimited cwd (configPath w₂)
      (configBytes e₂.home e₂.plugins w₂)).2 := files_publishOn
  rw [hfiles₁, hfiles₂]
  exact ⟨hthen₁, hthen₂, hlog₁, hlog₂, halike⟩

/-- Both files are made in the directory `o`: one at the end of a chain
of links, the other because `o` is the second working directory. -/
theorem independent_publications_commute_in_one_directory :
    let e₁ : Edition := ⟨"/p".toList, none⟩
    let e₂ : Edition := ⟨"~/p".toList, some "h".toList⟩
    let w₁ : Path UInt8 := Utf8.encode ['w']
    let w₂ : Path UInt8 := Utf8.encode ['o']
    let o : Location := [Utf8.encode ['o']]
    chainedFiles.LeadsTo [] (configPath w₁) o (Utf8.encode ['f']) ∧
      chainedFiles.LeadsTo [] (configPath w₂) o (Utf8.encode configName) ∧
      (e₁.publish [] w₁ (e₂.publish [] w₂ chainedFiles).files).outcome
        = .ok (.within none ['w'] "/p".toList) ∧
      (e₂.publish [] w₂ (e₁.publish [] w₁ chainedFiles).files).outcome
        = .ok (.within (some "h".toList) ['o'] "~/p".toList) ∧
      FileSystem.Alike (e₂.publish [] w₂ (e₁.publish [] w₁ chainedFiles).files).files
        (e₁.publish [] w₁ (e₂.publish [] w₂ chainedFiles).files).files := by
  intro e₁ e₂ w₁ w₂ o
  have hland₁ : chainedFiles.land .fill [] (configPath w₁) = .ok (.at o (Utf8.encode ['f']) false) :=
    rfl
  have hland₂ : chainedFiles.land .fill [] (configPath w₂)
      = .ok (.at o (Utf8.encode configName) false) := rfl
  have hleads₁ := leadsTo_of_land (by decide) hland₁
  have hleads₂ := leadsTo_of_land (by decide) hland₂
  have hfirst₁ : (e₁.publish [] w₁ chainedFiles).outcome = .ok (.within none ['w'] "/p".toList) :=
    rfl
  have hfirst₂ : (e₂.publish [] w₂ chainedFiles).outcome
      = .ok (.within (some "h".toList) ['o'] "~/p".toList) := rfl
  obtain ⟨hthen₁, hthen₂, -, -, halike⟩ :=
    independent_publications_commute hfirst₁ hfirst₂ hleads₁ hleads₂ (by decide)
  exact ⟨hleads₁, hleads₂, hthen₁, hthen₂, halike⟩

end BenchConfig
