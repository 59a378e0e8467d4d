/-
BenchConfig.Proofs.Bench.Layout — where the plugins of a bench and their
files are.

A plugin that is looked for in a directory of plugins is the entry of its
own name in that directory, once the directory itself is resolved
(`Plugin.IsEntryOf`). The name takes no part in the resolving, so the two
plugins of a bench are two entries of one directory, and that directory
is the same for every name. An absolute directory of plugins is resolved
without the home directory and without the base, so neither of them
matters for the bench (`Bench.within_of_isAbsolute`).
-/
import BenchConfig.Bench
import BenchConfig.Proofs.Path.Child

namespace BenchConfig

open BenchConfig.Path (IsName anchor resolve tilde)

/-- The plugin is the entry of its own name in a directory: the text of
its path says so, it is one step down from there for everyone, and both
its files are directly in it. -/
structure Plugin.IsEntryOf (p : Plugin) (parent : Path Char) : Prop where
  directory : p.directory = parent.child p.name
  resolve : ∀ cwd, resolve cwd p.directory = resolve cwd parent ++ [p.name]
  isaFile : p.isaFile = p.directory ++ '/' :: (p.name ++ "_isa.yaml".toList)
  platformFile : p.platformFile = p.directory ++ '/' :: (p.name ++ "_platform.yaml".toList)

namespace Plugin

theorem isEntryOf_within {plugins : Path Char} {name : Text} (hname : IsName name)
    (htilde : ¬ (plugins = [] ∧ name = tilde)) (home : Option (Path Char)) (base : Path Char) :
    (within home base plugins name).IsEntryOf (anchor home base plugins) where
  directory := Path.anchor_join_name hname htilde home base
  resolve cwd := by
    simp only [within]
    rw [Path.resolve_anchor, Path.resolve_anchor, Path.resolve_expandTilde_join hname htilde]
  isaFile := by
    simp only [within, isaFile, Path.anchor_join_name hname htilde, Path.child_eq_front_append]
    exact Path.join_append_name hname (Path.not_isAbsolute_name_append hname _) _
  platformFile := by
    simp only [within, platformFile, Path.anchor_join_name hname htilde,
      Path.child_eq_front_append]
    exact Path.join_append_name hname (Path.not_isAbsolute_name_append hname _) _

/-- In an absolute directory of plugins the other directories do not
matter. -/
theorem within_of_isAbsolute {plugins : Path Char} (h : plugins.IsAbsolute) (name : Text)
    (home home' : Option (Path Char)) (base base' : Path Char) :
    within home base plugins name = within home' base' plugins name := by
  have habs : (plugins.join name).IsAbsolute := Path.isAbsolute_join.mpr (.inl h)
  rw [within, within, Path.anchor_of_isAbsolute habs, Path.anchor_of_isAbsolute habs]

end Plugin

namespace Bench

theorem within_of_isAbsolute {plugins : Path Char} (h : plugins.IsAbsolute)
    (home home' : Option (Path Char)) (base base' : Path Char) :
    within home base plugins = within home' base' plugins := by
  rw [within, within, Plugin.within_of_isAbsolute h referenceName home home' base base',
    Plugin.within_of_isAbsolute h dutName home home' base base']

theorem isName_referenceName : IsName referenceName := by decide

theorem isName_dutName : IsName dutName := by decide

theorem referenceName_ne_dutName : referenceName ≠ dutName := by decide

theorem isEntryOf_within (home : Option (Path Char)) (base plugins : Path Char) :
    (within home base plugins).reference.IsEntryOf (anchor home base plugins) ∧
      (within home base plugins).dut.IsEntryOf (anchor home base plugins) :=
  ⟨Plugin.isEntryOf_within isName_referenceName (fun h => absurd h.2 (by decide)) home base,
    Plugin.isEntryOf_within isName_dutName (fun h => absurd h.2 (by decide)) home base⟩

end Bench

/-- **A plugin is an entry of the resolved directory of plugins**, under
every name of an entry, except that a tilde in the empty directory is no
such name. So the two plugins of every bench are two different entries
of one directory. -/
theorem plugin_isEntryOf_anchor (home : Option (Path Char)) (base plugins : Path Char) :
    (∀ name, IsName name → ¬ (plugins = [] ∧ name = tilde) →
      (Plugin.within home base plugins name).IsEntryOf (anchor home base plugins)) ∧
    (Bench.within home base plugins).reference.IsEntryOf (anchor home base plugins) ∧
    (Bench.within home base plugins).dut.IsEntryOf (anchor home base plugins) ∧
    ∀ cwd, resolve cwd (Bench.within home base plugins).reference.directory
      ≠ resolve cwd (Bench.within home base plugins).dut.directory := by
  obtain ⟨hreference, hdut⟩ := Bench.isEntryOf_within home base plugins
  refine ⟨fun name hname htilde => Plugin.isEntryOf_within hname htilde home base, hreference,
    hdut, fun cwd heq => ?_⟩
  rw [hreference.resolve, hdut.resolve] at heq
  have hnames : Bench.referenceName = Bench.dutName := by
    simpa [Bench.within, Plugin.within] using List.append_inj_right' heq rfl
  exact Bench.referenceName_ne_dutName hnames

/-- The one name that is not an entry: it is expanded itself. -/
example : (Plugin.within (some "/h".toList) ['/'] [] tilde).directory = "/h".toList := by decide

/-- A tilde as the name, behind a tilde that stands for an empty home
directory and one step up too many. -/
theorem plugin_isEntryOf_anchor_tilde :
    IsName tilde ∧ ¬ ("~/../".toList = [] ∧ tilde = tilde) ∧
      (Plugin.within (some []) ['/'] "~/../".toList tilde).directory = "/~".toList ∧
      (Plugin.within (some []) ['/'] "~/../".toList tilde).IsEntryOf ['/'] := by
  have hentry := (plugin_isEntryOf_anchor (some []) ['/'] "~/../".toList).1 tilde (by decide)
    (by decide)
  exact ⟨by decide, by decide, by decide, hentry⟩

end BenchConfig
