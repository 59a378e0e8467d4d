/-
BenchConfig.Plugin — a plugin of the test bench, and where its files
are.

A plugin has a name and a directory. Two specification files lie in the
directory and are named after the plugin: one describes the instruction
set, the other the platform.

Two plugins are equal (`==`) if their names are the same text and their
directories the same path, whatever way it is spelled.
-/
import BenchConfig.Path.Anchor

namespace BenchConfig

/-- A plugin and the directory that holds it. -/
structure Plugin where
  name : Text
  directory : Path Char
  deriving Repr

namespace Plugin

instance : BEq Plugin :=
  ⟨fun a b => a.name == b.name && decide (a.directory.Same b.directory)⟩

theorem beq_iff {a b : Plugin} :
    (a == b) = true ↔ a.name = b.name ∧ a.directory.Same b.directory := by
  show (a.name == b.name && decide (a.directory.Same b.directory)) = true ↔ _
  simp

/-- The file that describes the instruction set. -/
def isaFile (p : Plugin) : Path Char :=
  p.directory.join (p.name ++ "_isa.yaml".toList)

/-- The file that describes the platform. -/
def platformFile (p : Plugin) : Path Char :=
  p.directory.join (p.name ++ "_platform.yaml".toList)

/-- The plugin of that name in a directory of plugins, which is read
from `base`, with `home` for a tilde. -/
def within (home : Option (Path Char)) (base plugins : Path Char) (name : Text) :
    Plugin :=
  ⟨name, Path.anchor home base (plugins.join name)⟩

end Plugin

end BenchConfig
