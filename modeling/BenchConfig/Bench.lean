/-
BenchConfig.Bench — the test bench, and the text of its configuration.

A bench sets a device under test against a reference model; each of the
two is a plugin. Its configuration has three sections. The first says
which plugin has which part. The other two, for the device and then for
the reference, say where the files of the plugin are and that it is to
be run.
-/
import BenchConfig.Plugin
import BenchConfig.Ini.Basic

namespace BenchConfig

/-- A reference model and a device under test. -/
structure Bench where
  reference : Plugin
  dut : Plugin
  deriving Repr

namespace Bench

/-- The plugin that is tested. -/
def dutName : Text := "uemu".toList

/-- The plugin that it is compared with. -/
def referenceName : Text := "spike_simple".toList

instance : BEq Bench :=
  ⟨fun a b => a.reference == b.reference && a.dut == b.dut⟩

theorem beq_iff {a b : Bench} :
    (a == b) = true ↔ (a.reference == b.reference) = true ∧ (a.dut == b.dut) = true := by
  show (a.reference == b.reference && a.dut == b.dut) = true ↔ _
  simp

/-- The bench whose two plugins lie in one directory of plugins. -/
def within (home : Option (Path Char)) (base plugins : Path Char) : Bench where
  reference := .within home base plugins referenceName
  dut := .within home base plugins dutName

/-! ## The configuration -/

/-- The section that gives each plugin its part. -/
def partsSection (b : Bench) : Ini.Section where
  name := "RISCOF".toList
  entries :=
    [⟨"ReferencePlugin".toList, b.reference.name⟩,
     ⟨"ReferencePluginPath".toList, b.reference.directory⟩,
     ⟨"DUTPlugin".toList, b.dut.name⟩,
     ⟨"DUTPluginPath".toList, b.dut.directory⟩]

/-- The section of one plugin. -/
def pluginSection (p : Plugin) : Ini.Section where
  name := p.name
  entries :=
    [⟨"pluginpath".toList, p.directory⟩,
     ⟨"ispec".toList, p.isaFile⟩,
     ⟨"pspec".toList, p.platformFile⟩,
     ⟨"target_run".toList, ['1']⟩]

/-- The sections in the order in which they are written. -/
def sections (b : Bench) : List Ini.Section :=
  [b.partsSection, pluginSection b.dut, pluginSection b.reference]

/-- The text of the configuration. -/
def text (b : Bench) : Text :=
  Ini.render b.sections

end Bench

end BenchConfig
