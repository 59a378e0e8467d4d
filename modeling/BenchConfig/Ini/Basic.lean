/-
BenchConfig.Ini.Basic — sections of keys and values, and their text.

A file is a list of sections, each with a name and a list of entries in
the order in which they are written. A section is written as its name in
brackets and one line `key=value` for each entry, and sections are kept
apart by an empty line. Nothing is quoted: a value runs to the end of
its line and may hold any character but the line end.
-/
import BenchConfig.Text.Basic

namespace BenchConfig.Ini

/-- A key and its value. -/
structure Entry where
  key : Text
  value : Text
  deriving DecidableEq, Repr

/-- A named group of entries. -/
structure Section where
  name : Text
  entries : List Entry
  deriving DecidableEq, Repr

/-- The line of an entry. -/
def Entry.text (e : Entry) : Text :=
  e.key ++ '=' :: e.value ++ ['\n']

/-- The line that opens a section. -/
def Section.header (s : Section) : Text :=
  '[' :: s.name ++ [']', '\n']

/-- The lines of a section. -/
def Section.text (s : Section) : Text :=
  s.header ++ s.entries.flatMap Entry.text

/-- The text of a file with the given sections. -/
def render (sections : List Section) : Text :=
  ['\n'].intercalate (sections.map Section.text)

end BenchConfig.Ini
