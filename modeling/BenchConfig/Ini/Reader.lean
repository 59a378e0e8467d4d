/-
BenchConfig.Ini.Reader — the sections of a text.

The text is taken line by line. Empty lines are skipped. A line that
starts with `[` and ends with `]` opens the section whose name stands in
between; every other line is an entry, split at its first `=`. A line
that is none of these, or an entry before the first section, makes the
text unreadable.

The reader looks at the first character of a line before anything else,
so a value that contains brackets or further `=` is read back as it was
written.
-/
import BenchConfig.Ini.Basic

namespace BenchConfig.Ini

/-- What one line says. -/
inductive Line where
  | empty
  | header (name : Text)
  | entry (e : Entry)
  deriving DecidableEq, Repr

/-- The meaning of a line that carries no line end. -/
def Line.ofText? : Text → Option Line
  | [] => some .empty
  | c :: rest =>
    if c = '[' ∧ rest.getLast? = some ']' then some (.header rest.dropLast)
    else
      match (c :: rest).dropWhile (· ≠ '=') with
      | [] => none
      | _ :: value => some (.entry ⟨(c :: rest).takeWhile (· ≠ '='), value⟩)

/-- Groups lines: the entries in front of the first header, and the
sections from there on. -/
def gather : List Line → List Entry × List Section
  | [] => ([], [])
  | .empty :: rest => gather rest
  | .entry e :: rest => (e :: (gather rest).1, (gather rest).2)
  | .header name :: rest => ([], ⟨name, (gather rest).1⟩ :: (gather rest).2)

/-- The sections of a text, if it is readable. -/
def read? (t : Text) : Option (List Section) :=
  match (t.splitOn '\n').mapM Line.ofText? with
  | none => none
  | some lines => if (gather lines).1 = [] then some (gather lines).2 else none

end BenchConfig.Ini
