/-
BenchConfig.Text.Blank — blank characters, and texts without a blank
tail.

* `isBlank` is membership in the Unicode property White_Space. The
  property has 25 members in ten runs; `blankRuns` lists the runs.
* `trimEnd` drops the longest blank tail of a text.
-/
import BenchConfig.Text.Basic

namespace BenchConfig

/-- The runs of code points with the property White_Space, first and
last member of each. -/
def blankRuns : List (Nat × Nat) :=
  [(0x09, 0x0D), (0x20, 0x20), (0x85, 0x85), (0xA0, 0xA0), (0x1680, 0x1680),
   (0x2000, 0x200A), (0x2028, 0x2029), (0x202F, 0x202F), (0x205F, 0x205F),
   (0x3000, 0x3000)]

/-- Whether a character counts as white space, in any script. -/
def isBlank (c : Char) : Bool :=
  blankRuns.any fun run => run.1 ≤ c.toNat && c.toNat ≤ run.2

/-- The property has 25 members. -/
example : blankRuns.foldl (fun k run => k + (run.2 + 1 - run.1)) 0 = 25 := by decide

/-- The text without its blank tail. -/
def trimEnd : Text → Text
  | [] => []
  | c :: rest =>
    match trimEnd rest with
    | [] => if isBlank c then [] else [c]
    | kept => c :: kept

/-- A text that ends in a character that is not blank keeps all of it. -/
theorem trimEnd_append_singleton {c : Char} (hc : isBlank c = false) (t : Text) :
    trimEnd (t ++ [c]) = t ++ [c] := by
  induction t with
  | nil => simp [trimEnd, hc]
  | cons d t ih =>
    rw [List.cons_append, trimEnd, ih]
    split
    · next h => simp at h
    · rfl

/-- Blank characters at the end make no difference. -/
theorem trimEnd_append_blank {b : Char} (hb : isBlank b = true) (t : Text) :
    trimEnd (t ++ [b]) = trimEnd t := by
  induction t with
  | nil => simp [trimEnd, hb]
  | cons d t ih => rw [List.cons_append, trimEnd, ih, trimEnd]

end BenchConfig
