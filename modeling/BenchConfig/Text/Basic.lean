/-
BenchConfig.Text.Basic — the two kinds of character sequence that the
library handles.

* `Text` is a list of characters. Plugin names, rendered documents and
  messages are texts.
* `Bytes` is a list of octets. What the operating system hands out (the
  name of a file, the content of a file, the value of an environment
  variable) is bytes and need not be the encoding of any text.

Both are plain lists, so that splitting, joining and scanning are the
list functions and every closed case evaluates.
-/

namespace BenchConfig

/-- A sequence of Unicode scalar values. -/
abbrev Text := List Char

/-- A sequence of octets, with no promise of an encoding. -/
abbrev Bytes := List UInt8

end BenchConfig
