/-
BenchConfig.Frame — a configuration between two marker lines.

Where a configuration is shown among other output, a line marks its
begin and another its end, and an empty line follows. Blank characters
at the end of the text are dropped and one line end takes their place,
so the end marker always starts a line.

* `Frame.parts` is what is written, in the order of writing;
  `Frame.wrap` is all of it.
* `Frame.contents` reads a stream of frames back.
-/
import BenchConfig.Bench
import BenchConfig.Sink
import BenchConfig.Text.Blank
import BenchConfig.Text.Utf8

namespace BenchConfig

namespace Frame

/-- The line in front of a configuration. -/
def beginMarker : Text := "----- config.ini begin -----".toList

/-- The line behind a configuration. -/
def endMarker : Text := "----- config.ini end -----".toList

/-! ## 1. Writing -/

/-- The lines of a frame: the marker, the text, the marker, nothing. -/
def parts (t : Text) : List Text :=
  [beginMarker ++ ['\n'], trimEnd t ++ ['\n'], endMarker ++ ['\n'], ['\n']]

/-- The whole frame. -/
def wrap (t : Text) : Text :=
  (parts t).flatten

/-! ## 2. Reading -/

/-- Collects the texts of frames from lines. Inside a frame the text
read so far is kept; lines outside of frames are passed over, and a
frame without an end marker is not collected. -/
def collect : Option Text → List Text → List Text
  | _, [] => []
  | none, line :: rest =>
    if line = beginMarker then collect (some []) rest else collect none rest
  | some t, line :: rest =>
    if line = endMarker then t :: collect none rest
    else collect (some (t ++ line ++ ['\n'])) rest

/-- The texts of the frames in a stream, in order. -/
def contents (stream : Text) : List Text :=
  collect none (stream.splitOn '\n')

end Frame

/-- Shows the configuration of a bench, framed, to a sink. -/
def Bench.present (b : Bench) (s : Sink) : Except Fault Unit × Sink :=
  s.send ((Frame.parts b.text).map Utf8.encode)

end BenchConfig
