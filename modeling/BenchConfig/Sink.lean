/-
BenchConfig.Sink — a place that takes octets and may stop doing so.

A sink holds what it has taken. It may have a limit, and it may take
only a share of what it is offered at once, so whoever writes has to
offer the rest again. What a full sink does is its own affair: it
reports a fault, or it takes nothing and says nothing.

* `offer` is one attempt: how many of the octets are taken.
* `write` offers until all octets are taken or an attempt fails. An
  attempt that takes nothing is a failure too, or it would go on for
  ever.
* `send` writes several sequences in order and then flushes.
-/
import BenchConfig.Fault

namespace BenchConfig

/-- What a full sink does with a further octet. -/
inductive WhenFull where
  /-- It reports the fault. -/
  | refuse (fault : Fault)
  /-- It takes none. -/
  | takeNothing
  deriving DecidableEq, Repr

/-- A place that takes octets. -/
structure Sink where
  /-- How many octets it can hold. -/
  limit : Option Nat := none
  /-- How many octets it takes at once. -/
  share : Option Nat := none
  share_pos : ∀ n, share = some n → 0 < n := by simp
  whenFull : WhenFull := .refuse .sinkFull
  /-- The fault that the last step, delivering what is held, runs into. -/
  flushFault : Option Fault := none
  /-- What it has taken so far. -/
  held : Bytes := []

namespace Sink

/-- A sink that takes everything. -/
def unlimited : Sink := {}

/-- A sink where every attempt to write runs into the same fault. -/
def broken (fault : Fault) : Sink :=
  { limit := some 0, whenFull := .refuse fault }

/-- How many of `n` octets there is room for. -/
def room (s : Sink) (n : Nat) : Nat :=
  match s.limit with
  | none => n
  | some limit => min n (limit - s.held.length)

/-- How many of `n` octets are taken at once. -/
def taken (s : Sink) (n : Nat) : Nat :=
  match s.share with
  | none => n
  | some share => min n share

/-- One attempt to write at least one octet: how many are taken. -/
def offer (s : Sink) (data : Bytes) : Except Fault Nat :=
  if s.room data.length = 0 then
    match s.whenFull with
    | .refuse fault => .error fault
    | .takeNothing => .ok 0
  else .ok (s.taken (s.room data.length))

/-- The sink after it has taken some octets. -/
def take (s : Sink) (data : Bytes) : Sink :=
  { s with held := s.held ++ data }

/-- Writes all octets, as far as the sink takes them. -/
def write (s : Sink) (data : Bytes) : Except Fault Unit × Sink :=
  if _h : data = [] then (.ok (), s)
  else
    match s.offer data with
    | .error fault => (.error fault, s)
    | .ok 0 => (.error .sinkStalled, s)
    | .ok (n + 1) => (s.take (data.take (n + 1))).write (data.drop (n + 1))
termination_by data.length
decreasing_by
  have := List.length_pos_iff.mpr _h
  simp only [List.length_drop]
  omega

/-- Delivers what is held. -/
def flush (s : Sink) : Except Fault Unit :=
  match s.flushFault with
  | none => .ok ()
  | some fault => .error fault

/-- Writes the sequences in order up to the first fault, then flushes. -/
def send (s : Sink) : List Bytes → Except Fault Unit × Sink
  | [] => (s.flush, s)
  | data :: rest =>
    match s.write data with
    | (.error fault, s') => (.error fault, s')
    | (.ok (), s') => s'.send rest

end Sink

end BenchConfig
