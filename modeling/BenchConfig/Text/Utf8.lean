/-
BenchConfig.Text.Utf8 — texts as bytes and bytes as texts.

* `encode` writes every character as its one to four octets.
* `decodeLossy` reads any bytes. Octets that cannot begin or continue a
  character become the replacement character U+FFFD, one for each
  maximal run of octets that begins a character and is then cut off.
* `decode?` reads the bytes that are the encoding of a text and refuses
  all others.

The reader is a machine that takes one octet at a time. Its state says
how much of a character has been read, so what it does with the octets
behind a boundary does not depend on the octets in front of it.
-/
import BenchConfig.Text.Basic

namespace BenchConfig.Utf8

/-! ## 1. Writing -/

/-- The octets of a text. -/
def encode (t : Text) : Bytes :=
  t.flatMap String.utf8EncodeChar

@[simp] theorem encode_nil : encode [] = [] := rfl

@[simp] theorem encode_cons (c : Char) (t : Text) :
    encode (c :: t) = String.utf8EncodeChar c ++ encode t := rfl

@[simp] theorem encode_append (s t : Text) : encode (s ++ t) = encode s ++ encode t :=
  List.flatMap_append

/-! ## 2. Reading -/

/-- What stands for octets that are not part of a character. -/
def replacement : Char := '\uFFFD'

/-- Where the reader stands. -/
inductive State where
  /-- Between two characters. -/
  | between
  /-- Inside a character: the bits read so far, how many octets follow
  the next one, and the least and the greatest value that the next one
  may have. -/
  | inside (bits more low high : Nat)
  deriving DecidableEq, Repr

/-- The first octet of a character. The bounds on the second octet keep
out overlong forms, surrogates and what lies beyond U+10FFFF. -/
def start (b : UInt8) : Text × State :=
  let n := b.toNat
  if n < 0x80 then ([Char.ofNat n], .between)
  else if n < 0xC2 then ([replacement], .between)
  else if n < 0xE0 then ([], .inside (n - 0xC0) 0 0x80 0xBF)
  else if n = 0xE0 then ([], .inside 0 1 0xA0 0xBF)
  else if n = 0xED then ([], .inside 13 1 0x80 0x9F)
  else if n < 0xF0 then ([], .inside (n - 0xE0) 1 0x80 0xBF)
  else if n = 0xF0 then ([], .inside 0 2 0x90 0xBF)
  else if n < 0xF4 then ([], .inside (n - 0xF0) 2 0x80 0xBF)
  else if n = 0xF4 then ([], .inside 4 2 0x80 0x8F)
  else ([replacement], .between)

/-- One octet: the characters that it completes, and the state after
it. An octet that cannot continue the character ends it unfinished and
is then read as a first octet. -/
def step : State → UInt8 → Text × State
  | .between, b => start b
  | .inside bits more low high, b =>
    if low ≤ b.toNat ∧ b.toNat ≤ high then
      match more with
      | 0 => ([Char.ofNat (bits * 64 + (b.toNat - 0x80))], .between)
      | more + 1 => ([], .inside (bits * 64 + (b.toNat - 0x80)) more 0x80 0xBF)
    else
      (replacement :: (start b).1, (start b).2)

/-- What the end of the bytes adds. -/
def finish : State → Text
  | .between => []
  | .inside .. => [replacement]

/-- Reading from a given state to the end. -/
def decodeFrom : State → Bytes → Text
  | s, [] => finish s
  | s, b :: rest => (step s b).1 ++ decodeFrom (step s b).2 rest

/-- Reads any bytes, with U+FFFD for what is not part of a character. -/
def decodeLossy (bs : Bytes) : Text :=
  decodeFrom .between bs

/-- Reads the bytes that encode a text: exactly those that reading and
writing again gives back. -/
def decode? (bs : Bytes) : Option Text :=
  if encode (decodeLossy bs) = bs then some (decodeLossy bs) else none

/-- An octet of ASCII ends whatever stood before it and is a character
of its own, in every state. -/
theorem decodeFrom_ascii (s : State) {b : UInt8} (hb : b.toNat < 0x80)
    (hs : ∀ bits more low high, s = .inside bits more low high → 0x80 ≤ low)
    (rest : Bytes) :
    decodeFrom s (b :: rest) = finish s ++ Char.ofNat b.toNat :: decodeLossy rest := by
  cases s with
  | between => simp [decodeFrom, step, start, hb, finish, decodeLossy]
  | inside bits more low high =>
    have hlow := hs bits more low high rfl
    have hout : ¬(low ≤ b.toNat ∧ b.toNat ≤ high) := by omega
    simp [decodeFrom, step, start, hb, finish, decodeLossy, hout]

end BenchConfig.Utf8
