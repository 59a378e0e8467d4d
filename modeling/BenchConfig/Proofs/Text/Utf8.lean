/-
BenchConfig.Proofs.Text.Utf8 — reading gives back the text that was
written.

A character is written as a lead octet and up to three tail octets with
six bits each. The lead octet puts the reader into a state with bounds
for the next octet (`start_of_two`, `start_of_three`, `start_of_four`),
and a tail octet within the bounds adds its bits (`decodeFrom_tail`,
`decodeFrom_last`). The bounds shut out no character: below them are
values that are written with fewer octets, above them the surrogates and
what lies beyond the last character (`decodeFrom_encodeChar`).
-/
import BenchConfig.Text.Utf8

namespace BenchConfig.Utf8

/-! ## 1. One octet -/

theorem start_of_one {v : Nat} (hv : v < 0x80) :
    start (UInt8.ofNat v) = ([Char.ofNat v], .between) := by
  have hn : (UInt8.ofNat v).toNat = v := UInt8.toNat_ofNat_of_lt' (show v < 256 by omega)
  simp [start, hn, hv]

theorem start_of_two : ∀ x < 32, 2 ≤ x →
    start (UInt8.ofNat (x + 0xC0)) = ([], .inside x 0 0x80 0xBF) := by
  decide

theorem start_of_three : ∀ x < 16,
    start (UInt8.ofNat (x + 0xE0))
      = ([], .inside x 1 (if x = 0 then 0xA0 else 0x80) (if x = 13 then 0x9F else 0xBF)) := by
  decide

theorem start_of_four : ∀ x < 5,
    start (UInt8.ofNat (x + 0xF0))
      = ([], .inside x 2 (if x = 0 then 0x90 else 0x80) (if x = 4 then 0x8F else 0xBF)) := by
  decide

section

variable {bits low high x : Nat} (hx : x < 64) (hlow : low ≤ x + 128) (hhigh : x + 128 ≤ high)
  (rest : Bytes)

include hx hlow hhigh

theorem decodeFrom_tail (more : Nat) :
    decodeFrom (.inside bits (more + 1) low high) (UInt8.ofNat (x + 128) :: rest)
      = decodeFrom (.inside (bits * 64 + x) more 0x80 0xBF) rest := by
  have hn : (UInt8.ofNat (x + 128)).toNat = x + 128 :=
    UInt8.toNat_ofNat_of_lt' (show x + 128 < 256 by omega)
  generalize UInt8.ofNat (x + 128) = b at hn ⊢
  simp [decodeFrom, step, hn, hlow, hhigh]

theorem decodeFrom_last :
    decodeFrom (.inside bits 0 low high) (UInt8.ofNat (x + 128) :: rest)
      = Char.ofNat (bits * 64 + x) :: decodeLossy rest := by
  have hn : (UInt8.ofNat (x + 128)).toNat = x + 128 :=
    UInt8.toNat_ofNat_of_lt' (show x + 128 < 256 by omega)
  generalize UInt8.ofNat (x + 128) = b at hn ⊢
  simp [decodeFrom, step, hn, hlow, hhigh, decodeLossy]

end

/-! ## 2. One character -/

theorem decodeFrom_encodeChar (c : Char) (rest : Bytes) :
    decodeFrom .between (String.utf8EncodeChar c ++ rest) = c :: decodeLossy rest := by
  obtain ⟨v, hv⟩ : ∃ v, c.val.toNat = v := ⟨_, rfl⟩
  have hc : Char.ofNat v = c := by rw [← hv]; exact Char.ofNat_toNat c
  have hvalid : v < 0xD800 ∨ 0xDFFF < v ∧ v < 0x110000 := hv ▸ c.valid
  -- one case for each length; the bits come together again by `omega`
  simp only [String.utf8EncodeChar, hv]
  split
  · next h =>
    have hlead := start_of_one (v := v) (by omega)
    simp only [List.singleton_append, decodeFrom, step, hlead, hc]
    rfl
  split
  · next h _ =>
    have hlead := start_of_two (v / 64 % 32) (by omega) (by omega)
    simp only [List.cons_append, List.nil_append]
    rw [decodeFrom, step, hlead, List.nil_append,
      decodeFrom_last (by omega) (by omega) (by omega)]
    rw [show v / 64 % 32 * 64 + v % 64 = v by omega, hc]
  split
  · next h _ =>
    have hlead := start_of_three (v / 4096 % 16) (by omega)
    simp only [List.cons_append, List.nil_append]
    rw [decodeFrom, step, hlead, List.nil_append,
      decodeFrom_tail (by omega) (by split <;> omega) (by split <;> omega),
      decodeFrom_last (by omega) (by omega) (by omega)]
    rw [show (v / 4096 % 16 * 64 + v / 64 % 64) * 64 + v % 64 = v by omega, hc]
  · have hlead := start_of_four (v / 262144 % 8) (by omega)
    simp only [List.cons_append, List.nil_append]
    rw [decodeFrom, step, hlead, List.nil_append,
      decodeFrom_tail (by omega) (by split <;> omega) (by split <;> omega),
      decodeFrom_tail (by omega) (by omega) (by omega),
      decodeFrom_last (by omega) (by omega) (by omega)]
    rw [show ((v / 262144 % 8 * 64 + v / 4096 % 64) * 64 + v / 64 % 64) * 64 + v % 64 = v by omega,
      hc]

/-! ## 3. Texts -/

theorem decodeLossy_encode (t : Text) : decodeLossy (encode t) = t := by
  induction t with
  | nil => rfl
  | cons c t ih => rw [encode_cons, decodeLossy, decodeFrom_encodeChar, ih]

theorem encode_ne_nil {t : Text} (h : t ≠ []) : encode t ≠ [] := by
  intro hnil
  apply h
  rw [← decodeLossy_encode t, hnil]
  rfl

theorem decode?_encode (t : Text) : decode? (encode t) = some t := by
  rw [decode?, decodeLossy_encode, if_pos rfl]

end BenchConfig.Utf8
