/-
BenchConfig.Proofs.Text.Lossy — what lossy reading does to ASCII.

Reading bytes that are not the encoding of a text replaces some of them,
and may give the same text for many of them. ASCII is safe. An octet of
ASCII stands for itself wherever it is, and a character of ASCII comes from
the octet and from nothing else (`ofNat_mem_decodeLossy`). An unfinished
character in front of such an octet is closed before it, and the octets
behind it are read as if nothing stood in front of them
(`decodeLossy_append`). So a text can be cut at any character of ASCII
before or after it is read.

Two facts about the reader are behind this. A tail octet is no octet of
ASCII, so ASCII closes what is open. And what is completed by tail octets is
no character of ASCII: the bounds on the second octet keep out the values
that are written with one octet. They keep out the surrogates as well,
which the reader could only turn into the character 0. `State.IsSound` says
both of a state, and the reader comes to no other state.
-/
import BenchConfig.Text.Utf8

namespace BenchConfig.Utf8

/-! ## 1. Sound states -/

/-- The tail octets that the reader still wants, each within its bounds,
complete a character that is not one of ASCII. -/
def CompletesBeyondAscii : (more bits low high : Nat) → Prop
  | 0, bits, low, high => ∀ x, low ≤ x → x ≤ high →
      0x80 ≤ bits * 64 + (x - 0x80) ∧ (bits * 64 + (x - 0x80)).isValidChar
  | more + 1, bits, low, high => ∀ x, low ≤ x → x ≤ high →
      CompletesBeyondAscii more (bits * 64 + (x - 0x80)) 0x80 0xBF

/-- The state wants no octet of ASCII and completes no character of
ASCII. -/
def State.IsSound : State → Prop
  | .between => True
  | .inside bits more low high => 0x80 ≤ low ∧ CompletesBeyondAscii more bits low high

theorem isSound_start (b : UInt8) : (start b).2.IsSound := by
  have hb := b.toNat_lt
  unfold start
  dsimp only
  -- one case for each sort of lead octet, with bounds of its own
  repeat' split
  all_goals simp only [State.IsSound, CompletesBeyondAscii, Nat.isValidChar]
  all_goals exact ⟨by omega, by intros; omega⟩

theorem isSound_step {s : State} (hs : s.IsSound) (b : UInt8) : (step s b).2.IsSound := by
  cases s with
  | between => exact isSound_start b
  | inside bits more low high =>
    by_cases hbounds : low ≤ b.toNat ∧ b.toNat ≤ high
    · cases more with
      | zero => simp [step, hbounds, State.IsSound]
      | succ more =>
        have hmore := hs.2 b.toNat hbounds.1 hbounds.2
        simpa [step, hbounds, State.IsSound] using hmore
    · simpa [step, hbounds] using isSound_start b

@[simp] theorem decodeLossy_nil : decodeLossy [] = [] := rfl

/-! ## 2. One octet -/

theorem toNat_ofNat {v : Nat} (h : v.isValidChar) : (Char.ofNat v).toNat = v := by
  rw [Char.ofNat, dif_pos h]
  rfl

theorem start_of_not_ascii {b : UInt8} (hb : 0x80 ≤ b.toNat) :
    (start b).1 = [] ∨ (start b).1 = [replacement] := by
  unfold start
  dsimp only
  rw [if_neg (by omega)]
  repeat' split
  all_goals simp

/-- The only character of ASCII that an octet completes is the one that it
stands for. -/
theorem ascii_of_mem_step {s : State} (hs : s.IsSound) {b : UInt8} {c : Char}
    (hc : c ∈ (step s b).1) (hascii : c.toNat < 0x80) :
    b.toNat < 0x80 ∧ c = Char.ofNat b.toNat := by
  have hreplacement : c ≠ replacement := by
    rintro rfl
    exact absurd hascii (by decide)
  have hstart : c ∈ (start b).1 → b.toNat < 0x80 ∧ c = Char.ofNat b.toNat := by
    intro hmem
    by_cases hb : b.toNat < 0x80
    · simp only [start, hb, if_true, List.mem_singleton] at hmem
      exact ⟨hb, hmem⟩
    · rcases start_of_not_ascii (Nat.le_of_not_lt hb) with hnone | hone
      · simp [hnone] at hmem
      · simp [hone, hreplacement] at hmem
  cases s with
  | between => exact hstart hc
  | inside bits more low high =>
    by_cases hbounds : low ≤ b.toNat ∧ b.toNat ≤ high
    · cases more with
      | zero =>
        obtain ⟨hbeyond, hvalid⟩ := hs.2 b.toNat hbounds.1 hbounds.2
        simp only [step, hbounds, and_self, if_true, List.mem_singleton] at hc
        rw [hc, toNat_ofNat hvalid] at hascii
        omega
      | succ more => simp [step, hbounds] at hc
    · simp only [step, hbounds, if_false, List.mem_cons, hreplacement, false_or] at hc
      exact hstart hc

/-! ## 3. All octets -/

theorem exists_mem_of_mem_decodeFrom {c : Char} (hascii : c.toNat < 0x80) (bs : Bytes) :
    ∀ s : State, s.IsSound → c ∈ decodeFrom s bs →
      ∃ b ∈ bs, b.toNat < 0x80 ∧ c = Char.ofNat b.toNat := by
  induction bs with
  | nil =>
    intro s _ hc
    cases s with
    | between => cases hc
    | inside bits more low high =>
      rw [decodeFrom, finish, List.mem_singleton] at hc
      exact absurd hascii (by rw [hc]; decide)
  | cons b bs ih =>
    intro s hs hc
    rw [decodeFrom, List.mem_append] at hc
    rcases hc with hc | hc
    · exact ⟨b, List.mem_cons_self, ascii_of_mem_step hs hc hascii⟩
    · obtain ⟨b', hb', hrest⟩ := ih _ (isSound_step hs b) hc
      exact ⟨b', List.mem_cons_of_mem b hb', hrest⟩

section

variable {b : UInt8} (hb : b.toNat < 0x80)

include hb

theorem decodeFrom_append (x y : Bytes) : ∀ s : State, s.IsSound →
    decodeFrom s (x ++ b :: y) = decodeFrom s x ++ Char.ofNat b.toNat :: decodeLossy y := by
  induction x with
  | nil =>
    intro s hs
    refine decodeFrom_ascii s hb ?_ y
    rintro bits more low high rfl
    exact hs.1
  | cons b' x ih =>
    intro s hs
    rw [List.cons_append, decodeFrom, decodeFrom, ih _ (isSound_step hs b'), List.append_assoc]

/-- Before and behind an octet of ASCII the bytes are read apart. -/
theorem decodeLossy_append (x y : Bytes) :
    decodeLossy (x ++ b :: y) = decodeLossy x ++ Char.ofNat b.toNat :: decodeLossy y :=
  decodeFrom_append hb x y .between trivial

theorem decodeLossy_cons (y : Bytes) :
    decodeLossy (b :: y) = Char.ofNat b.toNat :: decodeLossy y :=
  decodeLossy_append hb [] y

/-- A character of ASCII is read if and only if its octet is there. -/
theorem ofNat_mem_decodeLossy {bs : Bytes} : Char.ofNat b.toNat ∈ decodeLossy bs ↔ b ∈ bs := by
  have hvalue : (Char.ofNat b.toNat).toNat = b.toNat := toNat_ofNat (.inl (by omega))
  constructor
  · intro hmem
    obtain ⟨b', hb', hascii, heq⟩ :=
      exists_mem_of_mem_decodeFrom (by rwa [hvalue]) bs .between trivial hmem
    have hvalue' : (Char.ofNat b'.toNat).toNat = b'.toNat := toNat_ofNat (.inl (by omega))
    rw [heq, hvalue'] at hvalue
    rwa [← UInt8.toNat_inj.mp hvalue]
  · intro hmem
    obtain ⟨x, y, rfl⟩ := List.append_of_mem hmem
    simp [decodeLossy_append hb]

end

/-! ## 4. Texts that are read in one way only -/

theorem start_ne_nil {b : UInt8} (h : (start b).2 = .between) : (start b).1 ≠ [] := by
  revert h
  unfold start
  dsimp only
  repeat' split
  all_goals simp

/-- An octet that leaves nothing open has completed something. -/
theorem step_ne_nil {s : State} {b : UInt8} (h : (step s b).2 = .between) : (step s b).1 ≠ [] := by
  cases s with
  | between => exact start_ne_nil h
  | inside bits more low high =>
    by_cases hbounds : low ≤ b.toNat ∧ b.toNat ≤ high
    · cases more with
      | zero => simp [step, hbounds]
      | succ more => simp [step, hbounds] at h
    · simp [step, hbounds]

theorem decodeFrom_eq_nil (bs : Bytes) :
    ∀ s : State, decodeFrom s bs = [] → s = .between ∧ bs = [] := by
  induction bs with
  | nil =>
    intro s h
    cases s with
    | between => exact ⟨rfl, rfl⟩
    | inside bits more low high => cases h
  | cons b bs ih =>
    intro s h
    rw [decodeFrom, List.append_eq_nil_iff] at h
    exact absurd h.1 (step_ne_nil (ih _ h.2).1)

theorem decodeLossy_eq_nil {bs : Bytes} : decodeLossy bs = [] ↔ bs = [] := by
  constructor
  · exact fun h => (decodeFrom_eq_nil bs .between h).2
  · rintro rfl
    exact decodeLossy_nil

theorem eq_of_decodeLossy_eq {t : Bytes} (ht : ∀ b ∈ t, b.toNat < 0x80) :
    ∀ {bs : Bytes}, decodeLossy bs = decodeLossy t → bs = t := by
  induction t with
  | nil =>
    intro bs h
    exact decodeLossy_eq_nil.mp h
  | cons b t ih =>
    intro bs h
    have hb := ht b List.mem_cons_self
    rw [decodeLossy_cons hb] at h
    have hmem : b ∈ bs := (ofNat_mem_decodeLossy hb).mp (h ▸ List.mem_cons_self)
    obtain ⟨x, y, rfl, hx⟩ := List.eq_append_cons_of_mem hmem
    rw [decodeLossy_append hb] at h
    -- a character in front of the first such octet would be that character
    have hfront : decodeLossy x = [] := by
      cases hread : decodeLossy x with
      | nil => rfl
      | cons c r =>
        rw [hread, List.cons_append] at h
        have hc : Char.ofNat b.toNat ∈ decodeLossy x := by
          rw [hread, (List.cons.inj h).1]
          exact List.mem_cons_self
        exact absurd ((ofNat_mem_decodeLossy hb).mp hc) hx
    rw [hfront, List.nil_append] at h
    have hrest := ih (fun b' hb' => ht b' (List.mem_cons_of_mem b hb')) (List.cons.inj h).2
    rw [decodeLossy_eq_nil.mp hfront, hrest, List.nil_append]

/-- A text of ASCII is read from its own octets and from no others. -/
theorem decodeLossy_eq_iff {t bs : Bytes} (ht : ∀ b ∈ t, b.toNat < 0x80) :
    decodeLossy bs = decodeLossy t ↔ bs = t :=
  ⟨eq_of_decodeLossy_eq ht, fun h => h ▸ rfl⟩

end BenchConfig.Utf8
