import DefiActions.Abi
import DefiActions.Proofs.BytesLemmas

/-!
# Words

`WordKind.Writes` says which words a value of each kind is written as. Writing
is this relation, and reading is its inverse: a word that is read is the one
that its value is written as, so a word has one value and a value one word.
-/

namespace DefiActions.Abi

open Bytes (wordSize capacity)

/-! ## Widths -/

theorem twoPow_mono {m n : Nat} (h : m ≤ n) : twoPow m ≤ twoPow n := Nat.pow_le_pow_right (by decide) h

theorem capacity_wordSize : capacity wordSize = twoPow 256 := by decide

theorem capacity_wordSize_half : capacity wordSize = 2 * twoPow 255 := by decide

namespace WordKind

def sized : WordKind → Bool
  | uint bits => bits ≤ 256
  | int bits => bits ≤ 256
  | _ => true

/-- What one word may hold: the value and the octets of the word. -/
inductive Writes : WordKind → Value → Bytes → Prop
  | uint {bits : Nat} {n : Int} (lo : 0 ≤ n) (hi : n < twoPow bits) :
      Writes (uint bits) (.int n) (Bytes.word n.toNat)
  | int {bits : Nat} {n : Int} (lo : -(twoPow (bits - 1) : Int) ≤ n) (hi : n < twoPow (bits - 1)) :
    Writes (int bits) (.int n) (Bytes.ofInt wordSize n)
  | bool (b : Bool) : Writes bool (.bool b) (Bytes.word b.toNat)
  | address {bs : Bytes} (h : bs.length = 20) : Writes address (.bytes bs) (Bytes.zeros 12 ++ bs)
  | octets32 {bs : Bytes} (h : bs.length = 32) : Writes octets32 (.bytes bs) bs

theorem Writes.length {w : WordKind} {v : Value} {bs : Bytes} (h : w.Writes v bs) : bs.length = wordSize := by
  cases h with
  | uint | int | bool => simp
  | address h => simp [h, wordSize]
  | octets32 h => exact h

theorem Writes.exists_bytes {v : Value} {bs : Bytes} (h : WordKind.address.Writes v bs) :
    ∃ xs, v = .bytes xs ∧ xs.length = 20 := by
  cases h with
  | address h => exact ⟨_, rfl, h⟩

theorem exists_writes_uint {bits : Nat} {v : Value} :
    (∃ bs, (uint bits).Writes v bs) ↔ ∃ n, v = .int n ∧ 0 ≤ n ∧ n < twoPow bits := by
  constructor
  · rintro ⟨_, h⟩
    cases h with
    | uint lo hi => exact ⟨_, rfl, lo, hi⟩
  · rintro ⟨n, rfl, lo, hi⟩
    exact ⟨_, .uint lo hi⟩

theorem exists_writes_int {bits : Nat} {v : Value} : (∃ bs, (int bits).Writes v bs) ↔
    ∃ n, v = .int n ∧ -(twoPow (bits - 1) : Int) ≤ n ∧ n < twoPow (bits - 1) := by
  constructor
  · rintro ⟨_, h⟩
    cases h with
    | int lo hi => exact ⟨_, rfl, lo, hi⟩
  · rintro ⟨n, rfl, lo, hi⟩
    exact ⟨_, .int lo hi⟩

theorem exists_writes_address {xs : Bytes} : (∃ bs, address.Writes (.bytes xs) bs) ↔ xs.length = 20 := by
  constructor
  · rintro ⟨_, h⟩
    cases h with
    | address h => exact h
  · exact fun h => ⟨_, .address h⟩

theorem encode_of_writes {w : WordKind} {v : Value} {bs : Bytes} (h : w.Writes v bs) : w.encode v = .ok bs := by
  cases h with
  | uint lo hi => simp only [encode, lo, hi, and_self, ite_true]
  | int lo hi => simp only [encode, lo, hi, and_self, ite_true]
  | bool b => rfl
  | address h => simp only [encode, h, ite_true]
  | octets32 h => simp only [encode, h, ite_true]

theorem encode_eq_ok {w : WordKind} {v : Value} {bs : Bytes} : w.encode v = .ok bs ↔ w.Writes v bs := by
  refine ⟨fun h => ?_, encode_of_writes⟩
  unfold encode at h
  split at h
  · split at h
    · rename_i hr; obtain rfl := Except.ok.inj h; exact .uint hr.1 hr.2
    · cases h
  · split at h
    · rename_i hr; obtain rfl := Except.ok.inj h; exact .int hr.1 hr.2
    · cases h
  · obtain rfl := Except.ok.inj h; exact .bool _
  · split at h
    · rename_i hr; obtain rfl := Except.ok.inj h; exact .address hr
    · cases h
  · split at h
    · rename_i hr; obtain rfl := Except.ok.inj h; exact .octets32 hr
    · cases h
  · cases h

/-- What is read for a value that was written: an address comes back as text. -/
def readBack : WordKind → Value → Value
  | address, .bytes bs => .text (Hex.literal bs)
  | _, v => v

theorem ofWord_of_writes {w : WordKind} (hw : w.sized = true) {v : Value} {bs : Bytes} (h : w.Writes v bs) :
    w.ofWord bs = .ok (w.readBack v) := by
  have hc := capacity_wordSize
  cases h with
  | @uint bits n lo hi =>
    have hb : twoPow bits ≤ twoPow 256 := twoPow_mono (by simpa [sized] using hw)
    have hn : Bytes.toNat (Bytes.word n.toNat) = n.toNat := Bytes.toNat_word (by omega)
    simp only [ofWord, hn, show n.toNat < twoPow bits by omega, ite_true, readBack, Int.toNat_of_nonneg lo]
  | @int bits n lo hi =>
    have hs : bits ≤ 256 := by simpa [sized] using hw
    have hb : twoPow (bits - 1) ≤ twoPow 255 := twoPow_mono (by omega)
    have hh := capacity_wordSize_half
    have hn : Bytes.toInt (Bytes.ofInt wordSize n) = n := Bytes.toInt_ofInt (by omega) (by omega)
    simp only [ofWord, hn, lo, hi, and_self, ite_true, readBack]
  | bool b =>
    have hn : Bytes.toNat (Bytes.word b.toNat) = b.toNat :=
      Bytes.toNat_word (Nat.lt_of_le_of_lt (Bool.toNat_le b) (by decide))
    simp only [ofWord, hn]
    cases b <;> rfl
  | @address bs h =>
    have hn : Bytes.toNat (Bytes.zeros 12 ++ bs) < twoPow 160 := by
      have := Bytes.toNat_lt bs
      rw [Bytes.toNat_append, Bytes.toNat_zeros, Nat.zero_mul, Nat.zero_add]
      rw [h] at this
      exact this
    have hd : (Bytes.zeros 12 ++ bs).drop 12 = bs := List.drop_left' (by simp)
    simp only [ofWord, hn, ite_true, readBack, hd]
  | octets32 h => rfl

theorem writes_of_ofWord {w : WordKind} {bs : Bytes} (hl : bs.length = wordSize) {v : Value}
    (h : w.ofWord bs = .ok v) : ∃ u, w.Writes u bs ∧ w.readBack u = v := by
  have hw : Bytes.word (Bytes.toNat bs) = bs := Bytes.word_toNat hl
  cases w with
  | uint bits =>
    simp only [ofWord] at h
    split at h
    · rename_i hr
      cases h
      refine ⟨.int (Bytes.toNat bs), ?_, rfl⟩
      have := @Writes.uint bits (Bytes.toNat bs) (by omega) (by omega)
      rwa [Int.toNat_natCast, hw] at this
    · cases h
  | int bits =>
    simp only [ofWord] at h
    split at h
    · rename_i hr
      cases h
      refine ⟨.int (Bytes.toInt bs), ?_, rfl⟩
      have := Writes.int hr.1 hr.2
      rwa [← hl, Bytes.ofInt_toInt] at this
    · cases h
  | bool =>
    simp only [ofWord] at h
    split at h
    · rename_i hr
      cases h
      refine ⟨.bool (Bytes.toNat bs = 1), ?_, rfl⟩
      have := Writes.bool (decide (Bytes.toNat bs = 1))
      have e : (decide (Bytes.toNat bs = 1)).toNat = Bytes.toNat bs := by
        by_cases h1 : Bytes.toNat bs = 1
        · simp [h1]
        · simp only [h1, decide_false, Bool.toNat_false]; omega
      rwa [e, hw] at this
    · cases h
  | address =>
    simp only [ofWord] at h
    split at h
    · rename_i hr
      cases h
      -- A number of 20 octets has 12 zeros in front, so that nothing is lost with them.
      refine ⟨.bytes (bs.drop 12), ?_, rfl⟩
      have e := @Bytes.eq_zeros_append 12 bs (by rw [hl]; decide) (by rw [hl]; exact hr)
      have := @Writes.address (bs.drop 12) (by rw [List.length_drop, hl]; rfl)
      rwa [← e] at this
    · cases h
  | octets32 =>
    cases h
    exact ⟨.bytes bs, .octets32 hl, rfl⟩

end WordKind

end DefiActions.Abi
