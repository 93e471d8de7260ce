import DefiActions.Amount
import DefiActions.Proofs.ExceptLemmas
import DefiActions.Proofs.NumeralLemmas
import Mathlib.Algebra.Order.Field.Basic
import Mathlib.Algebra.Order.Ring.Rat
import Mathlib.Tactic.Positivity

/-!
# Decimal texts are exact

The text of a raw amount is the numeral of the amount over the power of ten, with
a digit for every decimal: digits and zeros are only ever put around the point.
-/

namespace DefiActions.Amount

open Text (natDigits)

/-! ## Numerals with a point -/

/-- Digits before a point and as many as there are places behind it, with no superfluous zero in front. -/
structure Numeral (places : Nat) where
  whole : List Char
  fraction : List Char
  whole_ne_nil : whole ≠ []
  whole_of_zero : whole.head? = some '0' → whole = ['0']
  length_fraction : fraction.length = places
  isDigit : ∀ c ∈ whole ++ fraction, c.isDigit = true

namespace Numeral

variable {places : Nat}

def chars (n : Numeral places) : List Char := n.whole ++ if places = 0 then [] else '.' :: n.fraction

def value (n : Numeral places) : ℚ := Nat.ofDigitChars 10 (n.whole ++ n.fraction) 0 / 10 ^ places

end Numeral

/-- The text is the numeral of the number, with a minus in front of a negative one. -/
def Denotes (text : String) (q : ℚ) (places : Nat) : Prop :=
  ∃ n : Numeral places, text.toList = (if q < 0 then ['-'] else []) ++ n.chars ∧ n.value = |q|

/-! ## Placing the point -/

theorem ofDigitChars_zeros (n : Nat) (cs : List Char) :
    Nat.ofDigitChars 10 (List.replicate n '0' ++ cs) 0 = Nat.ofDigitChars 10 cs 0 := by
  induction n with
  | zero => rfl
  | succ n ih =>
    rw [List.replicate_succ, List.cons_append, Nat.ofDigitChars_cons]
    exact ih

theorem isDigit_of_mem_zeros {n : Nat} {c : Char} (h : c ∈ List.replicate n '0') : c.isDigit = true := by
  rw [List.eq_of_mem_replicate h]
  rfl

theorem natDigits_of_zero {raw : Nat} (h : (natDigits raw).head? = some '0') : natDigits raw = ['0'] := by
  rw [Text.eq_zero_of_head?_natDigits h]
  rfl

/-- With no more digits than places the whole is a zero, and zeros fill up the fraction. -/
theorem exists_filled {raw places : Nat} (h : (natDigits raw).length ≤ places) :
    ∃ n : Numeral places, n.whole = ['0'] ∧
      n.fraction = List.replicate (places - (natDigits raw).length) '0' ++ natDigits raw ∧
      n.value = raw / 10 ^ places := by
  have hzeros := ofDigitChars_zeros (1 + (places - (natDigits raw).length)) (natDigits raw)
  rw [List.replicate_add, List.append_assoc, Text.ofDigitChars_natDigits] at hzeros
  refine ⟨⟨['0'], _, List.cons_ne_nil _ _, fun _ => rfl, ?_, ?_⟩, rfl, rfl, ?_⟩
  · rw [List.length_append, List.length_replicate]
    omega
  · intro c hc
    rcases List.mem_append.mp hc with hc | hc
    · exact isDigit_of_mem_zeros (n := 1) hc
    rcases List.mem_append.mp hc with hc | hc
    · exact isDigit_of_mem_zeros hc
    · exact Text.isDigit_of_mem_natDigits hc
  · exact congrArg (fun n : Nat => (n : ℚ) / 10 ^ places) hzeros

/-- With more digits than places the digits are split. -/
theorem exists_split {raw places : Nat} (h : places < (natDigits raw).length) :
    ∃ n : Numeral places, n.whole = (natDigits raw).take ((natDigits raw).length - places) ∧
      n.fraction = (natDigits raw).drop ((natDigits raw).length - places) ∧ n.value = raw / 10 ^ places := by
  have hsplit := List.take_append_drop ((natDigits raw).length - places) (natDigits raw)
  refine ⟨⟨_, _, ?_, ?_, ?_, ?_⟩, rfl, rfl, ?_⟩
  · intro hnil
    have := congrArg List.length hnil
    rw [List.length_take, List.length_nil] at this
    omega
  -- A zero in front would be the only digit, which is then before the point.
  · intro hzero
    rw [List.head?_take, if_neg (by omega)] at hzero
    rw [natDigits_of_zero hzero] at h ⊢
    rw [List.take_of_length_le (by rw [List.length_singleton] at h ⊢; omega)]
  · rw [List.length_drop]
    omega
  · rw [hsplit]
    exact fun c => Text.isDigit_of_mem_natDigits
  · rw [Numeral.value, hsplit, Text.ofDigitChars_natDigits]

theorem exists_numeral (raw places : Nat) :
    ∃ n : Numeral places, n.chars = pointed (natDigits raw) places ∧ n.value = raw / 10 ^ places := by
  have hpos : 0 < (natDigits raw).length := Nat.length_toDigits_pos
  by_cases h : (natDigits raw).length ≤ places
  · obtain ⟨n, hw, hf, hv⟩ := exists_filled h
    refine ⟨n, ?_, hv⟩
    rw [Numeral.chars, pointed, if_neg (by omega), if_neg (by omega), if_pos h, hw, hf]
    rfl
  · obtain ⟨n, hw, hf, hv⟩ := exists_split (Nat.not_le.mp h)
    refine ⟨n, ?_, hv⟩
    by_cases hp : places = 0
    · rw [Numeral.chars, pointed, if_pos hp, if_pos hp, hw, hp, Nat.sub_zero, List.take_length, List.append_nil]
    · rw [Numeral.chars, pointed, if_neg hp, if_neg hp, if_neg h, hw, hf]

/-! ## Formatting -/

theorem format_natCast {raw places : Nat} (hw : Text.isWritable raw = true) (hp : (places : Int) < widthBound) :
    format raw places = .ok (String.ofList (pointed (natDigits raw) places)) := by
  unfold format
  rw [if_neg (by omega), if_neg (by omega), hw, if_neg (by decide), if_neg (by omega)]
  rfl

def sign (raw : Int) : List Char := if raw < 0 then ['-'] else []

/-- The magnitude is formatted, and a sign put in front. -/
theorem formatSigned_eq_map (raw : Int) (places : Nat) :
    formatSigned raw places = (format raw.natAbs places).map (String.ofList (sign raw) ++ ·) := by
  unfold formatSigned sign
  split
  · rename_i hneg
    have habs : -raw = (raw.natAbs : Int) := by omega
    rw [habs]
  · rename_i hneg
    have habs : raw = (raw.natAbs : Int) := by omega
    rw [← habs]
    cases format raw places with
    | error f => rfl
    | ok text => exact congrArg Except.ok (String.empty_append).symm

theorem formatSigned_of_writable {raw : Int} {places : Nat} (hw : Text.isWritable raw = true)
    (hp : (places : Int) < widthBound) :
    formatSigned raw places = .ok (String.ofList (sign raw ++ pointed (natDigits raw.natAbs) places)) := by
  rw [formatSigned_eq_map, format_natCast ((Text.isWritable_natAbs raw).trans hw) hp, String.ofList_append]
  rfl

theorem natAbs_div (raw : Int) (places : Nat) : (raw.natAbs : ℚ) / 10 ^ places = |(raw : ℚ) / 10 ^ places| := by
  have hpos : (0 : ℚ) < 10 ^ places := by positivity
  rw [abs_div, abs_of_pos hpos, Nat.cast_natAbs, Int.cast_abs]

theorem div_neg_iff (raw : Int) (places : Nat) : (raw : ℚ) / 10 ^ places < 0 ↔ raw < 0 := by
  have hpos : (0 : ℚ) < 10 ^ places := by positivity
  rw [div_lt_iff₀ hpos, zero_mul, Int.cast_lt_zero]

/-- **An amount that can be written at all is written exactly.** -/
theorem formatSigned_denotes {raw : Int} {places : Nat} (hw : Text.isWritable raw = true)
    (hp : (places : Int) < widthBound) :
    ∃ text, formatSigned raw places = .ok text ∧ Denotes text (raw / 10 ^ places) places := by
  obtain ⟨n, hchars, hvalue⟩ := exists_numeral raw.natAbs places
  rw [natAbs_div] at hvalue
  refine ⟨_, formatSigned_of_writable hw hp, n, ?_, hvalue⟩
  simp only [div_neg_iff]
  rw [String.toList_ofList, hchars, sign]

example : isOk (formatSigned (-5) 2) "-0.05" = true := by decide +kernel

end DefiActions.Amount
