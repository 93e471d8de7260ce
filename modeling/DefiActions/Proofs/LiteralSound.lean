import DefiActions.Json.Printer
import DefiActions.Json.Reader
import DefiActions.Proofs.NumeralLemmas
import DefiActions.Proofs.ExceptLemmas
import DefiActions.Proofs.HexLemmas
import DefiActions.Proofs.ShortestSound
import Mathlib.Data.List.TakeWhile

/-!
# Literals

A number literal is digits, digits behind a point and an exponent. Where nothing
follows that goes on with it, it is read as a whole; the literals of integers and
of canonical numbers are read as the number that they were written for. A text
literal is read as its text character by character, those above the basic plane
from the two units of a pair.
-/

namespace DefiActions

open Decimal (isAsciiDigit digitsValue)
open Text (natDigits)

/-! ## Values of digits -/

namespace Decimal

theorem isAsciiDigit_of_mem_natDigits {n : Nat} {c : Char} (h : c ∈ natDigits n) : isAsciiDigit c = true :=
  Text.isDigit_of_mem_natDigits h

theorem isAsciiDigit_of_mem_zeros {n : Nat} {c : Char} (h : c ∈ List.replicate n '0') : isAsciiDigit c = true := by
  rw [List.eq_of_mem_replicate h]
  rfl

theorem digitsValue_eq (cs : List Char) : digitsValue cs = Nat.ofDigitChars 10 cs 0 := Text.ofDigits_ascii cs

@[simp] theorem digitsValue_natDigits (n : Nat) : digitsValue (natDigits n) = n := by
  rw [digitsValue_eq, Text.ofDigitChars_natDigits]

@[simp] theorem digitsValue_zeros (n : Nat) : digitsValue (List.replicate n '0') = 0 := by
  rw [digitsValue_eq, Nat.ofDigitChars_replicate_zero, Nat.mul_zero]

theorem digitsValue_append (xs ys : List Char) :
    digitsValue (xs ++ ys) = tenPow ys.length * digitsValue xs + digitsValue ys := by
  rw [digitsValue_eq, digitsValue_eq, digitsValue_eq, Nat.ofDigitChars_append,
    Nat.ofDigitChars_eq_ofDigitChars_zero]
  rfl

theorem digitsValue_append_zeros (ds : List Char) (n : Nat) :
    digitsValue (ds ++ List.replicate n '0') = tenPow n * digitsValue ds := by
  simp [digitsValue_append]

theorem digitsValue_zeros_append (n : Nat) (ds : List Char) :
    digitsValue (List.replicate n '0' ++ ds) = digitsValue ds := by
  simp [digitsValue_append]

end Decimal

/-! ## Literals -/

namespace Json

def Ends (rest : List Char) : Prop :=
  ∀ c, rest.head? = some c → isAsciiDigit c = false ∧ c ≠ '.' ∧ c ≠ 'e' ∧ c ≠ 'E'

def StartsOff (rest : List Char) : Prop := ∀ c, rest.head? = some c → isAsciiDigit c = false

theorem Ends.startsOff {rest : List Char} (h : Ends rest) : StartsOff rest := fun c hc => (h c hc).1

/-- The digits of a number literal, with no superfluous zero in front, and its exponent. -/
structure NumberLiteral where
  whole : List Char
  fraction : List Char
  exponent : Option Int
  whole_ne_nil : whole ≠ []
  whole_of_zero : whole.head? = some '0' → whole = ['0']
  isDigit : ∀ c ∈ whole ++ fraction, isAsciiDigit c = true

namespace NumberLiteral

def fractionChars (n : NumberLiteral) : List Char := if n.fraction = [] then [] else '.' :: n.fraction

def exponentChars (n : NumberLiteral) : List Char :=
  match n.exponent with
  | none => []
  | some x => 'e' :: Binary64.exponentText x

def chars (n : NumberLiteral) : List Char := n.whole ++ n.fractionChars ++ n.exponentChars

def scale (n : NumberLiteral) : Int := n.exponent.getD 0 - n.fraction.length

def value (n : NumberLiteral) : ℚ := digitsValue (n.whole ++ n.fraction) * 10 ^ n.scale

theorem value_eq {n : NumberLiteral} {d : Nat} {t : Int} (hd : digitsValue (n.whole ++ n.fraction) = d)
    (ht : n.scale = t) : n.value = d * 10 ^ t := by
  rw [value, hd, ht]

end NumberLiteral

/-! ## Reading literals -/

theorem takeWhile_digits {ds rest : List Char} (h : ∀ c ∈ ds, isAsciiDigit c = true) (hr : StartsOff rest) :
    (ds ++ rest).takeWhile isAsciiDigit = ds := by
  rw [List.takeWhile_append_of_pos h]
  cases rest with
  | nil => simp
  | cons c rest => simp [hr c rfl]

theorem dropWhile_digits {ds rest : List Char} (h : ∀ c ∈ ds, isAsciiDigit c = true) (hr : StartsOff rest) :
    (ds ++ rest).dropWhile isAsciiDigit = rest := by
  rw [List.dropWhile_append_of_pos h]
  cases rest with
  | nil => simp
  | cons c rest => simp [hr c rfl]

theorem wholePart_append {ds rest : List Char} (hd : ∀ c ∈ ds, isAsciiDigit c = true) (hne : ds ≠ [])
    (hz : ds.head? = some '0' → ds = ['0']) (hr : StartsOff rest) : wholePart (ds ++ rest) = (ds, rest) := by
  by_cases h : ds.head? = some '0'
  · rw [hz h]
    rfl
  · unfold wholePart
    split
    · rename_i heq
      cases ds with
      | nil => exact absurd rfl hne
      | cons d ds =>
        obtain ⟨rfl, -⟩ := List.cons.inj heq
        exact absurd rfl h
    · rw [takeWhile_digits hd hr, dropWhile_digits hd hr]

theorem fractionPart_of_point {ds rest : List Char} (hd : ∀ c ∈ ds, isAsciiDigit c = true) (hne : ds ≠ [])
    (hr : StartsOff rest) : fractionPart ('.' :: ds ++ rest) = (ds, rest) := by
  simp only [List.cons_append, fractionPart, takeWhile_digits hd hr, dropWhile_digits hd hr, if_neg hne]

theorem fractionPart_of_ne {cs : List Char} (h : cs.head? ≠ some '.') : fractionPart cs = ([], cs) := by
  unfold fractionPart
  split
  · exact absurd rfl h
  · rfl

theorem exponentText_eq (x : Int) : ∃ ds, Binary64.exponentText x = (if x < 0 then '-' else '+') :: ds ∧ ds ≠ [] ∧
    (∀ c ∈ ds, isAsciiDigit c = true) ∧ digitsValue ds = x.natAbs := by
  unfold Binary64.exponentText
  dsimp only
  by_cases h : (natDigits x.natAbs).length < 2
  · have hzero := Decimal.digitsValue_zeros_append 1 (natDigits x.natAbs)
    refine ⟨'0' :: natDigits x.natAbs, by rw [if_pos h], List.cons_ne_nil _ _, ?_, ?_⟩
    · intro c hc
      rcases List.mem_cons.mp hc with rfl | hc
      · rfl
      · exact Decimal.isAsciiDigit_of_mem_natDigits hc
    · simpa using hzero
  · exact ⟨natDigits x.natAbs, by rw [if_neg h], Text.natDigits_ne_nil _,
      fun c => Decimal.isAsciiDigit_of_mem_natDigits, Decimal.digitsValue_natDigits _⟩

theorem any_not_isAsciiDigit {ds : List Char} (h : ∀ c ∈ ds, isAsciiDigit c = true) :
    ds.any (!isAsciiDigit ·) = false := by
  simpa using h

theorem exponentPart_exponentText (x : Int) {rest : List Char} (hr : StartsOff rest) :
    exponentPart ('e' :: Binary64.exponentText x ++ rest) = (some x, rest) := by
  obtain ⟨ds, hds, hne, hdigits, hvalue⟩ := exponentText_eq x
  rw [hds]
  by_cases hx : x < 0
  · have hexp : Decimal.exponent? ('-' :: ds) = some x := by
      simp only [Decimal.exponent?, hne, any_not_isAsciiDigit hdigits, hvalue]
      simp [abs_of_neg hx]
    rw [if_pos hx]
    simp [exponentPart, takeWhile_digits hdigits hr, dropWhile_digits hdigits hr, hexp]
  · have hexp : Decimal.exponent? ('+' :: ds) = some x := by
      simp only [Decimal.exponent?, hne, any_not_isAsciiDigit hdigits, hvalue]
      simp [abs_of_nonneg (not_lt.mp hx)]
    rw [if_neg hx]
    simp [exponentPart, takeWhile_digits hdigits hr, dropWhile_digits hdigits hr, hexp]

theorem exponentPart_of_ends {rest : List Char} (h : Ends rest) : exponentPart rest = (none, rest) := by
  cases rest with
  | nil => rfl
  | cons c rest =>
    obtain ⟨-, -, he, hE⟩ := h c rfl
    simp [exponentPart, he, hE]

namespace NumberLiteral

variable (n : NumberLiteral) {rest : List Char}

theorem startsOff_exponentChars (hr : Ends rest) : StartsOff (n.exponentChars ++ rest) := by
  unfold exponentChars
  cases n.exponent with
  | none => exact hr.startsOff
  | some x =>
    intro c hc
    obtain rfl : 'e' = c := by simpa using hc
    rfl

theorem exponentPart_chars (hr : Ends rest) : exponentPart (n.exponentChars ++ rest) = (n.exponent, rest) := by
  unfold exponentChars
  cases n.exponent with
  | none => exact exponentPart_of_ends hr
  | some x => exact exponentPart_exponentText x hr.startsOff

theorem fractionPart_chars (hr : Ends rest) :
    fractionPart (n.fractionChars ++ (n.exponentChars ++ rest)) = (n.fraction, n.exponentChars ++ rest) := by
  have hstart := n.startsOff_exponentChars hr
  unfold fractionChars
  by_cases h : n.fraction = []
  · rw [if_pos h, h]
    apply fractionPart_of_ne
    unfold exponentChars
    cases n.exponent with
    | none => exact fun hc => (hr '.' hc).2.1 rfl
    | some x => simp
  · rw [if_neg h]
    exact fractionPart_of_point (fun c hc => n.isDigit c (List.mem_append_right _ hc)) h hstart

theorem wholePart_chars (hr : Ends rest) :
    wholePart (n.chars ++ rest) = (n.whole, n.fractionChars ++ (n.exponentChars ++ rest)) := by
  have hstart := n.startsOff_exponentChars hr
  rw [chars, List.append_assoc, List.append_assoc]
  refine wholePart_append (fun c hc => n.isDigit c (List.mem_append_left _ hc)) n.whole_ne_nil n.whole_of_zero ?_
  unfold fractionChars
  by_cases h : n.fraction = []
  · rwa [if_pos h]
  · rw [if_neg h]
    intro c hc
    obtain rfl : '.' = c := by simpa using hc
    rfl

theorem number_of_integer (negative : Bool) (hf : n.fraction = []) (he : n.exponent = none)
    (hl : n.whole.length ≤ Text.numeralLimit) (hr : Ends rest) : number negative (n.chars ++ rest) =
      .ok (.int (if negative then -(digitsValue n.whole : Int) else digitsValue n.whole), rest) := by
  simp only [number, n.wholePart_chars hr, n.fractionPart_chars hr, n.exponentPart_chars hr, if_neg n.whole_ne_nil]
  rw [if_pos ⟨hf, he⟩, if_neg (Nat.not_lt.mpr hl)]

theorem number_of_float (negative : Bool) (h : n.fraction ≠ [] ∨ n.exponent ≠ none) (hr : Ends rest) :
    number negative (n.chars ++ rest) =
      .ok (.float (Binary64.ofDecimal negative (digitsValue (n.whole ++ n.fraction)) n.scale), rest) := by
  simp only [number, n.wholePart_chars hr, n.fractionPart_chars hr, n.exponentPart_chars hr, if_neg n.whole_ne_nil]
  rw [if_neg (by tauto), scale]

end NumberLiteral

/-! ## Floating point numbers -/

def WritesFloat (cs : List Char) (q : ℚ) : Prop :=
  ∃ n : NumberLiteral, n.chars = cs ∧ (n.fraction ≠ [] ∨ n.exponent ≠ none) ∧ n.value = q

/-- The value of `0.ds · 10 ^ k`. -/
def spreadValue (ds : List Char) (k : Int) : ℚ := digitsValue ds * 10 ^ (k - ds.length)

section Layout

variable {ds : List Char} {k : Int} (hd : ∀ c ∈ ds, isAsciiDigit c = true)

include hd

theorem layout_below_one (hk : ¬ (k ≤ -4 ∨ 16 < k)) (hneg : k ≤ 0) (hne : ds ≠ []) :
    WritesFloat (Binary64.layout ds k) (spreadValue ds k) := by
  refine ⟨⟨['0'], List.replicate (-k).toNat '0' ++ ds, none, by simp, fun _ => rfl, ?_⟩, ?_,
    Or.inl (by simp [hne]), ?_⟩
  · intro c hc
    rcases List.mem_append.mp hc with hc | hc
    · exact Decimal.isAsciiDigit_of_mem_zeros (n := 1) hc
    rcases List.mem_append.mp hc with hc | hc
    · exact Decimal.isAsciiDigit_of_mem_zeros hc
    · exact hd c hc
  · simp [Binary64.layout, hk, hneg, NumberLiteral.chars, NumberLiteral.fractionChars,
      NumberLiteral.exponentChars, hne]
  · have hzeros := Decimal.digitsValue_zeros_append (1 + (-k).toNat) ds
    rw [List.replicate_add, List.append_assoc] at hzeros
    refine NumberLiteral.value_eq hzeros ?_
    simp only [NumberLiteral.scale, Option.getD_none, List.length_append, List.length_replicate]
    omega

variable (hne : ds ≠ []) (hz : ds.head? ≠ some '0')

include hne hz

theorem layout_scientific (hk : k ≤ -4 ∨ 16 < k) :
    WritesFloat (Binary64.layout ds k) (spreadValue ds k) := by
  have hlen : 0 < ds.length := List.length_pos_iff.mpr hne
  refine ⟨⟨ds.take 1, ds.drop 1, some (k - 1), by simp [hne], fun h => ?_, ?_⟩, ?_, Or.inr (by simp), ?_⟩
  · rw [List.head?_take, if_neg one_ne_zero] at h
    exact absurd h hz
  · rwa [List.take_append_drop]
  · rw [Binary64.layout, if_pos hk]
    rfl
  · refine NumberLiteral.value_eq (congrArg digitsValue (List.take_append_drop 1 ds)) ?_
    simp only [NumberLiteral.scale, Option.getD_some, List.length_drop]
    omega

theorem layout_whole (hk : ¬ (k ≤ -4 ∨ 16 < k)) (hpos : ¬ k ≤ 0) (hlen : ds.length ≤ k) :
    WritesFloat (Binary64.layout ds k) (spreadValue ds k) := by
  refine ⟨⟨ds ++ List.replicate (k.toNat - ds.length) '0', ['0'], none, by simp [hne], fun h => ?_, ?_⟩, ?_,
    Or.inl (by simp), ?_⟩
  · rw [List.head?_append_of_ne_nil _ hne] at h
    exact absurd h hz
  · intro c hc
    rw [List.append_assoc, List.mem_append] at hc
    rcases hc with hc | hc
    · exact hd c hc
    · exact Decimal.isAsciiDigit_of_mem_zeros (n := k.toNat - ds.length + 1) (by rwa [List.replicate_add])
  · simp [Binary64.layout, hk, hpos, hlen, NumberLiteral.chars, NumberLiteral.fractionChars,
      NumberLiteral.exponentChars]
  · have hzeros := Decimal.digitsValue_append_zeros ds (k.toNat - ds.length + 1)
    rw [List.replicate_add, ← List.append_assoc] at hzeros
    have hscale : k - ds.length = ((k.toNat - ds.length + 1 : Nat) : Int) + (-1) := by omega
    rw [NumberLiteral.value_eq hzeros (t := -1) rfl, spreadValue, hscale, zpow_add₀ (by norm_num), zpow_natCast,
      Nat.cast_mul, cast_tenPow]
    ring

theorem layout_split (hk : ¬ (k ≤ -4 ∨ 16 < k)) (hpos : ¬ k ≤ 0) (hlen : ¬ ds.length ≤ k) :
    WritesFloat (Binary64.layout ds k) (spreadValue ds k) := by
  have htake : k.toNat ≠ 0 := by omega
  have hdrop : ds.drop k.toNat ≠ [] := by
    rw [ne_eq, List.drop_eq_nil_iff]
    omega
  refine ⟨⟨ds.take k.toNat, ds.drop k.toNat, none, by simp [hne, htake], fun h => ?_, ?_⟩, ?_, Or.inl hdrop, ?_⟩
  · rw [List.head?_take, if_neg htake] at h
    exact absurd h hz
  · rwa [List.take_append_drop]
  · simp [Binary64.layout, hk, hpos, hlen, NumberLiteral.chars, NumberLiteral.fractionChars,
      NumberLiteral.exponentChars, hdrop]
  · refine NumberLiteral.value_eq (congrArg digitsValue (List.take_append_drop k.toNat ds)) ?_
    simp only [NumberLiteral.scale, Option.getD_none, List.length_drop]
    omega

theorem writesFloat_layout (k : Int) : WritesFloat (Binary64.layout ds k) (spreadValue ds k) := by
  by_cases hk : k ≤ -4 ∨ 16 < k
  · exact layout_scientific hd hne hz hk
  by_cases hpos : k ≤ 0
  · exact layout_below_one hd hk hpos hne
  by_cases hlen : ds.length ≤ k
  · exact layout_whole hd hne hz hk hpos hlen
  · exact layout_split hd hne hz hk hpos hlen

end Layout

theorem exists_drop_zeros (cs : List Char) :
    ∃ n, cs = Text.dropRightWhile (· = '0') cs ++ List.replicate n '0' := by
  obtain ⟨tail, hsplit, htail⟩ := Text.exists_dropRightWhile (· = '0') cs
  refine ⟨tail.length, hsplit.trans (congrArg _ (List.eq_replicate_iff.mpr ⟨rfl, fun d hd => ?_⟩))⟩
  exact of_decide_eq_true (htail d hd)

theorem writesFloat_spread {p : Binary64.GridPoint} (hp : p.digits ≠ 0) :
    WritesFloat (Binary64.layout p.spread.1 p.spread.2) p.value := by
  obtain ⟨n, hsplit⟩ := exists_drop_zeros (natDigits p.digits)
  have hfirst : (natDigits p.digits).head? ≠ some '0' := fun h => hp (Text.eq_zero_of_head?_natDigits h)
  have hvalue := Decimal.digitsValue_natDigits p.digits
  have hlength := congrArg List.length hsplit
  have hdigits : ∀ c ∈ natDigits p.digits, isAsciiDigit c = true := fun c => Decimal.isAsciiDigit_of_mem_natDigits
  -- The zeros that are dropped come back as powers of ten in the exponent.
  have hspread : p.spread = (Text.dropRightWhile (· = '0') (natDigits p.digits),
      (natDigits p.digits).length + p.exponent) :=
    rfl
  rw [hspread]
  generalize Text.dropRightWhile (· = '0') (natDigits p.digits) = ds at *
  rw [hsplit] at hfirst hvalue hdigits
  rw [List.length_append, List.length_replicate] at hlength
  have hne : ds ≠ [] := by
    rintro rfl
    cases n with
    | zero => exact Text.natDigits_ne_nil _ hsplit
    | succ n => exact hfirst rfl
  rw [List.head?_append_of_ne_nil _ hne] at hfirst
  have hscale : ((natDigits p.digits).length : Int) + p.exponent - ds.length = n + p.exponent := by omega
  have hspreadValue : spreadValue ds ((natDigits p.digits).length + p.exponent) = p.value := by
    rw [spreadValue, hscale, zpow_add₀ (by norm_num), zpow_natCast, Binary64.GridPoint.value, ← hvalue,
      Decimal.digitsValue_append_zeros, Nat.cast_mul, cast_tenPow]
    ring
  rw [← hspreadValue]
  exact writesFloat_layout (fun c hc => hdigits c (List.mem_append_left _ hc)) hne hfirst _

/-! ## Numbers -/

open Binary64 (Canonical finite)

def WritesNumber (cs : List Char) (v : Bool → Value) : Prop :=
  ∃ n : NumberLiteral, n.chars = cs ∧ ∀ negative rest, Ends rest →
    number negative (cs ++ rest) = .ok (v negative, rest)

namespace NumberLiteral

def ofNat (n : Nat) : NumberLiteral where
  whole := natDigits n
  fraction := []
  exponent := none
  whole_ne_nil := Text.natDigits_ne_nil n
  whole_of_zero h := by
    rw [Text.eq_zero_of_head?_natDigits h]
    rfl
  isDigit c hc := Decimal.isAsciiDigit_of_mem_natDigits (by simpa using hc)

@[simp] theorem chars_ofNat (n : Nat) : (ofNat n).chars = natDigits n := by
  simp [ofNat, chars, fractionChars, exponentChars]

def zero : NumberLiteral where
  whole := ['0']
  fraction := ['0']
  exponent := none
  whole_ne_nil := by simp
  whole_of_zero _ := rfl
  isDigit c hc := Decimal.isAsciiDigit_of_mem_zeros (n := 2) hc

end NumberLiteral

theorem writesNumber_natDigits {n : Nat} (h : n < tenPow Text.numeralLimit) :
    WritesNumber (natDigits n) fun negative => .int (if negative then -(n : Int) else n) := by
  refine ⟨.ofNat n, NumberLiteral.chars_ofNat n, fun negative rest hr => ?_⟩
  have hread := (NumberLiteral.ofNat n).number_of_integer negative rfl rfl
    ((Text.length_natDigits_le_iff (by decide)).mpr h) hr
  have hvalue : digitsValue (NumberLiteral.ofNat n).whole = n := Decimal.digitsValue_natDigits n
  rwa [NumberLiteral.chars_ofNat, hvalue] at hread

variable {m : Nat} {e : Int}

theorem writesNumber_digitsText (hc : Canonical m e) :
    WritesNumber (finite false m e).digitsText fun negative => .float (finite negative m e) := by
  by_cases hm : m = 0
  · subst hm
    obtain rfl := hc.eq_least
    exact ⟨.zero, rfl, fun negative rest =>
      NumberLiteral.zero.number_of_float negative (Or.inl (List.cons_ne_nil _ _))⟩
  · have hpos := Nat.pos_of_ne_zero hm
    have hrounds := Binary64.rounds_shortest hc hpos
    obtain ⟨n, hchars, hfloat, hvalue⟩ := writesFloat_spread (Binary64.digits_ne_zero_of_rounds hpos hrounds)
    have htext : n.chars = (finite false m e).digitsText := by simp [Binary64.digitsText, hm, hchars]
    refine ⟨n, htext, fun negative rest hr => ?_⟩
    rw [← hvalue] at hrounds
    rw [← htext, n.number_of_float negative hfloat hr, Binary64.ofDecimal_of_rounds hc hpos hrounds]

/-! ## Scalars -/

/-- A text that is read as a value wherever it ends, and does not look like a list or a record. -/
structure WritesScalar (cs : List Char) (v : Value) : Prop where
  first : ∃ c tail, cs = c :: tail ∧ isBlank c = false ∧ c ∉ ['[', ']', '\x7b', '\x7d']
  read : ∀ rest, Ends rest → scalar (cs ++ rest) = .ok (v, rest)

theorem keyword?_of_ne {c : Char} (h : c ∉ ['n', 't', 'f', 'N', 'I', '-']) (cs : List Char) :
    keyword? (c :: cs) = none := by
  simp only [List.mem_cons, List.not_mem_nil, or_false, not_or] at h
  simp [keyword?, after?, Ne.symm h.1, Ne.symm h.2.1, Ne.symm h.2.2.1, Ne.symm h.2.2.2.1, Ne.symm h.2.2.2.2.1,
    Ne.symm h.2.2.2.2.2]

theorem keyword?_minus {c : Char} (h : c ≠ 'I') (cs : List Char) : keyword? ('-' :: c :: cs) = none := by
  simp [keyword?, after?, Ne.symm h]

theorem NumberLiteral.exists_first (n : NumberLiteral) : ∃ c tail, n.chars = c :: tail ∧ isAsciiDigit c = true := by
  obtain ⟨c, tail, hwhole⟩ := List.exists_cons_of_ne_nil n.whole_ne_nil
  have hc : c ∈ n.whole := by simp [hwhole]
  refine ⟨c, tail ++ n.fractionChars ++ n.exponentChars, ?_, n.isDigit c (List.mem_append_left _ hc)⟩
  simp [chars, hwhole]

theorem not_mem_of_isAsciiDigit {c : Char} (hc : isAsciiDigit c = true) {ds : List Char}
    (hd : ds.any isAsciiDigit = false) : c ∉ ds := by
  intro hm
  rw [List.any_eq_false] at hd
  exact hd c hm hc

theorem writesScalar_number {cs : List Char} {v : Bool → Value} (h : WritesNumber cs v) :
    WritesScalar cs (v false) ∧ WritesScalar ('-' :: cs) (v true) := by
  obtain ⟨n, rfl, hread⟩ := h
  obtain ⟨c, tail, hchars, hdigit⟩ := n.exists_first
  have hword : c ∉ ['n', 't', 'f', 'N', 'I', '-'] := not_mem_of_isAsciiDigit hdigit (by decide)
  have hmark : c ∉ ['[', ']', '\x7b', '\x7d'] := not_mem_of_isAsciiDigit hdigit (by decide)
  have hother : c ∉ ['"', 'I', '-'] := not_mem_of_isAsciiDigit hdigit (by decide)
  have hblank : c ∉ [' ', '\t', '\n', '\r'] := not_mem_of_isAsciiDigit hdigit (by decide)
  simp only [List.mem_cons, List.not_mem_nil, or_false, not_or] at hother hblank
  constructor
  · refine ⟨⟨c, tail, hchars, by simp [isBlank, hblank], hmark⟩, fun rest hr => ?_⟩
    rw [← hread false rest hr, hchars]
    simp [scalar, hother, keyword?_of_ne hword]
  · refine ⟨⟨'-', n.chars, rfl, rfl, by decide⟩, fun rest hr => ?_⟩
    rw [← hread true rest hr, hchars]
    simp [scalar, keyword?_minus hother.2.1]

theorem writesScalar_int {n : Int} (h : Text.isWritable n = true) : WritesScalar (Text.intDigits n) (.int n) := by
  rw [Text.isWritable, decide_eq_true_eq] at h
  obtain ⟨hplus, hminus⟩ := writesScalar_number (writesNumber_natDigits h)
  cases n with
  | ofNat n => exact hplus
  | negSucc n => exact hminus

theorem floatLiteral_finite (negative : Bool) (m : Nat) (e : Int) : floatLiteral (finite negative m e) =
    if negative then '-' :: (finite false m e).digitsText else (finite false m e).digitsText := by
  cases negative <;> simp [floatLiteral, Binary64.digitsText]

theorem writesScalar_float {x : Binary64} (h : x.IsDouble) : WritesScalar (floatLiteral x) (.float x) := by
  cases x with
  | nan => exact ⟨⟨'N', ['a', 'N'], rfl, rfl, by decide⟩, fun rest _ => rfl⟩
  | infinite negative =>
    cases negative with
    | false => exact ⟨⟨'I', "nfinity".toList, rfl, rfl, by decide⟩, fun rest _ => rfl⟩
    | true => exact ⟨⟨'-', "Infinity".toList, rfl, rfl, by decide⟩, fun rest _ => rfl⟩
  | finite negative m e =>
    obtain ⟨hplus, hminus⟩ := writesScalar_number (writesNumber_digitsText h)
    rw [floatLiteral_finite]
    cases negative with
    | false => simpa using hplus
    | true => simpa using hminus

theorem writesScalar_null : WritesScalar "null".toList .null :=
  ⟨⟨'n', "ull".toList, rfl, rfl, by decide⟩, fun rest _ => rfl⟩

theorem writesScalar_bool (b : Bool) : WritesScalar (if b then "true" else "false").toList (.bool b) := by
  cases b with
  | false => exact ⟨⟨'f', "alse".toList, rfl, rfl, by decide⟩, fun rest _ => rfl⟩
  | true => exact ⟨⟨'t', "rue".toList, rfl, rfl, by decide⟩, fun rest _ => rfl⟩

/-! ## Texts -/

def piecesOf (keep : Char → Bool) (c : Char) : List Piece :=
  if (shortEscape? c).isSome ∨ keep c then [.char c]
  else if c.toNat < 0x10000 then [.unit c.toNat]
  else [.unit (0xD800 + (c.toNat - 0x10000) / 0x400), .unit (0xDC00 + (c.toNat - 0x10000) % 0x400)]

theorem escape?_of_shortEscape? {c e : Char} (h : shortEscape? c = some e) : escape? e = some c ∧ e ≠ 'u' := by
  unfold shortEscape? at h
  split at h <;> cases h <;> decide

theorem ne_of_shortEscape? {c : Char} (h : shortEscape? c = none) : c ≠ '"' ∧ c ≠ '\\' := by
  constructor
  · rintro rfl
    cases h
  · rintro rfl
    cases h

theorem pieces_cons_char {c : Char} (hc : 0x20 ≤ c.toNat) (hquote : c ≠ '"') (hback : c ≠ '\\') (cs : List Char) :
    pieces (c :: cs) = (pieces cs).map fun r => (.char c :: r.1, r.2) := by
  rw [pieces.eq_def]
  simp [hback, Nat.not_lt.mpr hc]

theorem pieces_cons_escape {c e : Char} (h : escape? e = some c) (hu : e ≠ 'u') (cs : List Char) :
    pieces ('\\' :: e :: cs) = (pieces cs).map fun r => (.char c :: r.1, r.2) := by
  rw [pieces.eq_def]
  simp [h, hu]

theorem unit?_digits {n : Nat} (h : n < 0x10000) :
    unit? (Hex.digit (n / 16 / 16 / 16 % 16)) (Hex.digit (n / 16 / 16 % 16))
    (Hex.digit (n / 16 % 16)) (Hex.digit (n % 16)) = some n := by
  simp only [unit?, Hex.digitValue?_digit _ (Nat.mod_lt _ (by decide : 0 < 16)), Option.bind_eq_bind,
    Option.bind_some, Option.pure_def, Option.some.injEq]
  omega

theorem pieces_unitEscape {n : Nat} (h : n < 0x10000) (cs : List Char) :
    pieces (unitEscape n ++ cs) = (pieces cs).map fun r => (.unit n :: r.1, r.2) := by
  simp [unitEscape, Text.hexDigits, pieces, unit?_digits h]

def KeepsAllowed (keep : Char → Bool) : Prop := ∀ c, keep c = true → 0x20 ≤ c.toNat

theorem toNat_valid (c : Char) : c.toNat < 0xD800 ∨ 0xDFFF < c.toNat ∧ c.toNat < 0x110000 := c.valid

theorem pieces_escaped {keep : Char → Bool} (hk : KeepsAllowed keep) (c : Char) (cs : List Char) :
    pieces (escaped keep c ++ cs) = (pieces cs).map fun r => (piecesOf keep c ++ r.1, r.2) := by
  unfold escaped piecesOf
  cases hs : shortEscape? c with
  | some e =>
    obtain ⟨he, hu⟩ := escape?_of_shortEscape? hs
    simp [pieces_cons_escape he hu]
  | none =>
    obtain ⟨hquote, hback⟩ := ne_of_shortEscape? hs
    by_cases hkeep : keep c = true
    · simp [hkeep, pieces_cons_char (hk c hkeep) hquote hback]
    by_cases hsmall : c.toNat < 0x10000
    · simp [hkeep, unitEscapes, hsmall, pieces_unitEscape hsmall]
    · have hvalid := toNat_valid c
      have hhi : 0xD800 + (c.toNat - 0x10000) / 0x400 < 0x10000 := by omega
      have hlo : 0xDC00 + (c.toNat - 0x10000) % 0x400 < 0x10000 := by omega
      simp only [hkeep, unitEscapes, hsmall, Option.isSome_none, Bool.false_eq_true, or_self, if_false,
        List.append_assoc, pieces_unitEscape hhi, pieces_unitEscape hlo]
      cases pieces cs <;> rfl

theorem ofUnit_toNat (c : Char) : ofUnit c.toNat = c ∧ isHighUnit c.toNat = false := by
  have hvalid := toNat_valid c
  have hhigh : isHighUnit c.toNat = false := by
    simp [isHighUnit]
    omega
  have hlow : isLowUnit c.toNat = false := by
    simp [isLowUnit]
    omega
  simp [ofUnit, hhigh, hlow]

/-- A unit that is not the first of a pair stays alone, whatever follows. -/
theorem joined_cons_unit {n : Nat} (h : isHighUnit n = false) (ps : List Piece) :
    joined (.unit n :: ps) = ofUnit n :: joined ps := by
  cases ps with
  | nil => rfl
  | cons p ps =>
    cases p with
    | char c => rfl
    | unit lo => simp [joined, h]

theorem joined_piecesOf (keep : Char → Bool) (c : Char) (ps : List Piece) :
    joined (piecesOf keep c ++ ps) = c :: joined ps := by
  obtain ⟨hunit, hhigh⟩ := ofUnit_toNat c
  unfold piecesOf
  by_cases hchar : (shortEscape? c).isSome ∨ keep c
  · simp [hchar, joined]
  by_cases hsmall : c.toNat < 0x10000
  · simp [hchar, hsmall, joined_cons_unit hhigh, hunit]
  · have hvalid := toNat_valid c
    have hpair : ofPair (0xD800 + (c.toNat - 0x10000) / 0x400) (0xDC00 + (c.toNat - 0x10000) % 0x400) = c := by
      rw [ofPair, Nat.add_sub_cancel_left, show 0x10000 + (c.toNat - 0x10000) / 0x400 * 0x400 +
        (0xDC00 + (c.toNat - 0x10000) % 0x400 - 0xDC00) = c.toNat by omega, Char.ofNat_toNat]
    have hhi : isHighUnit (0xD800 + (c.toNat - 0x10000) / 0x400) = true := by
      simp [isHighUnit]
      omega
    have hlo : isLowUnit (0xDC00 + (c.toNat - 0x10000) % 0x400) = true := by
      simp [isLowUnit]
      omega
    simp [hchar, hsmall, joined, hhi, hlo, hpair]

/-- **What is written for the characters of a text is read as the text**, whatever the characters are. -/
theorem textBody_escaped {keep : Char → Bool} (hk : KeepsAllowed keep) (cs rest : List Char) :
    textBody (cs.flatMap (escaped keep) ++ '"' :: rest) = .ok (cs, rest) := by
  induction cs with
  | nil => rfl
  | cons c cs ih =>
    obtain ⟨⟨ps, rest'⟩, hp, hj⟩ := map_eq_ok.mp ih
    cases hj
    rw [textBody, List.flatMap_cons, List.append_assoc, pieces_escaped hk, hp]
    simp [Except.map, joined_piecesOf]

theorem writesScalar_text {keep : Char → Bool} (hk : KeepsAllowed keep) (s : String) :
    WritesScalar (textLiteral keep s) (.text s) := by
  refine ⟨⟨'"', _, rfl, rfl, by decide⟩, fun rest _ => ?_⟩
  simp [textLiteral, scalar, textBody_escaped hk, Except.map]

end Json

end DefiActions
