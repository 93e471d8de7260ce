import DefiActions.Proofs.AmountSound
import DefiActions.Proofs.BlameLemmas
import DefiActions.Proofs.NumeralLemmas
import Mathlib.Algebra.Order.Floor.Semifield
import Mathlib.Data.Rat.Floor

/-!
# Decimal texts are read exactly

A plain decimal text is digits of any script with at most one point among them,
and a digit. Its number is taken to the places of the token and what is left of
it dropped. What is refused is what is not plain, and what the numeral limit does
not let be read. The text of an amount is plain, so that the amount is read back
from it.
-/

namespace DefiActions.Amount

open Text (isDigit isBlank natDigits numeralLimit)

/-! ## Plain texts -/

/-- Digits with at most one point among them, and a digit: the digits before the point and those behind it. -/
inductive Plain : (text whole fraction : List Char) → Prop
  | integer {ds : List Char} (hd : ∀ c ∈ ds, isDigit c = true) (hne : ds ≠ []) : Plain ds ds []
  | pointed {whole fraction : List Char} (hd : ∀ c ∈ whole ++ fraction, isDigit c = true)
      (hne : whole ++ fraction ≠ []) : Plain (whole ++ '.' :: fraction) whole fraction

variable {text whole fraction : List Char}

theorem Plain.isDigit (h : Plain text whole fraction) : ∀ c ∈ whole ++ fraction, Text.isDigit c = true := by
  cases h with
  | integer hd => rwa [List.append_nil]
  | pointed hd => exact hd

theorem Plain.isBlank (h : Plain text whole fraction) : ∀ c ∈ text, Text.isBlank c = false := by
  have hdigits := h.isDigit
  cases h with
  | integer => exact fun c hc => Text.isBlank_of_isDigit (hdigits c (List.mem_append_left _ hc))
  | pointed =>
    rw [List.forall_mem_append] at hdigits
    rw [List.forall_mem_append, List.forall_mem_cons]
    exact ⟨fun c hc => Text.isBlank_of_isDigit (hdigits.1 c hc), by decide,
      fun c hc => Text.isBlank_of_isDigit (hdigits.2 c hc)⟩

theorem parts?_of_plain (h : Plain text whole fraction) : parts? text = some (whole, fraction) := by
  unfold parts?
  cases h with
  | integer hd hne => simp only [List.takeWhile_eq_self_iff.mpr hd, List.dropWhile_eq_nil_iff.mpr hd, if_neg hne]
  | pointed hd hne =>
    have hpoint : ¬ Text.isDigit '.' = true := by decide
    rw [List.forall_mem_append] at hd
    rw [Ne, List.append_eq_nil_iff] at hne
    have hwhole : (whole ++ '.' :: fraction).takeWhile Text.isDigit = whole := by
      rw [List.takeWhile_append_of_pos hd.1, List.takeWhile_cons_of_neg hpoint, List.append_nil]
    have hrest : (whole ++ '.' :: fraction).dropWhile Text.isDigit = '.' :: fraction := by
      rw [List.dropWhile_append_of_pos hd.1, List.dropWhile_cons_of_neg hpoint]
    simp only [hwhole, hrest]
    exact if_pos ⟨List.all_eq_true.mpr hd.2, hne⟩

theorem plain_of_parts? (h : parts? text = some (whole, fraction)) : Plain text whole fraction := by
  have hsplit := List.takeWhile_append_dropWhile (p := Text.isDigit) (l := text)
  have hdigits : ∀ c ∈ text.takeWhile Text.isDigit, Text.isDigit c = true := fun c hc => List.mem_takeWhile_imp hc
  unfold parts? at h
  dsimp only at h
  generalize text.takeWhile Text.isDigit = ds at *
  split at h
  · rename_i hrest
    split at h
    · cases h
    · rename_i hne
      obtain ⟨rfl, rfl⟩ := Prod.mk.inj (Option.some.inj h)
      rw [hrest, List.append_nil] at hsplit
      rw [← hsplit]
      exact .integer hdigits hne
  · rename_i hrest
    split at h
    · rename_i hall
      obtain ⟨rfl, rfl⟩ := Prod.mk.inj (Option.some.inj h)
      rw [← hsplit, hrest]
      refine .pointed (List.forall_mem_append.mpr ⟨hdigits, List.all_eq_true.mp hall.1⟩) ?_
      rw [Ne, List.append_eq_nil_iff]
      exact hall.2
    · cases h
  · cases h

def Writes (s : String) (whole fraction : List Char) : Prop :=
  ∃ before text after, s.toList = before ++ text ++ after ∧ (∀ c ∈ before ++ after, isBlank c = true) ∧
    Plain text whole fraction

theorem Writes.isDigit {s : String} (h : Writes s whole fraction) :
    ∀ c ∈ whole ++ fraction, Text.isDigit c = true := by
  obtain ⟨_, _, _, -, -, hplain⟩ := h
  exact hplain.isDigit

theorem writes_iff {s : String} : Writes s whole fraction ↔ parts? (Text.trim s) = some (whole, fraction) := by
  constructor
  · rintro ⟨before, text, after, hs, hblank, hplain⟩
    rw [Text.trim, hs, Text.trimBy_append hplain.isBlank hblank]
    exact parts?_of_plain hplain
  · intro h
    obtain ⟨before, after, hs, hblank⟩ := Text.exists_trimBy isBlank s.toList
    exact ⟨before, _, after, hs, hblank, plain_of_parts? h⟩

/-! ## Their numbers -/

def rational (whole fraction : List Char) : ℚ :=
  Text.ofDigits 10 (digitValues (whole ++ fraction)) / 10 ^ fraction.length

theorem digitValues_append (xs ys : List Char) : digitValues (xs ++ ys) = digitValues xs ++ digitValues ys :=
  List.filterMap_append

theorem digitValues_eq_map {cs : List Char} (h : ∀ c ∈ cs, Text.isDigit c = true) :
    digitValues cs = cs.map fun c => (Text.digitValue? c).getD 0 := by
  rw [digitValues, ← List.filterMap_eq_map]
  refine List.filterMap_congr fun c hc => ?_
  obtain ⟨d, hd⟩ := Option.isSome_iff_exists.mp (h c hc)
  rw [Function.comp_apply, hd, Option.getD_some]

theorem digitValues_lt {cs : List Char} : ∀ d ∈ digitValues cs, d < 10 := by
  intro d hd
  obtain ⟨c, -, hc⟩ := List.mem_filterMap.mp hd
  exact Text.digitValue?_lt hc

/-- The digits that are read are those of the number with the fraction fitted to the places. -/
theorem ofDigits_scaledDigits (h : ∀ c ∈ whole ++ fraction, Text.isDigit c = true) (places : Nat) :
    Text.ofDigits 10 (scaledDigits whole fraction places) = ⌊rational whole fraction * 10 ^ places⌋₊ := by
  obtain ⟨-, hfraction⟩ := List.forall_mem_append.mp h
  have hmap := digitValues_eq_map hfraction
  have hlength : (digitValues fraction).length = fraction.length := by rw [hmap, List.length_map]
  have hkept : digitValues (fraction.take places) = (digitValues fraction).take places := by
    rw [hmap, digitValues_eq_map fun c hc => hfraction c (List.mem_of_mem_take hc), List.map_take]
  -- The zero that stands for missing whole digits counts for nothing.
  have hwhole : Text.ofDigits 10 (scaledDigits whole fraction places) =
      Text.ofDigits 10 (digitValues whole ++ Text.fitted places (digitValues fraction)) := by
    rw [scaledDigits, hkept, List.append_assoc, ← Text.fitted]
    split
    · rename_i hnil
      rw [hnil]
      rfl
    · rfl
  -- Natural division is the floor of the rational quotient.
  rw [hwhole, Text.ofDigits_fitted digitValues_lt, ← digitValues_append, hlength, rational, div_mul_eq_mul_div,
    ← Nat.floor_div_eq_div (K := ℚ)]
  push_cast
  rfl

/-! ## Reading -/

def FailsWith {α : Type} (x : Except Failure α) (label : String) : Prop := ∃ f, x = .error f ∧ f.label = label

section

variable {α : Type} {label : String}

theorem failsWith_refuse {r : Rejection} : FailsWith (refuse r : Except Failure α) label ↔
    label = "ValueError" := by
  constructor
  · rintro ⟨f, hf, rfl⟩
    rw [← Except.error.inj hf, Failure.label_ofRejection]
  · rintro rfl
    exact ⟨_, rfl, Failure.label_ofRejection r⟩

theorem failsWith_tooLarge :
    FailsWith (throw .tooLarge : Except Failure α) label ↔ label = "OverflowError" := by
  constructor
  · rintro ⟨f, hf, rfl⟩
    rw [← Except.error.inj hf, Failure.label]
  · rintro rfl
    exact ⟨_, rfl, rfl⟩

theorem not_failsWith_ok {a : α} : ¬ FailsWith (.ok a : Except Failure α) label := by
  rintro ⟨f, hf, -⟩
  cases hf

theorem FailsWith.unique {x : Except Failure α} {label' : String} (h : FailsWith x label)
    (h' : FailsWith x label') :
    label = label' := by
  obtain ⟨f, hf, rfl⟩ := h
  obtain ⟨f', hf', rfl⟩ := h'
  rw [Except.error.inj (hf.symm.trans hf')]

end

/-- How many digits the numeral has that an amount is read from. -/
def readSize (whole : List Char) (places : Nat) : Nat := max whole.length 1 + places

inductive Reading (s : String) (places : Nat) : Prop
  | number {whole fraction : List Char} (hw : Writes s whole fraction)
    (hsize : readSize whole places ≤ numeralLimit)
      (h : parse s places = .ok ⌊rational whole fraction * 10 ^ places⌋₊)
  | long {whole fraction : List Char} (hw : Writes s whole fraction) (hsize : numeralLimit < readSize whole places)
      (hp : places < widthBound) (h : parse s places = refuse (.numeralTooLong (some (readSize whole places))))
  | wide {whole fraction : List Char} (hw : Writes s whole fraction) (hp : widthBound ≤ places)
      (h : parse s places = throw .tooLarge)
  | other (hw : ∀ whole fraction, ¬ Writes s whole fraction) (h : parse s places = refuse (.notDecimal s))

variable {s : String} {places : Nat}

theorem parse_of_writes (h : Writes s whole fraction) :
    parse s places = if widthBound ≤ places then throw .tooLarge
      else if numeralLimit < readSize whole places then refuse (.numeralTooLong (some (readSize whole places)))
      else .ok ⌊rational whole fraction * 10 ^ places⌋₊ := by
  have hdigits := h.isDigit
  rw [← ofDigits_scaledDigits hdigits, parse, if_neg (by omega), writes_iff.mp h]
  rfl

theorem parse_of_not_writes (h : ∀ whole fraction, ¬ Writes s whole fraction) :
    parse s places = refuse (.notDecimal s) := by
  have hnone : parts? (Text.trim s) = none := by
    rw [Option.eq_none_iff_forall_ne_some]
    exact fun p hp => h p.1 p.2 (writes_iff.mpr hp)
  rw [parse, if_neg (by omega), hnone]

theorem widthBound_eq : widthBound = (9223372036854775808 : Nat) := rfl

/-- The numeral limit keeps the number of decimals small. -/
theorem lt_widthBound_of_le (h : readSize whole places ≤ numeralLimit) : (places : Int) < widthBound := by
  have hlimit : (numeralLimit : Int) < widthBound := by decide
  unfold readSize at h
  omega

theorem parse_of_le (hw : Writes s whole fraction) (h : readSize whole places ≤ numeralLimit) :
    parse s places = .ok ⌊rational whole fraction * 10 ^ places⌋₊ := by
  rw [parse_of_writes hw, if_neg (lt_widthBound_of_le h).not_ge, if_neg h.not_gt]

theorem parse_of_long (hw : Writes s whole fraction) (h : numeralLimit < readSize whole places)
    (hp : places < widthBound) : parse s places = refuse (.numeralTooLong (some (readSize whole places))) := by
  rw [parse_of_writes hw, if_neg hp.not_ge, if_pos h]

theorem parse_of_wide (hw : Writes s whole fraction) (hp : widthBound ≤ places) :
    parse s places = throw .tooLarge := by
  rw [parse_of_writes hw, if_pos hp]

theorem reading (s : String) (places : Nat) : Reading s places := by
  by_cases hs : ∃ whole fraction, Writes s whole fraction
  · obtain ⟨whole, fraction, hw⟩ := hs
    by_cases hp : widthBound ≤ places
    · exact .wide hw hp (parse_of_wide hw hp)
    by_cases hsize : numeralLimit < readSize whole places
    · exact .long hw hsize (Int.not_le.mp hp) (parse_of_long hw hsize (Int.not_le.mp hp))
    · exact .number hw (Nat.not_lt.mp hsize) (parse_of_le hw (Nat.not_lt.mp hsize))
  · have hnone : ∀ whole fraction, ¬ Writes s whole fraction := fun whole fraction hw => hs ⟨whole, fraction, hw⟩
    exact .other hnone (parse_of_not_writes hnone)

theorem parse_eq_ok_iff {n : Nat} : parse s places = .ok n ↔
    ∃ whole fraction, Writes s whole fraction ∧ readSize whole places ≤ numeralLimit ∧
      n = ⌊rational whole fraction * 10 ^ places⌋₊ := by
  constructor
  · intro h
    cases reading s places with
    | number hw hsize hnumber => exact ⟨_, _, hw, hsize, Except.ok.inj (h.symm.trans hnumber)⟩
    | long hw hsize hp hlong => exact absurd (hlong.symm.trans h) refuse_ne_ok
    | wide hw hp hwide => exact absurd (hwide.symm.trans h) throw_ne_ok
    | other hw hother => exact absurd (hother.symm.trans h) refuse_ne_ok
  · rintro ⟨whole, fraction, hw, hsize, rfl⟩
    exact parse_of_le hw hsize

theorem parse_tooLarge_iff : FailsWith (parse s places) "OverflowError" ↔
    ∃ whole fraction, Writes s whole fraction ∧ widthBound ≤ places := by
  constructor
  · intro h
    cases reading s places with
    | number hw hsize hnumber => exact absurd (hnumber ▸ h) not_failsWith_ok
    | long hw hsize hp hlong => exact absurd (failsWith_refuse.mp (hlong ▸ h)) (by decide)
    | wide hw hp hwide => exact ⟨_, _, hw, hp⟩
    | other hw hother => exact absurd (failsWith_refuse.mp (hother ▸ h)) (by decide)
  · rintro ⟨whole, fraction, hw, hp⟩
    rw [parse_of_wide hw hp]
    exact failsWith_tooLarge.mpr rfl

theorem parse_refused_iff : FailsWith (parse s places) "ValueError" ↔
    (∀ whole fraction, ¬ Writes s whole fraction) ∨
      ∃ whole fraction, Writes s whole fraction ∧ numeralLimit < readSize whole places ∧ places < widthBound := by
  constructor
  · intro h
    cases reading s places with
    | number hw hsize hnumber => exact absurd (hnumber ▸ h) not_failsWith_ok
    | long hw hsize hp => exact .inr ⟨_, _, hw, hsize, hp⟩
    | wide hw hp hwide => exact absurd (failsWith_tooLarge.mp (hwide ▸ h)) (by decide)
    | other hw => exact .inl hw
  · rintro (hnone | ⟨whole, fraction, hw, hsize, hp⟩)
    · rw [parse_of_not_writes hnone]
      exact failsWith_refuse.mpr rfl
    · rw [parse_of_long hw hsize hp]
      exact failsWith_refuse.mpr rfl

/-- **Decimal texts are read exactly.** A plain text is read as its number taken to the places, rounded down, if the
numeral limit lets it be; what is not plain is refused. -/
theorem parse_sound (s : String) (places : Nat) :
    (∀ n, parse s places = .ok n ↔
      ∃ whole fraction, Writes s whole fraction ∧ readSize whole places ≤ numeralLimit ∧
      n = ⌊rational whole fraction * 10 ^ places⌋₊) ∧
    (FailsWith (parse s places) "OverflowError" ↔
      ∃ whole fraction, Writes s whole fraction ∧ widthBound ≤ places) ∧
    (FailsWith (parse s places) "ValueError" ↔
      (∀ whole fraction, ¬ Writes s whole fraction) ∨
        ∃ whole fraction, Writes s whole fraction ∧ numeralLimit < readSize whole places ∧ places < widthBound) :=
  ⟨fun _ => parse_eq_ok_iff, parse_tooLarge_iff, parse_refused_iff⟩

/-- Digits of two scripts between blanks, cut to one place. -/
example : isOk (parse " ١.٥9\n" 1) 15 = true := by decide +kernel

/-- A number of decimals that is too large for a field of
digits is not refused, though its numeral is past the limit. -/
theorem parse_past_width : Writes "1" ['1'] [] ∧ numeralLimit < readSize ['1'] 9223372036854775808 ∧
    FailsWith (parse "1" (9223372036854775808 : Nat)) "OverflowError" ∧
    ¬ FailsWith (parse "1" (9223372036854775808 : Nat)) "ValueError" := by
  have hw : Writes "1" ['1'] [] := ⟨[], ['1'], [], rfl, nofun, .integer (List.forall_mem_singleton.mpr rfl) nofun⟩
  have hoverflow : FailsWith (parse "1" (9223372036854775808 : Nat)) "OverflowError" := by
    rw [parse_of_wide hw widthBound_eq.le]
    exact failsWith_tooLarge.mpr rfl
  exact ⟨hw, by decide, hoverflow, fun h => absurd (h.unique hoverflow) (by decide)⟩

/-! ## Reading back -/

variable {raw : Int}

theorem length_pointed {ds : List Char} (hds : ds ≠ []) (places : Nat) :
    (pointed ds places).length = max ds.length (places + 1) + if places = 0 then 0 else 1 := by
  have hpos := List.length_pos_iff.mpr hds
  unfold pointed
  split
  · omega
  split
  · simp only [List.length_append, List.length_cons, List.length_replicate]
    omega
  · simp only [List.length_append, List.length_cons, List.length_take, List.length_drop]
    omega

namespace Numeral

theorem length_whole {n : Numeral places} {ds : List Char} (hds : ds ≠ []) (h : n.chars = pointed ds places) :
    n.whole.length + places = max ds.length (places + 1) := by
  have hlength := congrArg List.length h
  rw [length_pointed hds, chars, List.length_append] at hlength
  split at hlength
  · rw [List.length_nil] at hlength
    omega
  · rw [List.length_cons, n.length_fraction] at hlength
    omega

theorem writes (n : Numeral places) : Writes (String.ofList n.chars) n.whole n.fraction := by
  have hdigits : ∀ c ∈ n.whole ++ n.fraction, Text.isDigit c = true := fun c hc =>
    Option.isSome_iff_exists.mpr ⟨_, Text.digitValue?_of_ascii (n.isDigit c hc)⟩
  refine ⟨[], n.chars, [], by rw [String.toList_ofList, List.nil_append, List.append_nil], nofun, ?_⟩
  rw [chars]
  split
  · rename_i hplaces
    have hnil : n.fraction = [] := List.length_eq_zero_iff.mp (n.length_fraction.trans hplaces)
    rw [hnil, List.append_nil] at hdigits ⊢
    exact .integer hdigits n.whole_ne_nil
  · exact .pointed hdigits (List.append_ne_nil_of_left_ne_nil n.whole_ne_nil _)

theorem rational_eq (n : Numeral places) : rational n.whole n.fraction = n.value := by
  have hvalues : digitValues (n.whole ++ n.fraction) = (n.whole ++ n.fraction).map (·.toNat - 48) := by
    rw [digitValues, ← List.filterMap_eq_map]
    exact List.filterMap_congr fun c hc => Text.digitValue?_of_ascii (n.isDigit c hc)
  rw [rational, hvalues, Text.ofDigits_ascii, n.length_fraction, value]

theorem readSize_eq (n : Numeral places) : readSize n.whole places = n.whole.length + places := by
  have := List.length_pos_iff.mpr n.whole_ne_nil
  unfold readSize
  omega

end Numeral

def writtenSize (raw : Int) (places : Nat) : Nat := max (natDigits raw.natAbs).length (places + 1)

/-- The sign is put in front of a numeral, from which nothing but the sign can be taken off again. -/
theorem unsigned_eq (raw : Int) (n : Numeral places) : (sign raw ++ n.chars).dropWhile (· = '-') = n.chars := by
  have hsign : ∀ c ∈ sign raw, decide (c = '-') = true := by
    unfold sign
    split
    · exact fun c hc => decide_eq_true (List.mem_singleton.mp hc)
    · nofun
  obtain ⟨c, cs, hwhole⟩ := List.exists_cons_of_ne_nil n.whole_ne_nil
  have hdigit : c.isDigit = true := n.isDigit c (by rw [hwhole]; simp)
  have hc : ¬ decide (c = '-') = true := by
    rw [decide_eq_true_eq]
    rintro rfl
    exact absurd hdigit (by decide)
  rw [List.dropWhile_append_of_pos hsign, Numeral.chars, hwhole, List.cons_append]
  exact List.dropWhile_cons_of_neg hc

/-- What is read from the text of an amount, its sign left out. -/
def readBack (raw : Int) (places : Nat) : Except Failure Nat := do
  let text ← formatSigned raw places
  parse (String.ofList (text.toList.dropWhile (· = '-'))) places

theorem readBack_of_formatSigned {n : Numeral places}
    (h : formatSigned raw places = .ok (String.ofList (sign raw ++ n.chars))) :
    readBack raw places = parse (String.ofList n.chars) places := by
  rw [readBack, h, ok_bind, String.toList_ofList, unsigned_eq]

theorem formatSigned_of_not_writable (hw : ¬ Text.isWritable raw = true) :
    formatSigned raw places = refuse (.numeralTooLong none) := by
  rw [← Text.isWritable_natAbs, Bool.not_eq_true] at hw
  rw [formatSigned_eq_map, format, if_neg (by omega), if_neg (by omega), hw, if_pos (by decide)]
  rfl

theorem formatSigned_of_wide (hw : Text.isWritable raw = true) (hp : widthBound ≤ places) :
    formatSigned raw places = throw .tooLarge := by
  have hlimit : (numeralLimit : Int) < widthBound := by decide
  have hdigits : (Text.intDigits raw.natAbs).length ≤ numeralLimit := Text.isWritable_iff.mp hw
  rw [← Text.isWritable_natAbs] at hw
  rw [formatSigned_eq_map, format, if_neg (by omega), if_neg (by omega), hw, if_neg (by decide),
    if_pos ⟨hp, by omega⟩]
  rfl

theorem exists_written (hw : Text.isWritable raw = true) (hp : (places : Int) < widthBound) :
    ∃ n : Numeral places, formatSigned raw places = .ok (String.ofList (sign raw ++ n.chars)) ∧
      n.value = |(raw : ℚ)| / 10 ^ places ∧ readSize n.whole places = writtenSize raw places := by
  obtain ⟨n, hchars, hvalue⟩ := exists_numeral raw.natAbs places
  refine ⟨n, ?_, ?_, ?_⟩
  · rw [formatSigned_of_writable hw hp, hchars]
  · rw [hvalue, Nat.cast_natAbs, Int.cast_abs]
  · rw [n.readSize_eq, n.length_whole (Text.natDigits_ne_nil _) hchars, writtenSize]

theorem parse_numeral {n : Numeral places} (hvalue : n.value = |(raw : ℚ)| / 10 ^ places)
    (hsize : readSize n.whole places ≤ numeralLimit) : parse (String.ofList n.chars) places = .ok raw.natAbs := by
  have hpos : (0 : ℚ) < 10 ^ places := by positivity
  rw [parse_of_le n.writes hsize, n.rational_eq, hvalue, div_mul_cancel₀ _ hpos.ne', ← Int.cast_abs,
    ← Nat.cast_natAbs, Nat.floor_natCast]

/-- How reading back fails: a field of digits may only be
too large for an amount whose own digits keep the limit. -/
theorem readBack_fails (h : numeralLimit < writtenSize raw places) : FailsWith (readBack raw places)
    (if widthBound ≤ places ∧ (natDigits raw.natAbs).length ≤ numeralLimit then "OverflowError"
      else "ValueError") := by
  by_cases hw : Text.isWritable raw = true
  · by_cases hp : widthBound ≤ places
    · rw [if_pos ⟨hp, Text.isWritable_iff.mp hw⟩, readBack, formatSigned_of_wide hw hp, throw_bind]
      exact failsWith_tooLarge.mpr rfl
    · obtain ⟨n, hformat, -, hsize⟩ := exists_written hw (Int.not_le.mp hp)
      rw [if_neg fun hwide => hp hwide.1, readBack_of_formatSigned hformat,
        parse_of_long n.writes (hsize ▸ h) (Int.not_le.mp hp)]
      exact failsWith_refuse.mpr rfl
  · rw [if_neg fun hwide => hw (Text.isWritable_iff.mpr hwide.2), readBack, formatSigned_of_not_writable hw]
    exact failsWith_refuse.mpr rfl

/-- **An amount is read back from its text.** The text is its sign and the
numeral of its magnitude, and the magnitude is read from that. Where the numeral
passes the numeral limit, the text is either not written or not read. -/
theorem scaling_round_trip (raw : Int) (places : Nat) :
    (writtenSize raw places ≤ numeralLimit → ∃ n : Numeral places,
      formatSigned raw places = .ok (String.ofList (sign raw ++ n.chars)) ∧ n.value = |(raw : ℚ)| / 10 ^ places ∧
        parse (String.ofList n.chars) places = .ok raw.natAbs) ∧
    (numeralLimit < writtenSize raw places → FailsWith (readBack raw places)
      (if widthBound ≤ places ∧ (natDigits raw.natAbs).length ≤ numeralLimit then "OverflowError"
        else "ValueError")) := by
  refine ⟨fun h => ?_, readBack_fails⟩
  have hw : Text.isWritable raw = true := Text.isWritable_iff.mpr (Nat.le_trans (Nat.le_max_left _ _) h)
  have hp : (places : Int) < widthBound := by
    have hlimit : (numeralLimit : Int) < widthBound := by decide
    unfold writtenSize at h
    omega
  obtain ⟨n, hformat, hvalue, hsize⟩ := exists_written hw hp
  exact ⟨n, hformat, hvalue, parse_numeral hvalue (hsize.trans_le h)⟩

/-- A negative amount with zeros filled in, and one whose numeral has a digit too many. -/
theorem some_scaling_round_trip : writtenSize (-5) 2 ≤ numeralLimit ∧ formatSigned (-5) 2 = .ok "-0.05" ∧
    parse "0.05" 2 = .ok 5 ∧ numeralLimit < writtenSize 5 4300 ∧ FailsWith (readBack 5 4300) "ValueError" := by
  have hsize : writtenSize (-5) 2 ≤ numeralLimit := by decide
  have hsize' : numeralLimit < writtenSize 5 4300 := by decide
  have hformat : formatSigned (-5) 2 = .ok "-0.05" := eq_ok_of_isOk (by decide +kernel)
  obtain ⟨n, hn, -, hparse⟩ := (scaling_round_trip (-5) 2).1 hsize
  have hfails := (scaling_round_trip 5 4300).2 hsize'
  rw [if_neg (by decide)] at hfails
  have htext := congrArg String.toList (Except.ok.inj (hformat.symm.trans hn))
  rw [@String.toList_ofList (sign (-5) ++ n.chars)] at htext
  have hchars : n.chars = ['0', '.', '0', '5'] := (List.cons.inj htext).2.symm
  rw [hchars] at hparse
  exact ⟨hsize, hformat, hparse, hsize', hfails⟩

/-- Nor is an amount refused that is to be written with so many decimals. -/
theorem readBack_past_width : numeralLimit < writtenSize 5 9223372036854775808 ∧
    FailsWith (readBack 5 9223372036854775808) "OverflowError" ∧
    ¬ FailsWith (readBack 5 9223372036854775808) "ValueError" := by
  have hwritable : Text.isWritable 5 = true := Text.isWritable_iff.mpr (by decide)
  have hwide : formatSigned 5 (9223372036854775808 : Nat) = throw .tooLarge :=
    formatSigned_of_wide hwritable widthBound_eq.le
  have hoverflow : FailsWith (readBack 5 9223372036854775808) "OverflowError" := by
    rw [readBack, hwide, throw_bind]
    exact failsWith_tooLarge.mpr rfl
  exact ⟨by decide, hoverflow, fun h => absurd (h.unique hoverflow) (by decide)⟩

end DefiActions.Amount
