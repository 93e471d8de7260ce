import DefiActions.Proofs.IntegerLemmas
import DefiActions.Proofs.ScalingSound

/-!
# Amounts have one text

An amount is given as an integer of 256 bits or as the text of one, in any
spelling that is read as an integer. It is brought to the numeral of its number,
so that two amounts have one text where they are one number, and the number is
read from the text again.
-/

namespace DefiActions.Uint256

open Amount (FailsWith)
open Text (IsNumeral WritesInt natDigits)

inductive Denotes : Value → Int → Prop
  | int (n : Int) : Denotes (.int n) n
  | text {s : String} {n : Int} (h : WritesInt s.toList n) : Denotes (.text s) n

variable {v w : Value} {t : String} {n : Nat}

/-! ## Reading -/

theorem integer_eq_ok_iff {m : Int} : integer v = .ok m ↔ Denotes v m := by
  constructor
  · intro h
    unfold integer at h
    split at h
    · rw [← Except.ok.inj h]
      exact .int _
    · split at h
      · rename_i s _ hread
        rw [← Except.ok.inj h]
        exact .text (Text.readInt_eq_ok_iff.mp hread)
      · exact absurd h refuse_ne_ok
    · exact absurd h refuse_ne_ok
  · intro h
    cases h with
    | int => rfl
    | text h => rw [integer, Text.readInt_eq_ok_iff.mpr h]

theorem read_eq_ok_iff : read v = .ok n ↔ n < twoPow 256 ∧ Denotes v n := by
  have hbound : bound = twoPow 256 := rfl
  rw [read, bind_eq_ok]
  constructor
  · intro h
    obtain ⟨m, hm, h⟩ := h
    split at h
    · obtain ⟨_, -, h⟩ := bind_eq_ok.mp h
      exact absurd h refuse_ne_ok
    rename_i hneg
    split at h
    · obtain ⟨_, -, h⟩ := bind_eq_ok.mp h
      exact absurd h refuse_ne_ok
    rename_i hlt
    obtain rfl := pure_eq_ok.mp h
    rw [Int.toNat_of_nonneg (Int.not_lt.mp hneg)]
    exact ⟨by omega, integer_eq_ok_iff.mp hm⟩
  · intro h
    obtain ⟨hlt, hv⟩ := h
    refine ⟨n, integer_eq_ok_iff.mpr hv, ?_⟩
    rw [if_neg (by omega), if_neg (by omega)]
    rfl

theorem canonical_eq_map (v : Value) : canonical v = (read v).map fun n => String.ofList (natDigits n) := by
  unfold canonical
  cases read v with
  | error f => rfl
  | ok n => rfl

theorem canonical_eq_ok_iff :
    canonical v = .ok t ↔ ∃ n : Nat, n < twoPow 256 ∧ Denotes v n ∧ IsNumeral t.toList n := by
  simp only [canonical_eq_map, map_eq_ok, read_eq_ok_iff, and_assoc, Text.isNumeral_iff]
  refine exists_congr fun n => and_congr_right fun _ => and_congr_right fun _ => ?_
  rw [← String.toList_inj, String.toList_ofList]
  exact eq_comm

theorem ok_or_failsWith_canonical (v : Value) :
    (∃ t, canonical v = .ok t) ∨ FailsWith (canonical v) "ValueError" := by
  have hrefusing : Refusing (canonical v) := by
    rw [canonical_eq_map]
    exact failsAs_map (refusing_read v)
  cases h : canonical v with
  | ok t => exact .inl ⟨t, rfl⟩
  | error f =>
    obtain ⟨r, rfl⟩ := hrefusing f h
    exact .inr ⟨_, rfl, rfl⟩

/-! ## The one text -/

/-- The numeral of a number in range is read as that number. -/
theorem writesInt_of_isNumeral (ht : IsNumeral t.toList n) (hn : n < twoPow 256) : WritesInt t.toList n := by
  -- numerals of 256 bits are far below the limit
  have hwritable : Text.isWritable n = true := Text.isWritable_of_natAbs_le hn.le
  rw [Text.isNumeral_iff.mp ht]
  exact Text.writesInt_natDigits (Text.isWritable_iff.mp hwritable)

/-- Its text is read as the number of the value, and is its own text. -/
theorem stable_of_canonical (h : canonical v = .ok t) : canonical (.text t) = .ok t ∧
    ∃ n : Nat, Denotes v n ∧ Text.readInt .ten t.toList = .ok (n : Int) := by
  obtain ⟨n, hn, hv, ht⟩ := canonical_eq_ok_iff.mp h
  have hwrites := writesInt_of_isNumeral ht hn
  exact ⟨canonical_eq_ok_iff.mpr ⟨n, hn, .text hwrites, ht⟩, n, hv, Text.readInt_eq_ok_iff.mpr hwrites⟩

theorem exists_isNumeral (n : Nat) : ∃ t : String, IsNumeral t.toList n := by
  refine ⟨String.ofList (natDigits n), ?_⟩
  rw [String.toList_ofList]
  exact Text.isNumeral_natDigits n

/-- The number of a value is what its text is read as. -/
theorem read_eq_ok_iff_canonical :
    read v = .ok n ↔ ∃ t, canonical v = .ok t ∧ Text.readInt .ten t.toList = .ok (n : Int) := by
  simp only [read_eq_ok_iff, canonical_eq_ok_iff, Text.readInt_eq_ok_iff]
  constructor
  · intro h
    obtain ⟨hn, hv⟩ := h
    obtain ⟨t, ht⟩ := exists_isNumeral n
    exact ⟨t, ⟨n, hn, hv, ht⟩, writesInt_of_isNumeral ht hn⟩
  · intro h
    obtain ⟨t, ⟨m, hm, hv, ht⟩, hwrites⟩ := h
    have hmn := (writesInt_of_isNumeral ht hm).unique hwrites
    obtain rfl := Int.ofNat.inj hmn
    exact ⟨hm, hv⟩

theorem same_text_iff : (∃ t, canonical v = .ok t ∧ canonical w = .ok t) ↔
    ∃ n : Nat, n < twoPow 256 ∧ Denotes v n ∧ Denotes w n := by
  simp only [canonical_eq_ok_iff]
  constructor
  · intro h
    obtain ⟨t, ⟨n, hn, hv, ht⟩, ⟨m, -, hw, ht'⟩⟩ := h
    -- the digits of one text are worth one number
    obtain rfl : n = m := ht.value.symm.trans ht'.value
    exact ⟨n, hn, hv, hw⟩
  · intro h
    obtain ⟨n, hn, hv, hw⟩ := h
    obtain ⟨t, ht⟩ := exists_isNumeral n
    exact ⟨t, ⟨n, hn, hv, ht⟩, ⟨n, hn, hw, ht⟩⟩

/-- **An amount has one text.** What is accepted is an integer of 256 bits or the text of one, and it is brought
to the numeral of its number, which is its own text and is read as the number; all else is refused. Two amounts
have the same text where they are the same number. -/
theorem canonical_sound (v w : Value) :
    (∀ t, canonical v = .ok t ↔ ∃ n : Nat, n < twoPow 256 ∧ Denotes v n ∧ IsNumeral t.toList n) ∧
    ((∃ t, canonical v = .ok t) ∨ FailsWith (canonical v) "ValueError") ∧
    (∀ t, canonical v = .ok t → canonical (.text t) = .ok t ∧
      ∃ n : Nat, Denotes v n ∧ Text.readInt .ten t.toList = .ok (n : Int)) ∧
    (∀ n, read v = .ok n ↔ ∃ t, canonical v = .ok t ∧ Text.readInt .ten t.toList = .ok (n : Int)) ∧
    ((∃ t, canonical v = .ok t ∧ canonical w = .ok t) ↔
      ∃ n : Nat, n < twoPow 256 ∧ Denotes v n ∧ Denotes w n) :=
  ⟨fun _ => canonical_eq_ok_iff, ok_or_failsWith_canonical v, fun _ => stable_of_canonical,
    fun _ => read_eq_ok_iff_canonical, same_text_iff⟩

/-- A text with blanks, a sign, an underscore and digits of two scripts, and the integer that it writes. -/
theorem some_canonical_sound : canonical (.text "\u2003+0_٣4\n") = .ok "34" ∧ canonical (.text "34") = .ok "34" ∧
    canonical (.int 34) = .ok "34" ∧ ∃ n : Nat, n < twoPow 256 ∧ Denotes (.text "\u2003+0_٣4\n") n ∧
      Denotes (.int 34) n := by
  have htext : canonical (.text "\u2003+0_٣4\n") = .ok "34" := eq_ok_of_isOk (by decide +kernel)
  have hint : canonical (.int 34) = .ok "34" := eq_ok_of_isOk (by decide +kernel)
  obtain ⟨-, -, hstable, -, hsame⟩ := canonical_sound (.text "\u2003+0_٣4\n") (.int 34)
  exact ⟨htext, (hstable _ htext).1, hint, hsame.mp ⟨_, htext, hint⟩⟩

end DefiActions.Uint256
