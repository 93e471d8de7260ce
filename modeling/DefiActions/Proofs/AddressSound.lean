import DefiActions.Address
import DefiActions.Proofs.IntegerLemmas

/-!
# Addresses as octets

The normal form of a text is its own normal form. A text denotes 20 octets
exactly when its normal form is their literal, so that all spellings of an
address have one normal form.
-/

namespace DefiActions

/-! ## Base 16 numerals -/

namespace Text

theorem gap_of_ascii : ∀ n < 128, Hex.isGap (Char.ofNat n) = true →
    isSpace (Char.ofNat n) = true ∧ Char.ofNat n ≠ '_' ∧ Base.sixteen.digitValue? (Char.ofNat n) = none := by decide

/-- The blanks between octets are blanks around numerals. -/
theorem isSpace_of_isGap {c : Char} (h : Hex.isGap c = true) :
    isSpace c = true ∧ c ≠ '_' ∧ Base.sixteen.digitValue? c = none := by
  obtain ⟨n, hn, rfl⟩ := exists_of_ascii (Hex.toNat_of_isGap h)
  exact gap_of_ascii n hn h

theorem dropBaseMark_sixteen (cs : List Char) :
    dropBaseMark .sixteen ('0' :: 'x' :: cs) = cs ∨ cs = '_' :: dropBaseMark .sixteen ('0' :: 'x' :: cs) := by
  have hz : digitValue? '0' = some 0 := by decide
  simp only [dropBaseMark, hz, true_or, and_self, ite_true]
  split
  · exact Or.inr rfl
  · exact Or.inl rfl

theorem readInt_marked {cs : List Char} {n : Int} : readInt .sixteen ('0' :: 'x' :: cs) = .ok n ↔
    ∃ m : Nat, readNat .sixteen (dropBaseMark .sixteen ('0' :: 'x' :: cs)) = .ok m ∧ (m : Int) = n := by
  have hsplit : splitSign (('0' :: 'x' :: cs).dropWhile isSpace) = (false, '0' :: 'x' :: cs) := by
    rw [List.dropWhile_cons_of_neg (by decide)]
    rfl
  exact readInt_of_splitSign hsplit

end Text

namespace Address

open Text (IsLow)

/-! ## Normal forms -/

theorem hasMark_iff {cs : List Char} : hasMark cs = true ↔ ∃ ds, cs = '0' :: 'x' :: ds := by
  constructor
  · intro h
    unfold hasMark at h
    split at h
    · exact ⟨_, rfl⟩
    · cases h
  · rintro ⟨ds, rfl⟩
    rfl

/-- A normal form has a mark, and no letter of it has a lowercase form other than itself. -/
theorem normalChars_eq (cs : List Char) : ∃ ds, normalChars cs = '0' :: 'x' :: ds ∧ ∀ c ∈ ds, IsLow c := by
  unfold normalChars
  by_cases h : hasMark (Text.lower cs) = true
  · obtain ⟨ds, hds⟩ := hasMark_iff.mp h
    refine ⟨ds, by simp [hds, hasMark], fun c hc => @Text.isLow_lower cs c ?_⟩
    rw [hds]
    simp [hc]
  · exact ⟨Text.lower cs, by simp [h], fun c hc => Text.isLow_lower hc⟩

theorem normalChars_of_isLow {ds : List Char} (h : ∀ c ∈ ds, IsLow c) :
    normalChars ('0' :: 'x' :: ds) = '0' :: 'x' :: ds := by
  have hl : Text.lower ('0' :: 'x' :: ds) = '0' :: 'x' :: ds := by
    apply Text.lower_of_isLow
    intro c hc
    simp only [List.mem_cons] at hc
    rcases hc with rfl | rfl | hc
    · decide
    · decide
    · exact h c hc
  simp only [normalChars, hl, hasMark, ite_true]

theorem toList_normalize (s : String) : (normalize s).toList = normalChars s.toList := by simp [normalize]

/-- **The normal form of a normal form is the form itself.** -/
@[simp] theorem normalize_normalize (s : String) : normalize (normalize s) = normalize s := by
  obtain ⟨ds, hds, hlow⟩ := normalChars_eq s.toList
  unfold normalize
  rw [String.toList_ofList, hds, normalChars_of_isLow hlow]

@[simp] theorem normalize_literal (bs : Bytes) : normalize (Hex.literal bs) = Hex.literal bs := by
  apply String.toList_injective
  rw [toList_normalize, Hex.toList_literal, normalChars_of_isLow fun c => Text.isLow_ofBytes]

/-! ## Validity -/

theorem isValidChars_of_padded {ds ws : List Char} (hne : ds ≠ []) (hl : ds.length + ws.length = 40)
    (hd : ∀ c ∈ ds, Hex.isDigit c = true) (hw : ∀ c ∈ ws, Hex.isGap c = true) :
    isValidChars ('0' :: 'x' :: (ds ++ ws)) = true := by
  have hdigit : ∀ c ∈ ds, (Text.Base.sixteen.digitValue? c).isSome := by
    intro c hc
    rw [Text.Base.digitValue?, Option.isSome_or, ← Hex.isDigit, hd c hc, Bool.or_true]
  have hlimit : Text.Base.sixteen = .ten → ds.length ≤ Text.numeralLimit := by
    intro h
    cases h
  obtain ⟨vs, hdigits⟩ := Text.exists_digits hne hdigit hlimit
  have hdrop : Text.dropBaseMark .sixteen ('0' :: 'x' :: (ds ++ ws)) = ds ++ ws := by
    refine (Text.dropBaseMark_sixteen (ds ++ ws)).resolve_right fun he => hdigits.first ?_
    rw [← List.head?_append_of_ne_nil ds hne, he, List.head?_cons]
  have hnat := Text.readNat_of_digits hdigits fun c hc => (Text.isSpace_of_isGap (hw c hc)).1
  have hint := Text.readInt_marked.mpr ⟨_, hdrop ▸ hnat, rfl⟩
  simp only [isValidChars, hasMark, hint, List.length_cons, List.length_append, hl, length]
  rfl

theorem isValidChars_of_digits {ds : List Char} (hl : ds.length = 40) (hd : ∀ c ∈ ds, Hex.isDigit c = true) :
    isValidChars ('0' :: 'x' :: ds) = true := by
  have hne : ds ≠ [] := by
    rintro rfl
    cases hl
  rw [← List.append_nil ds]
  exact isValidChars_of_padded hne hl hd nofun

theorem zero_eq_literal : zero = Hex.literal (Bytes.zeros 20) := by decide

theorem isValid_literal {bs : Bytes} (h : bs.length = 20) : isValid (Hex.literal bs) = true := by
  unfold isValid
  rw [Hex.toList_literal]
  refine isValidChars_of_digits (by simp [h]) fun c hc => ?_
  obtain ⟨n, hn, rfl⟩ := Hex.mem_ofBytes hc
  simp [Hex.isDigit, Hex.digitValue?_digit n hn]

theorem length_of_isValid {s : String} (h : isValid s = true) : s.toList.length = length := by
  simp only [isValid, isValidChars, Bool.and_eq_true, beq_iff_eq] at h
  exact h.1.2

theorem normalizeValid_eq_ok {s n : String} :
    normalizeValid s = .ok n ↔ n = normalize s ∧ isValid (normalize s) = true := by
  unfold normalizeValid
  by_cases h : isValid (normalize s) = true
  · simp [h, eq_comm]
  · simp [h, refuse, throw, throwThe, MonadExceptOf.throw]

/-! ## Octets -/

theorem ofDigits_eq_ok {cs : List Char} {bs : Bytes} : Blob.ofDigits cs = .ok bs ↔ Hex.toBytes? cs = .ok bs := by
  unfold Blob.ofDigits
  constructor
  · intro h
    split at h
    · rename_i hp
      rw [hp]
      exact congrArg Except.ok (Except.ok.inj h)
    · cases h
  · intro h
    rw [h]

theorem toBytes_eq_ok {s : String} {bs : Bytes} :
    toBytes s = .ok bs ↔ isValid (normalize s) = true ∧ Hex.toBytes? ((normalize s).toList.drop 2) = .ok bs := by
  unfold toBytes
  rw [bind_eq_ok]
  constructor
  · rintro ⟨n, hn, h⟩
    obtain ⟨rfl, hok⟩ := normalizeValid_eq_ok.mp hn
    exact ⟨hok, ofDigits_eq_ok.mp h⟩
  · rintro ⟨hv, hb⟩
    exact ⟨_, normalizeValid_eq_ok.mpr ⟨rfl, hv⟩, ofDigits_eq_ok.mpr hb⟩

@[simp] theorem toBytes_literal {bs : Bytes} (h : bs.length = 20) : toBytes (Hex.literal bs) = .ok bs := by
  rw [toBytes_eq_ok, normalize_literal, Hex.toList_literal]
  exact ⟨isValid_literal h, Hex.toBytes?_ofBytes bs⟩

/-- **A text denotes 20 octets exactly when its normal form is their literal.** -/
theorem toBytes_iff {s : String} {bs : Bytes} (hl : bs.length = 20) :
    toBytes s = .ok bs ↔ normalize s = Hex.literal bs := by
  constructor
  · intro h
    obtain ⟨hv, hb⟩ := toBytes_eq_ok.mp h
    have hlen := length_of_isValid hv
    obtain ⟨ds, hds, hlow⟩ := normalChars_eq s.toList
    rw [toList_normalize, hds] at hb hlen
    have hd : ds = Hex.ofBytes bs :=
      Hex.eq_ofBytes (Hex.pairs_of_toBytes? hb) (by simp [length] at hlen; omega)
        fun c hc => Text.not_capital_of_isLow (hlow c hc)
    apply String.toList_injective
    rw [toList_normalize, hds, hd, Hex.toList_literal]
  · intro h
    rw [toBytes_eq_ok, h, Hex.toList_literal]
    exact ⟨isValid_literal hl, Hex.toBytes?_ofBytes bs⟩

theorem toBytes_normalize {s : String} {bs : Bytes} : toBytes (normalize s) = .ok bs ↔ toBytes s = .ok bs := by
  rw [toBytes_eq_ok, toBytes_eq_ok, normalize_normalize]

/-! ## Digits -/

def IsHex (s : String) : Prop := ∀ c ∈ s.toList.drop 2, Hex.isDigit c = true

instance (s : String) : Decidable (IsHex s) :=
  decidable_of_iff ((s.toList.drop 2).all Hex.isDigit = true) List.all_eq_true

/-- **A valid text in normal form denotes 20 octets exactly when it has no characters but digits.** -/
theorem exists_literal_iff {s : String} (hn : normalize s = s) (hv : isValid s = true) :
    (∃ bs, bs.length = 20 ∧ s = Hex.literal bs) ↔ IsHex s := by
  have hl : (s.toList.drop 2).length = 2 * 20 := by rw [List.length_drop, length_of_isValid hv]; rfl
  rw [IsHex, ← Hex.exists_toBytes?_iff hl]
  constructor
  · rintro ⟨bs, hbs, rfl⟩
    exact ⟨bs, by rw [Hex.toList_literal]; exact Hex.toBytes?_ofBytes bs, hbs⟩
  · rintro ⟨bs, h, hbs⟩
    refine ⟨bs, hbs, hn.symm.trans ((toBytes_iff hbs).mp (toBytes_eq_ok.mpr ?_))⟩
    rw [hn]
    exact ⟨hv, h⟩

def isPlain (s : String) : Bool := hasMark s.toList && s.toList.length == length && decide (IsHex s)

/-- **A text denotes 20 octets exactly when its normal form is a mark and 40 digits.** -/
theorem isPlain_normalize_iff {s : String} :
    isPlain (normalize s) = true ↔ ∃ bs, bs.length = 20 ∧ toBytes s = .ok bs := by
  have hlit : (∃ bs, bs.length = 20 ∧ toBytes s = .ok bs) ↔
      ∃ bs, bs.length = 20 ∧ normalize s = Hex.literal bs :=
    exists_congr fun bs => and_congr_right fun hl => toBytes_iff hl
  rw [hlit]
  simp only [isPlain, Bool.and_eq_true, beq_iff_eq, decide_eq_true_eq]
  constructor
  · rintro ⟨⟨hm, hl⟩, hx⟩
    obtain ⟨ds, hds⟩ := hasMark_iff.mp hm
    rw [IsHex, hds] at hx
    rw [hds, List.length_cons, List.length_cons, length] at hl
    have hv : isValid (normalize s) = true := by
      rw [isValid, hds]
      exact isValidChars_of_digits (by omega) hx
    refine (exists_literal_iff (normalize_normalize s) hv).mpr ?_
    rw [IsHex, hds]
    exact hx
  · rintro ⟨bs, hl, hs⟩
    have hv : isValid (normalize s) = true := hs ▸ isValid_literal hl
    refine ⟨⟨?_, length_of_isValid hv⟩, (exists_literal_iff (normalize_normalize s) hv).mp ⟨bs, hl, hs⟩⟩
    rw [hs, Hex.toList_literal]
    rfl

theorem isPlain_normalize_literal {bs : Bytes} (h : bs.length = 20) : isPlain (normalize (Hex.literal bs)) = true :=
  isPlain_normalize_iff.mpr ⟨bs, h, toBytes_literal h⟩

end Address

end DefiActions
