import DefiActions.Config.Format
import DefiActions.Proofs.SpellingSound

/-!
# Notions of an address

The format of an address asks for digits, validity for a numeral, and octets
for pairs of digits. A numeral takes blanks behind it, which octets are read
without, and underscores and digits of other scripts, which they are not. What
octets are read from is digits in all, with blanks behind them.
-/

namespace DefiActions

/-! ## Octets behind digits -/

namespace Hex

theorem isGap_eq_false {c : Char} (h : c = '_' ∨ (Text.Base.sixteen.digitValue? c).isSome) : isGap c = false := by
  rw [Bool.eq_false_iff]
  intro hg
  obtain ⟨-, hne, hnone⟩ := Text.isSpace_of_isGap hg
  rw [hnone] at h
  exact h.elim hne nofun

theorem plainChars_of_ascii : ∀ n < 128, isGap (Char.ofNat n) = true → Char.ofNat n ∈ Text.plainChars := by decide

theorem plainChars_of_isGap {c : Char} (h : isGap c = true) : c ∈ Text.plainChars := by
  obtain ⟨n, hn, rfl⟩ := Text.exists_of_ascii (toNat_of_isGap h)
  exact plainChars_of_ascii n hn h

theorem toLower_of_ascii : ∀ n < 128, (isGap (Char.ofNat n).toLower = true → isGap (Char.ofNat n) = true) ∧
    (isDigit (Char.ofNat n) = true → lowerDigit (Char.ofNat n) = (Char.ofNat n).toLower) := by decide

theorem isGap_of_toLower {c : Char} (h : isGap c.toLower = true) : isGap c = true := by
  obtain ⟨n, hn, rfl⟩ := Text.exists_of_ascii (Text.ascii_of_toLower (toNat_of_isGap h))
  exact (toLower_of_ascii n hn).1 h

theorem toLower_of_toBytes? {cs : List Char} {bs : Bytes} (h : toBytes? cs = .ok bs)
    (hl : cs.length = 2 * bs.length) :
    cs.map Char.toLower = ofBytes bs := by
  obtain ⟨hdigit, hlow⟩ := (pairs_eq_ok (pairs_of_toBytes? h)).2 hl
  rw [← hlow]
  refine List.map_congr_left fun c hc => ?_
  obtain ⟨n, hn, rfl⟩ := Text.exists_of_ascii (toNat_of_isDigit (hdigit c hc)).2
  exact ((toLower_of_ascii n hn).2 (hdigit _ hc)).symm

end Hex

namespace Address

/-- What is valid behind the mark is digits and underscores, then blanks. -/
theorem exists_run_of_isValidChars {cs : List Char} (h : isValidChars ('0' :: 'x' :: cs) = true) :
    cs.length = 40 ∧ ∃ run rest, cs = run ++ rest ∧ run ≠ [] ∧
      (∀ c ∈ run, c = '_' ∨ (Text.Base.sixteen.digitValue? c).isSome) ∧ ∀ c ∈ rest, Text.isSpace c = true := by
  simp only [isValidChars, Bool.and_eq_true, beq_iff_eq] at h
  obtain ⟨⟨-, hl⟩, hread⟩ := h
  refine ⟨by simpa [length] using hl, ?_⟩
  cases hn : Text.readInt .sixteen ('0' :: 'x' :: cs) with
  | error e =>
    rw [hn] at hread
    cases hread
  | ok n =>
    obtain ⟨m, hm, -⟩ := Text.readInt_marked.mp hn
    obtain ⟨run, rest, ds, hcs, hdigits, hrest, -⟩ := Text.digits_of_readNat hm
    rcases Text.dropBaseMark_sixteen cs with hd | hd
    · exact ⟨run, rest, hd ▸ hcs, hdigits.chars_ne_nil, hdigits.run.mem, hrest⟩
    · refine ⟨'_' :: run, rest, ?_, List.cons_ne_nil _ _, List.forall_mem_cons.mpr ⟨.inl rfl, hdigits.run.mem⟩,
        hrest⟩
      rw [hd, hcs, List.cons_append]

/-- Octets, and blanks that fill their digits up to the length of an address. -/
structure Filled (bs : Bytes) (blanks : List Char) : Prop where
  some : bs ≠ []
  blank : ∀ c ∈ blanks, Hex.isGap c = true
  length : 2 * bs.length + blanks.length = 40

theorem Filled.digits {bs : Bytes} {blanks : List Char} (_ : Filled bs blanks) :
    ∀ c ∈ Hex.ofBytes bs, Hex.isDigit c = true := by
  intro c hc
  obtain ⟨n, hn, rfl⟩ := Hex.mem_ofBytes hc
  rw [Hex.isDigit, Hex.digitValue?_digit n hn]
  rfl

/-- **A text denotes octets exactly when its normal form is their literal with blanks behind it.** -/
theorem toBytes_iff_filled {s : String} {bs : Bytes} : toBytes s = .ok bs ↔
    ∃ blanks, Filled bs blanks ∧ (normalize s).toList = (Hex.literal bs).toList ++ blanks := by
  rw [toBytes_eq_ok, isValid]
  constructor
  · rintro ⟨hv, hb⟩
    obtain ⟨ds, hds, hlow⟩ := normalChars_eq s.toList
    rw [toList_normalize, hds] at hv hb ⊢
    obtain ⟨hl, run, rest, rfl, hne, hrun, hrest⟩ := exists_run_of_isValidChars hv
    have hpairs := Hex.pairs_of_toBytes? hb
    rw [List.drop_succ_cons, List.drop_succ_cons, List.drop_zero] at hpairs
    obtain ⟨⟨hp, hlen⟩, hgap⟩ := Hex.pairs_append_eq_ok (fun c hc => Text.hexDigitValue?_of_isSpace (hrest c hc))
      (fun c hc => Hex.isGap_eq_false (hrun c hc)) hpairs
    -- pairs take neither an underscore nor a digit of another script, so that the whole run is pairs
    have hdigits : run = Hex.ofBytes bs := Hex.eq_ofBytes hp hlen fun c hc =>
      Text.not_capital_of_isLow (hlow c (List.mem_append_left _ hc))
    refine ⟨rest, ⟨?_, hgap, ?_⟩, by rw [Hex.toList_literal, hdigits]; rfl⟩
    · rintro rfl
      exact hne hdigits
    · rw [← hlen, ← List.length_append, hl]
  · rintro ⟨blanks, h, hs⟩
    have hne : Hex.ofBytes bs ≠ [] := by
      rw [← List.length_pos_iff, Hex.length_ofBytes]
      have := List.length_pos_iff.mpr h.some
      omega
    rw [hs, Hex.toList_literal]
    exact ⟨isValidChars_of_padded hne (by rw [Hex.length_ofBytes, h.length]) h.digits h.blank,
      Hex.toBytes?_ofBytes_append bs h.blank⟩

/-! ## Marked texts -/

theorem normalize_of_hasMark {s : String} (h : hasMark s.toList = true) :
    (normalize s).toList = Text.lower s.toList := by
  obtain ⟨cs, hs⟩ := hasMark_iff.mp h
  have hzero : Text.lowerChar '0' = ['0'] := by decide
  have hx : Text.lowerChar 'x' = ['x'] := by decide
  have hlow : hasMark (Text.lower s.toList) = true := by
    rw [hs, Text.lower, Text.lowerFrom, Text.lowerFrom, if_neg (by decide), if_neg (by decide), hzero, hx]
    rfl
  rw [toList_normalize, normalChars, if_pos hlow]

theorem exists_digits_of_toBytes {s : String} {bs : Bytes} (hm : hasMark s.toList = true) (h : toBytes s = .ok bs) :
    ∃ ds ws, s.toList = '0' :: 'x' :: (ds ++ ws) ∧ ds.length = 2 * bs.length ∧ (∀ c ∈ ds, Hex.isDigit c = true) ∧
      (∀ c ∈ ws, Hex.isGap c = true) ∧ ds ≠ [] ∧ ds.length + ws.length = 40 := by
  obtain ⟨cs, hcs⟩ := hasMark_iff.mp hm
  obtain ⟨blanks, hf, hs⟩ := toBytes_iff_filled.mp h
  have hplain : ∀ c ∈ '0' :: 'x' :: (Hex.ofBytes bs ++ blanks), c ∈ Text.plainChars := by
    simp only [List.forall_mem_cons, List.forall_mem_append]
    exact ⟨by decide, by decide, Text.plainChars_of_addressChars (ofBytes_addressChars bs),
      fun c hc => Hex.plainChars_of_isGap (hf.blank c hc)⟩
  rw [normalize_of_hasMark hm, Hex.toList_literal] at hs
  have hlow := (Text.lower_eq_iff hplain).mp hs
  rw [hcs, List.map_cons, List.map_cons, List.cons.injEq, List.cons.injEq] at hlow
  obtain ⟨ds, ws, rfl, hds, hws⟩ := List.map_eq_append_iff.mp hlow.2.2
  have hl : ds.length = 2 * bs.length := by rw [← Hex.length_ofBytes, ← hds, List.length_map]
  have hpos := List.length_pos_iff.mpr hf.some
  refine ⟨ds, ws, hcs, hl, ?_, ?_, List.length_pos_iff.mp (by omega), ?_⟩
  · intro c hc
    refine (Hex.lowerDigit_eq_toLower (hf.digits _ ?_)).1
    rw [← hds]
    exact List.mem_map_of_mem hc
  · intro c hc
    refine Hex.isGap_of_toLower (hf.blank _ ?_)
    rw [← hws]
    exact List.mem_map_of_mem hc
  · rw [hl, ← hf.length, ← hws, List.length_map]

theorem isValid_of_toBytes {s : String} {bs : Bytes} (hm : hasMark s.toList = true) (h : toBytes s = .ok bs) :
    isValid s = true := by
  obtain ⟨ds, ws, hs, -, hdigits, hgaps, hne, hl⟩ := exists_digits_of_toBytes hm h
  rw [isValid, hs]
  exact isValidChars_of_padded hne hl hdigits hgaps

/-! ## The format -/

theorem isAddress_eq_true {cs : List Char} : Config.Format.isAddress cs = true ↔
    ∃ ds, cs = '0' :: 'x' :: ds ∧ ds.length = 40 ∧ ∀ c ∈ ds, Hex.isDigit c = true := by
  constructor
  · intro h
    unfold Config.Format.isAddress at h
    split at h
    · rw [Bool.and_eq_true, beq_iff_eq, List.all_eq_true] at h
      exact ⟨_, rfl, h⟩
    · cases h
  · rintro ⟨ds, rfl, h⟩
    rwa [Config.Format.isAddress, Bool.and_eq_true, beq_iff_eq, List.all_eq_true]

theorem isAddress_iff_isValid {s : String} :
    Config.Format.isAddress s.toList = true ↔ isValid s = true ∧ IsHex s := by
  rw [isAddress_eq_true]
  constructor
  · rintro ⟨ds, hs, hl, hx⟩
    rw [isValid, IsHex, hs]
    exact ⟨isValidChars_of_digits hl hx, hx⟩
  · rintro ⟨hv, hx⟩
    have hl := length_of_isValid hv
    simp only [isValid, isValidChars, Bool.and_eq_true] at hv
    obtain ⟨ds, hs⟩ := hasMark_iff.mp hv.1.1
    rw [IsHex, hs] at hx
    rw [hs] at hl
    exact ⟨ds, hs, by simpa [length] using hl, hx⟩

theorem isAddress_iff_toBytes {s : String} (hm : hasMark s.toList = true) :
    Config.Format.isAddress s.toList = true ↔ ∃ bs, toBytes s = .ok bs ∧ bs.length = 20 := by
  rw [isAddress_eq_true]
  constructor
  · rintro ⟨ds, hs, hl, hx⟩
    obtain ⟨bs, hb, hlen⟩ := (@Hex.exists_toBytes?_iff ds 20 hl).mpr hx
    refine ⟨bs, toBytes_of_spells (.inl ?_) hlen, hlen⟩
    rw [hs, List.map_cons, List.map_cons, Hex.toLower_of_toBytes? hb (by rw [hlen, hl])]
    rfl
  · rintro ⟨bs, hb, hlen⟩
    obtain ⟨ds, ws, hs, hl, hx, -, -, hsum⟩ := exists_digits_of_toBytes hm hb
    obtain rfl : ws = [] := List.length_eq_zero_iff.mp (by omega)
    exact ⟨ds, by rw [hs, List.append_nil], by omega, hx⟩

/-- **The notions of an address agree on digits.** The format takes what is valid and digits, and with a mark it
takes what denotes 20 octets; of what denotes any octets the mark makes a valid text. Octets are denoted exactly
where the normal form is their literal with blanks behind it, so that 20 are where it is their literal. -/
theorem notions_agree (s : String) :
    (Config.Format.isAddress s.toList = true ↔ isValid s = true ∧ IsHex s) ∧
    (hasMark s.toList = true →
      (Config.Format.isAddress s.toList = true ↔ ∃ bs, toBytes s = .ok bs ∧ bs.length = 20) ∧
        ∀ bs, toBytes s = .ok bs → isValid s = true) ∧
    ∀ bs, (toBytes s = .ok bs ↔
        ∃ blanks, Filled bs blanks ∧ (normalize s).toList = (Hex.literal bs).toList ++ blanks) ∧
      (toBytes s = .ok bs ∧ bs.length = 20 ↔ normalize s = Hex.literal bs ∧ bs.length = 20) :=
  ⟨isAddress_iff_isValid, fun hm => ⟨isAddress_iff_toBytes hm, fun _ => isValid_of_toBytes hm⟩,
    fun _ => ⟨toBytes_iff_filled, and_congr_left toBytes_iff⟩⟩

/-- Digits of either case agree, and so do 19 octets and blanks, but for the format. -/
theorem some_notions_agree :
    (Config.Format.isAddress "0xABCDEFabcdef00000000000000000000000000ff".toList = true ∧
      ∃ bs, toBytes "0xABCDEFabcdef00000000000000000000000000ff" = .ok bs ∧ bs.length = 20) ∧
    isValid "0x11111111111111111111111111111111111111\t " = true := by
  obtain ⟨-, hmarked, -⟩ := notions_agree "0xABCDEFabcdef00000000000000000000000000ff"
  have hformat : Config.Format.isAddress "0xABCDEFabcdef00000000000000000000000000ff".toList = true := by decide
  refine ⟨⟨hformat, (hmarked (by decide)).1.mp hformat⟩, ?_⟩
  obtain ⟨-, hmarked, -⟩ := notions_agree "0x11111111111111111111111111111111111111\t "
  exact (hmarked (by decide)).2 (List.replicate 19 0x11) (by decide +kernel)

/-- Blanks are valid and not of the format, and 19 octets are denoted. Underscores are valid and denote nothing. -/
theorem notions_differ :
    (isValid "0x11111111111111111111111111111111111111  " = true ∧
      Config.Format.isAddress "0x11111111111111111111111111111111111111  ".toList = false ∧
      toBytes "0x11111111111111111111111111111111111111  " = .ok (List.replicate 19 0x11)) ∧
    isValid "0x1_11111111111111111111111111111111111111" = true ∧
      ∀ bs, toBytes "0x1_11111111111111111111111111111111111111" ≠ .ok bs := by
  refine ⟨by decide +kernel, by decide +kernel, fun bs h => ?_⟩
  have hfails : (toBytes "0x1_11111111111111111111111111111111111111").isOk = false := by decide +kernel
  rw [h] at hfails
  cases hfails

end Address

end DefiActions
