import DefiActions.Bytes

/-!
# UTF-8 round trip

Every text is read back from its octets, and octets that are read as a text are
those that it is written as.
-/

namespace DefiActions.Utf8

theorem scalar?_toNat {k : Nat} {c : Char} (h : k ≤ c.toNat) : scalar? k c.toNat = some c := by
  have hv : c.toNat.isValidChar := c.valid
  unfold scalar?
  rw [dif_pos hv, if_pos h]
  congr 1
  apply Char.ext
  exact UInt32.ofNat_toNat

theorem toNat_lt_size (c : Char) : c.toNat < 0x110000 := by
  rcases c.valid with h | h
  · exact Nat.lt_trans h (by decide)
  · exact h.2

theorem toNat_tail (n : Nat) : (tail n).toNat = 0x80 + n % 64 := by
  unfold tail
  rw [UInt8.toNat_ofNat']
  omega

theorem tailValue?_tail (n : Nat) : tailValue? (tail n) = some (n % 64) := by
  unfold tailValue?
  rw [toNat_tail, if_pos (by omega)]
  exact congrArg some (by omega)

theorem toNat_lead {k n : Nat} (h : k + n < 256) : (UInt8.ofNat (k + n)).toNat = k + n := by
  rw [UInt8.toNat_ofNat']
  omega

/-! ## One character -/

theorem decode?_one {a : UInt8} {c : Char} (ha : a.toNat < 0x80) (hc : scalar? 0 a.toNat = some c) (rest : Bytes) :
    decode? (a :: rest) = (decode? rest).map (c :: ·) := by
  rw [decode?.eq_def]
  simp only [ha, ite_true]
  rw [hc]
  rfl

theorem decode?_two {a b : UInt8} {x : Nat} {c : Char} (lo : 0xC0 ≤ a.toNat) (hi : a.toNat < 0xE0)
    (hb : tailValue? b = some x) (hc : scalar? 0x80 ((a.toNat - 0xC0) * 64 + x) = some c) (rest : Bytes) :
    decode? (a :: b :: rest) = (decode? rest).map (c :: ·) := by
  rw [decode?.eq_def]
  simp only [show ¬ a.toNat < 0x80 by omega, show ¬ a.toNat < 0xC0 by omega, hi, ite_true, ite_false]
  rw [hb, Option.bind_eq_bind, Option.bind_some, hc]
  rfl

theorem decode?_three {a b d : UInt8} {x y : Nat} {c : Char} (lo : 0xE0 ≤ a.toNat) (hi : a.toNat < 0xF0)
    (hb : tailValue? b = some x) (hd : tailValue? d = some y)
    (hc : scalar? 0x800 ((a.toNat - 0xE0) * 4096 + x * 64 + y) = some c) (rest : Bytes) :
    decode? (a :: b :: d :: rest) = (decode? rest).map (c :: ·) := by
  rw [decode?.eq_def]
  simp only [show ¬ a.toNat < 0x80 by omega, show ¬ a.toNat < 0xC0 by omega, show ¬ a.toNat < 0xE0 by omega, hi,
    ite_true, ite_false]
  rw [hb, Option.bind_eq_bind, Option.bind_some, hd, Option.bind_eq_bind, Option.bind_some, hc]
  rfl

theorem decode?_four {a b d e : UInt8} {x y z : Nat} {c : Char} (lo : 0xF0 ≤ a.toNat) (hi : a.toNat < 0xF8)
    (hb : tailValue? b = some x) (hd : tailValue? d = some y) (he : tailValue? e = some z)
    (hc : scalar? 0x10000 ((a.toNat - 0xF0) * 262144 + x * 4096 + y * 64 + z) = some c) (rest : Bytes) :
    decode? (a :: b :: d :: e :: rest) = (decode? rest).map (c :: ·) := by
  rw [decode?.eq_def]
  simp only [show ¬ a.toNat < 0x80 by omega, show ¬ a.toNat < 0xC0 by omega, show ¬ a.toNat < 0xE0 by omega,
    show ¬ a.toNat < 0xF0 by omega, hi, ite_true, ite_false]
  rw [hb, Option.bind_eq_bind, Option.bind_some, hd, Option.bind_eq_bind, Option.bind_some, he,
    Option.bind_some, hc]
  rfl

theorem decode?_encodeChar (c : Char) (bs : Bytes) : decode? (encodeChar c ++ bs) = (decode? bs).map (c :: ·) := by
  have hlt := toNat_lt_size c
  unfold encodeChar
  by_cases h1 : c.toNat < 0x80
  · have ha : (UInt8.ofNat c.toNat).toNat = c.toNat := by rw [UInt8.toNat_ofNat']; omega
    simp only [h1, ite_true, List.cons_append, List.nil_append]
    apply decode?_one (by omega)
    rw [ha]
    exact scalar?_toNat (Nat.zero_le _)
  by_cases h2 : c.toNat < 0x800
  · have ha := @toNat_lead 0xC0 (c.toNat / 64) (by omega)
    simp only [h1, h2, ite_true, ite_false, List.cons_append, List.nil_append]
    apply decode?_two (by omega) (by omega) (tailValue?_tail _)
    rw [ha, show (0xC0 + c.toNat / 64 - 0xC0) * 64 + c.toNat % 64 = c.toNat by omega]
    exact scalar?_toNat (by omega)
  by_cases h3 : c.toNat < 0x10000
  · have ha := @toNat_lead 0xE0 (c.toNat / 4096) (by omega)
    simp only [h1, h2, h3, ite_true, ite_false, List.cons_append, List.nil_append]
    apply decode?_three (by omega) (by omega) (tailValue?_tail _) (tailValue?_tail _)
    rw [ha, show (0xE0 + c.toNat / 4096 - 0xE0) * 4096 + c.toNat / 64 % 64 * 64 + c.toNat % 64 = c.toNat by omega]
    exact scalar?_toNat (by omega)
  · have ha := @toNat_lead 0xF0 (c.toNat / 262144) (by omega)
    simp only [h1, h2, h3, ite_false, List.cons_append, List.nil_append]
    apply decode?_four (by omega) (by omega) (tailValue?_tail _) (tailValue?_tail _) (tailValue?_tail _)
    rw [ha, show (0xF0 + c.toNat / 262144 - 0xF0) * 262144 + c.toNat / 4096 % 64 * 4096 + c.toNat / 64 % 64 * 64 +
      c.toNat % 64 = c.toNat by omega]
    exact scalar?_toNat (by omega)

/-! ## Texts -/

/-- **Text is read back from its octets.** -/
theorem decode?_encode (cs : List Char) : decode? (encode cs) = some cs := by
  induction cs with
  | nil => rfl
  | cons c cs ih =>
    have e : encode (c :: cs) = encodeChar c ++ encode cs := rfl
    rw [e, decode?_encodeChar, ih]
    rfl

theorem text?_ofText (s : String) : text? (ofText s) = some s := by
  simp [text?, ofText, decode?_encode]

/-! ## Octets -/

theorem scalar?_eq_some {k n : Nat} {c : Char} (h : scalar? k n = some c) : c.toNat = n ∧ k ≤ n := by
  unfold scalar? at h
  split at h
  · rename_i hv
    split at h
    · rename_i hk
      have hlt : n < UInt32.size := by
        rcases hv with hv | hv
        · exact Nat.lt_trans hv (by decide)
        · exact Nat.lt_trans hv.2 (by decide)
      rw [← Option.some.inj h]
      exact ⟨UInt32.toNat_ofNat_of_lt' hlt, hk⟩
    · cases h
  · cases h

theorem tail_of_tailValue? {b : UInt8} {x : Nat} (h : tailValue? b = some x) :
    x < 64 ∧ ∀ n, n % 64 = x → tail n = b := by
  unfold tailValue? at h
  split at h
  · have hx := Option.some.inj h
    refine ⟨by omega, fun n hn => ?_⟩
    apply UInt8.toNat_inj.mp
    rw [toNat_tail]
    omega
  · cases h

theorem lead_eq {a : UInt8} {k n : Nat} (h : k + n = a.toNat) : UInt8.ofNat (k + n) = a := by
  rw [h, UInt8.ofNat_toNat]

theorem encodeChar_two {a b : UInt8} {x : Nat} {c : Char} (lo : 0xC0 ≤ a.toNat) (hi : a.toNat < 0xE0)
    (hb : tailValue? b = some x) (hc : scalar? 0x80 ((a.toNat - 0xC0) * 64 + x) = some c) :
    encodeChar c = [a, b] := by
  obtain ⟨hn, hk⟩ := scalar?_eq_some hc
  obtain ⟨hx, hb⟩ := tail_of_tailValue? hb
  unfold encodeChar
  simp only
  rw [if_neg (by omega), if_pos (by omega), lead_eq (by omega : 0xC0 + c.toNat / 64 = a.toNat), hb _ (by omega)]

theorem encodeChar_three {a b d : UInt8} {x y : Nat} {c : Char} (lo : 0xE0 ≤ a.toNat) (hi : a.toNat < 0xF0)
    (hb : tailValue? b = some x) (hd : tailValue? d = some y)
    (hc : scalar? 0x800 ((a.toNat - 0xE0) * 4096 + x * 64 + y) = some c) : encodeChar c = [a, b, d] := by
  obtain ⟨hn, hk⟩ := scalar?_eq_some hc
  obtain ⟨hx, hb⟩ := tail_of_tailValue? hb
  obtain ⟨hy, hd⟩ := tail_of_tailValue? hd
  unfold encodeChar
  simp only
  rw [if_neg (by omega), if_neg (by omega), if_pos (by omega), lead_eq (by omega : 0xE0 + c.toNat / 4096 = a.toNat),
    hb _ (by omega), hd _ (by omega)]

theorem encodeChar_four {a b d e : UInt8} {x y z : Nat} {c : Char} (lo : 0xF0 ≤ a.toNat)
    (hb : tailValue? b = some x) (hd : tailValue? d = some y) (he : tailValue? e = some z)
    (hc : scalar? 0x10000 ((a.toNat - 0xF0) * 262144 + x * 4096 + y * 64 + z) = some c) :
    encodeChar c = [a, b, d, e] := by
  obtain ⟨hn, hk⟩ := scalar?_eq_some hc
  obtain ⟨hx, hb⟩ := tail_of_tailValue? hb
  obtain ⟨hy, hd⟩ := tail_of_tailValue? hd
  obtain ⟨hz, he⟩ := tail_of_tailValue? he
  unfold encodeChar
  simp only
  rw [if_neg (by omega), if_neg (by omega), if_neg (by omega),
    lead_eq (by omega : 0xF0 + c.toNat / 262144 = a.toNat), hb _ (by omega), hd _ (by omega), he _ (by omega)]

theorem encode_of_decode? : ∀ {bs : Bytes} {cs : List Char}, decode? bs = some cs → encode cs = bs
  | [], cs, h => by
    obtain rfl := Option.some.inj h
    rfl
  | a :: rest, cs, h => by
    -- The range of the first octet tells how many belong to the character.
    rw [decode?.eq_def] at h
    simp only at h
    by_cases h1 : a.toNat < 0x80
    · rw [if_pos h1] at h
      simp only [Option.bind_eq_bind, Option.bind_eq_some_iff, Option.map_eq_some_iff] at h
      obtain ⟨c, hc, ds, hd, rfl⟩ := h
      obtain ⟨hn, -⟩ := scalar?_eq_some hc
      have e : encodeChar c = [a] := by
        unfold encodeChar
        simp only [hn, h1, ite_true, UInt8.ofNat_toNat]
      rw [encode, List.flatMap_cons, e, ← encode, encode_of_decode? hd]
      rfl
    rw [if_neg h1] at h
    by_cases h2 : a.toNat < 0xC0
    · rw [if_pos h2] at h
      cases h
    rw [if_neg h2] at h
    by_cases h3 : a.toNat < 0xE0
    · rw [if_pos h3] at h
      cases rest with
      | nil => cases h
      | cons b rest =>
        simp only [Option.bind_eq_bind, Option.bind_eq_some_iff, Option.map_eq_some_iff] at h
        obtain ⟨x, hx, c, hc, ds, hd, rfl⟩ := h
        rw [encode, List.flatMap_cons, encodeChar_two (by omega) h3 hx hc, ← encode, encode_of_decode? hd]
        rfl
    rw [if_neg h3] at h
    by_cases h4 : a.toNat < 0xF0
    · rw [if_pos h4] at h
      match rest, h with
      | [], h => cases h
      | [_], h => cases h
      | b :: d :: rest, h =>
        simp only [Option.bind_eq_bind, Option.bind_eq_some_iff, Option.map_eq_some_iff] at h
        obtain ⟨x, hx, y, hy, c, hc, ds, hd, rfl⟩ := h
        rw [encode, List.flatMap_cons, encodeChar_three (by omega) h4 hx hy hc, ← encode, encode_of_decode? hd]
        rfl
    rw [if_neg h4] at h
    by_cases h5 : a.toNat < 0xF8
    · rw [if_pos h5] at h
      match rest, h with
      | [], h => cases h
      | [_], h => cases h
      | [_, _], h => cases h
      | b :: d :: e :: rest, h =>
        simp only [Option.bind_eq_bind, Option.bind_eq_some_iff, Option.map_eq_some_iff] at h
        obtain ⟨x, hx, y, hy, z, hz, c, hc, ds, hd, rfl⟩ := h
        rw [encode, List.flatMap_cons, encodeChar_four (by omega) hx hy hz hc, ← encode, encode_of_decode? hd]
        rfl
    rw [if_neg h5] at h
    cases h

theorem ofText_of_text? {bs : Bytes} {s : String} (h : text? bs = some s) : ofText s = bs := by
  obtain ⟨cs, hcs, rfl⟩ := Option.map_eq_some_iff.mp h
  rw [ofText, String.toList_ofList, encode_of_decode? hcs]

end DefiActions.Utf8
