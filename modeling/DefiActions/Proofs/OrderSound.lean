import DefiActions.Proofs.NotionsSound
import DefiActions.Proofs.PoolSound
import DefiActions.Proofs.ScalingSound

/-!
# The order of two currencies

Two assets are ordered by their normal forms, which are texts. Normal forms have
one length and their digits ascend with what they are worth, so that the order
is that of the numbers which the addresses write.
-/

namespace DefiActions

namespace Hex

def number (ds : List Char) : Nat := Text.ofDigits 16 (ds.filterMap digitValue?)

/-- Two digits make up an octet, whatever number stands in front of them. -/
theorem foldl_ofBytes (bs : Bytes) (n : Nat) :
    ((ofBytes bs).filterMap digitValue?).foldl (fun n d => 16 * n + d) n =
      bs.foldl (fun n b => 256 * n + b.toNat) n := by
  -- octet by octet, two digits at a time
  induction bs generalizing n with
  | nil => rfl
  | cons b bs ih =>
    obtain ⟨hi, lo⟩ := octet_halves b
    have hoctet : 16 * (16 * n + b.toNat / 16) + b.toNat % 16 = 256 * n + b.toNat := by omega
    rw [ofBytes_cons, List.filterMap_cons_some (digitValue?_digit _ hi),
      List.filterMap_cons_some (digitValue?_digit _ lo), List.foldl_cons, List.foldl_cons, List.foldl_cons,
      hoctet, ih]

theorem number_ofBytes (bs : Bytes) : number (ofBytes bs) = Bytes.toNat bs := foldl_ofBytes bs 0

theorem digitValue?_toLower_of_ascii :
    ∀ n < 128, digitValue? (Char.ofNat n).toLower = digitValue? (Char.ofNat n) := by
  decide

theorem number_map_toLower {ds : List Char} (h : ∀ c ∈ ds, isDigit c = true) :
    number (ds.map Char.toLower) = number ds := by
  rw [number, number, List.filterMap_map]
  refine congrArg _ (List.filterMap_congr fun c hc => ?_)
  obtain ⟨n, hn, rfl⟩ := Text.exists_of_ascii (toNat_of_isDigit (h c hc)).2
  exact digitValue?_toLower_of_ascii n hn

end Hex

namespace Address

/-- 40 digits in letters of either case, with a mark of either case in front of them or none. -/
structure Written (s : String) (ds : List Char) : Prop where
  chars : s.toList = ds ∨ s.toList = '0' :: 'x' :: ds ∨ s.toList = '0' :: 'X' :: ds
  length : ds.length = 40
  isDigit : ∀ c ∈ ds, Hex.isDigit c = true

def lowercase (ds : List Char) : String := String.ofList ('0' :: 'x' :: ds.map Char.toLower)

variable {s : String} {ds : List Char}

/-- The octets of the digits have the same normal form and the same number. -/
theorem Written.exists_octets (h : Written s ds) : ∃ bs : Bytes, bs.length = 20 ∧ normalize s = Hex.literal bs ∧
    lowercase ds = Hex.literal bs ∧ Hex.number ds = Bytes.toNat bs := by
  obtain ⟨bs, hread, hl⟩ := (@Hex.exists_toBytes?_iff ds 20 h.length).mpr h.isDigit
  have hlow : ds.map Char.toLower = Hex.ofBytes bs := Hex.toLower_of_toBytes? hread (by rw [hl, h.length])
  have hspells : Spells s bs := by
    rcases h.chars with hs | hs | hs
    · exact .inr (by rw [hs, hlow])
    · exact .inl (by rw [hs, List.map_cons, List.map_cons, hlow]; rfl)
    · exact .inl (by rw [hs, List.map_cons, List.map_cons, hlow]; rfl)
  refine ⟨bs, hl, normalize_eq_literal_iff.mpr hspells, ?_, ?_⟩
  · rw [← String.toList_inj, lowercase, String.toList_ofList, hlow, Hex.toList_literal]
  · rw [← Hex.number_map_toLower h.isDigit, hlow, Hex.number_ofBytes]

theorem Written.number_lt (h : Written s ds) : Hex.number ds < twoPow 160 := by
  obtain ⟨bs, hl, -, -, hn⟩ := h.exists_octets
  rw [hn]
  exact Nat.lt_of_lt_of_eq (Bytes.toNat_lt bs) (by rw [hl]; decide)

end Address

namespace Pool.Pair

open Address (Written lowercase)
open Amount (FailsWith)
open Hex (number)

variable {a b : String} {ds es : List Char}

theorem order_of_number_lt (ha : Written a ds) (hb : Written b es) (h : number ds < number es) :
    order a b = .ok ⟨lowercase ds, lowercase es, true⟩ ∧ order b a = .ok ⟨lowercase ds, lowercase es, false⟩ := by
  obtain ⟨xs, hxs, hna, hla, hxn⟩ := ha.exists_octets
  obtain ⟨ys, hys, hnb, hlb, hyn⟩ := hb.exists_octets
  have hlt : Hex.literal xs < Hex.literal ys :=
    (Hex.literal_lt_iff (hxs.trans hys.symm)).mpr (by rwa [← hxn, ← hyn])
  rw [hla, hlb, order_eq_ok, order_eq_ok, hna, hnb]
  exact ⟨.inl ⟨hlt, rfl⟩, .inr ⟨hlt, rfl⟩⟩

theorem order_of_number_eq (ha : Written a ds) (hb : Written b es) (h : number ds = number es) :
    order a b = refuse (.sameAsset a) := by
  obtain ⟨xs, hxs, hna, -, hxn⟩ := ha.exists_octets
  obtain ⟨ys, hys, hnb, -, hyn⟩ := hb.exists_octets
  have hoctets : xs = ys := Bytes.toNat_inj (hxs.trans hys.symm) (by rw [← hxn, ← hyn, h])
  exact if_pos (by rw [hna, hnb, hoctets])

/-- **Currencies are in the order of their numbers.** Two addresses are refused where they write one number of
160 bits. Otherwise their lowercase forms come in ascending order of the numbers, whichever is given first, and
the flag says whether the one given first is the smaller. -/
theorem order_numeric (ha : Written a ds) (hb : Written b es) :
    (number ds < twoPow 160 ∧ number es < twoPow 160) ∧
    (FailsWith (order a b) "ValueError" ↔ number ds = number es) ∧
    (number ds < number es → order a b = .ok ⟨lowercase ds, lowercase es, true⟩ ∧
      order b a = .ok ⟨lowercase ds, lowercase es, false⟩) ∧
    (number es < number ds → order a b = .ok ⟨lowercase es, lowercase ds, false⟩ ∧
      order b a = .ok ⟨lowercase es, lowercase ds, true⟩) := by
  have hlt := order_of_number_lt ha hb
  have hgt := order_of_number_lt hb ha
  refine ⟨⟨ha.number_lt, hb.number_lt⟩, ⟨fun hfails => ?_, fun heq => ?_⟩, hlt, fun h => (hgt h).symm⟩
  · rcases Nat.lt_trichotomy (number ds) (number es) with h | h | h
    · exact absurd ((hlt h).1 ▸ hfails) Amount.not_failsWith_ok
    · exact h
    · exact absurd ((hgt h).2 ▸ hfails) Amount.not_failsWith_ok
  · rw [order_of_number_eq ha hb heq]
    exact Amount.failsWith_refuse.mpr rfl

/-- A marked address in capitals is ordered behind a bare one whose number is less, and is refused in lowercase. -/
theorem some_order_numeric :
    order "0X00000000000000000000000000000000000000AB" "000000000000000000000000000000000000009f" =
      .ok ⟨"0x000000000000000000000000000000000000009f", "0x00000000000000000000000000000000000000ab", false⟩ ∧
    order "000000000000000000000000000000000000009f" "0X00000000000000000000000000000000000000AB" =
      .ok ⟨"0x000000000000000000000000000000000000009f", "0x00000000000000000000000000000000000000ab", true⟩ ∧
    FailsWith (order "0X00000000000000000000000000000000000000AB" "0x00000000000000000000000000000000000000ab")
      "ValueError" := by
  have ha : Written "0X00000000000000000000000000000000000000AB"
      "00000000000000000000000000000000000000AB".toList :=
    ⟨.inr (.inr (by decide +kernel)), by decide +kernel, List.all_eq_true.mp (by decide +kernel)⟩
  have hb : Written "000000000000000000000000000000000000009f" "000000000000000000000000000000000000009f".toList :=
    ⟨.inl rfl, by decide +kernel, List.all_eq_true.mp (by decide +kernel)⟩
  have hc : Written "0x00000000000000000000000000000000000000ab"
      "00000000000000000000000000000000000000ab".toList :=
    ⟨.inr (.inl (by decide +kernel)), by decide +kernel, List.all_eq_true.mp (by decide +kernel)⟩
  have hla : lowercase "00000000000000000000000000000000000000AB".toList =
      "0x00000000000000000000000000000000000000ab" := by decide +kernel
  have hlb : lowercase "000000000000000000000000000000000000009f".toList =
      "0x000000000000000000000000000000000000009f" := by decide +kernel
  obtain ⟨-, -, -, hgt⟩ := order_numeric ha hb
  obtain ⟨-, hsame, -, -⟩ := order_numeric ha hc
  rw [hla, hlb] at hgt
  obtain ⟨hab, hba⟩ := hgt (by decide +kernel)
  exact ⟨hab, hba, hsame.mpr (by decide +kernel)⟩

end Pool.Pair

end DefiActions
