import DefiActions.Proofs.AddressSound
import Mathlib.Data.List.TakeWhile

/-!
# Spellings of octets

Octets may be spelled in letters of either case, with their mark or without.
All spellings of an address have one normal form and no other text has it: no
character outside ASCII is lowered to a digit of an address or to its mark. Of
any length, the octets are read from every spelling of them.
-/

namespace DefiActions

namespace Text

/-! ## Lowering to digits -/

def addressChars : List Char :=
  ['0', '1', '2', '3', '4', '5', '6', '7', '8', '9', 'a', 'b', 'c', 'd', 'e', 'f', 'x']

def plainChars : List Char := addressChars ++ [' ', '\t', '\n', '\x0b', '\x0c', '\r']

theorem plainChars_of_addressChars {ds : List Char} (h : ∀ d ∈ ds, d ∈ addressChars) : ∀ d ∈ ds, d ∈ plainChars :=
  fun d hd => List.mem_append_left _ (h d hd)

theorem lowerChar_of_ascii : ∀ n < 128, lowerChar (Char.ofNat n) = [(Char.ofNat n).toLower] := by decide +kernel

theorem ascii_of_plainChars : ∀ d ∈ plainChars, 0 < d.toNat ∧ d.toNat < 128 := by simp [plainChars, addressChars]

/-- What the run maps to the character, if anything, is in ASCII. -/
def fromAscii (r : CaseRun) (d : Char) : Bool :=
  let n := ((d.toNat : Int) - r.shift).toNat
  decide (n < 128) || !r.contains n

theorem lowerRuns_all_fromAscii : (lowerRuns.all fun r => plainChars.all (fromAscii r)) = true := by decide

theorem lowerRuns_fromAscii {r : CaseRun} (hr : r ∈ lowerRuns) {d : Char} (hd : d ∈ plainChars) :
    fromAscii r d = true :=
  List.all_eq_true.mp (List.all_eq_true.mp lowerRuns_all_fromAscii r hr) d hd

theorem lowerChar_eq_toLower {c : Char} (h : c.toNat < 128) : lowerChar c = [c.toLower] := by
  obtain ⟨n, hn, rfl⟩ := exists_of_ascii h
  exact lowerChar_of_ascii n hn

theorem ascii_of_apply {c : Char} (h : CaseRun.apply lowerRuns c ∈ plainChars) : c.toNat < 128 := by
  obtain ⟨hpos, hlt⟩ := ascii_of_plainChars _ h
  cases hf : lowerRuns.find? (·.contains c.toNat) with
  | none =>
    rw [CaseRun.apply, hf] at hlt
    exact hlt
  | some r =>
    have himage : CaseRun.apply lowerRuns c = Char.ofNat ((c.toNat : Int) + r.shift).toNat := by
      rw [CaseRun.apply, hf]
    have hc : r.contains c.toNat = true := by simpa using List.find?_some hf
    have hr := lowerRuns_fromAscii (List.mem_of_find?_eq_some hf) h
    have hd : (CaseRun.apply lowerRuns c).toNat = ((c.toNat : Int) + r.shift).toNat := by
      rw [himage] at hpos ⊢
      rcases toNat_ofNat ((c.toNat : Int) + r.shift).toNat with e | e
      · exact e
      · omega
    -- The image tells which code point it comes from.
    have hback : (((CaseRun.apply lowerRuns c).toNat : Int) - r.shift).toNat = c.toNat := by omega
    simpa [fromAscii, hback, hc] using hr

theorem lowerChar_of_plainChars {c : Char} (h : ∀ d ∈ lowerChar c, d ∈ plainChars) :
    lowerChar c = [c.toLower] := by
  by_cases hc : c.toNat = 0x130
  · have hi : 'i' ∈ lowerChar c := by
      rw [lowerChar, hc]
      exact List.mem_cons_self ..
    exact absurd (h _ hi) (by decide)
  · refine lowerChar_eq_toLower (ascii_of_apply (h _ ?_))
    rw [lowerChar, lookup_lowerExpansions hc]
    exact List.mem_singleton_self _

theorem lowerSigma_notMem (before after : List Char) : lowerSigma before after ∉ plainChars := by
  unfold lowerSigma
  split <;> decide

theorem map_toLower_of_lowerFrom {before cs : List Char} (h : ∀ d ∈ lowerFrom before cs, d ∈ plainChars) :
    lowerFrom before cs = cs.map Char.toLower := by
  induction cs generalizing before with
  | nil => rfl
  | cons c cs ih =>
    rw [lowerFrom] at h ⊢
    rw [List.forall_mem_append] at h
    obtain ⟨hc, hcs⟩ := h
    by_cases hs : c = 'Σ'
    · rw [if_pos hs] at hc
      exact absurd (hc _ (List.mem_singleton_self _)) (lowerSigma_notMem _ _)
    · rw [if_neg hs] at hc ⊢
      rw [lowerChar_of_plainChars hc, ih hcs]
      rfl

theorem ascii_of_toLower {c : Char} (h : c.toLower.toNat < 128) : c.toNat < 128 := by
  unfold Char.toLower at h
  split at h
  · rename_i hu
    have hle : c.toNat ≤ 'Z'.toNat := UInt32.le_iff_toNat_le.mp hu.2
    exact Nat.lt_of_le_of_lt hle (by decide)
  · exact h

theorem isBlank_of_ascii : ∀ n < 128, (Char.ofNat n).toLower ∈ addressChars → isBlank (Char.ofNat n) = false := by
  decide

theorem isBlank_of_addressChars {c : Char} (h : c.toLower ∈ addressChars) : isBlank c = false := by
  obtain ⟨n, hn, rfl⟩ := exists_of_ascii (ascii_of_toLower (ascii_of_plainChars _ (List.mem_append_left _ h)).2)
  exact isBlank_of_ascii n hn h

theorem lowerFrom_of_toLower (before : List Char) {cs : List Char} (h : ∀ d ∈ cs.map Char.toLower, d ∈ plainChars) :
    lowerFrom before cs = cs.map Char.toLower := by
  induction cs generalizing before with
  | nil => rfl
  | cons c cs ih =>
    rw [List.map_cons, List.forall_mem_cons] at h
    have hc := ascii_of_toLower (ascii_of_plainChars _ h.1).2
    have hs : c ≠ 'Σ' := by
      rintro rfl
      exact absurd hc (by decide)
    rw [lowerFrom, if_neg hs, lowerChar_eq_toLower hc, ih _ h.2]
    rfl

theorem lower_eq_iff {cs ds : List Char} (hd : ∀ d ∈ ds, d ∈ plainChars) :
    lower cs = ds ↔ cs.map Char.toLower = ds := by
  constructor
  · rintro rfl
    exact (map_toLower_of_lowerFrom hd).symm
  · rintro rfl
    exact lowerFrom_of_toLower [] hd

end Text

namespace Address

open Text (addressChars)

theorem digit_mem_addressChars : ∀ n < 16, Hex.digit n ∈ addressChars := by decide

theorem digit_ne_mark : ∀ n < 16, Hex.digit n ≠ 'x' := by decide

theorem ofBytes_addressChars (bs : Bytes) : ∀ d ∈ Hex.ofBytes bs, d ∈ addressChars := by
  intro d hd
  obtain ⟨n, hn, rfl⟩ := Hex.mem_ofBytes hd
  exact digit_mem_addressChars n hn

theorem hasMark_ofBytes (bs : Bytes) : hasMark (Hex.ofBytes bs) = false := by
  rw [Bool.eq_false_iff]
  intro h
  obtain ⟨ds, hds⟩ := hasMark_iff.mp h
  obtain ⟨n, hn, hx⟩ := @Hex.mem_ofBytes bs 'x' (by rw [hds]; simp)
  exact digit_ne_mark n hn hx.symm

/-- The text writes the octets in letters of either case, with its mark or without. -/
def Spells (s : String) (bs : Bytes) : Prop :=
  s.toList.map Char.toLower = '0' :: 'x' :: Hex.ofBytes bs ∨ s.toList.map Char.toLower = Hex.ofBytes bs

instance (s : String) (bs : Bytes) : Decidable (Spells s bs) := inferInstanceAs (Decidable (_ ∨ _))

/-- **The texts with the normal form of an address are its spellings.** -/
theorem normalize_eq_literal_iff {s : String} {bs : Bytes} : normalize s = Hex.literal bs ↔ Spells s bs := by
  have hplain := ofBytes_addressChars bs
  have hmarked : ∀ d ∈ '0' :: 'x' :: Hex.ofBytes bs, d ∈ addressChars := by
    simp only [List.forall_mem_cons]
    exact ⟨by decide, by decide, hplain⟩
  rw [Spells, ← Text.lower_eq_iff (Text.plainChars_of_addressChars hplain),
    ← Text.lower_eq_iff (Text.plainChars_of_addressChars hmarked), ← String.toList_inj, toList_normalize,
    Hex.toList_literal, normalChars]
  by_cases h : hasMark (Text.lower s.toList) = true
  · rw [if_pos h]
    refine ⟨Or.inl, fun hor => hor.resolve_right fun he => ?_⟩
    rw [he, hasMark_ofBytes] at h
    cases h
  · rw [if_neg h, List.cons.injEq, List.cons.injEq]
    refine ⟨fun he => Or.inr he.2.2, fun hor => ⟨rfl, rfl, hor.resolve_left fun he => h ?_⟩⟩
    rw [he]
    rfl

theorem toBytes_of_spells {s : String} {bs : Bytes} (h : Spells s bs) (hl : bs.length = 20) : toBytes s = .ok bs :=
  (toBytes_iff hl).mpr (normalize_eq_literal_iff.mpr h)

def Respelled (s t : String) : Prop := ∃ bs, Spells s bs ∧ Spells t bs

theorem Respelled.normalize_eq {s t : String} (h : Respelled s t) : normalize t = normalize s := by
  obtain ⟨bs, hs, ht⟩ := h
  rw [normalize_eq_literal_iff.mpr hs, normalize_eq_literal_iff.mpr ht]

/-- An address is spelled without blanks, so that a text that spells one is not vacant. -/
theorem isVacant_of_spells {s : String} {bs : Bytes} (h : Spells s bs) (hbs : bs ≠ []) :
    Text.isVacant s = false := by
  have hchars : ∀ d ∈ s.toList.map Char.toLower, d ∈ addressChars := by
    rcases h with h | h
    · rw [h]
      simp only [List.forall_mem_cons]
      exact ⟨by decide, by decide, ofBytes_addressChars bs⟩
    · rw [h]
      exact ofBytes_addressChars bs
  have hne : s.toList ≠ [] := by
    intro he
    obtain ⟨b, bs, rfl⟩ := List.exists_cons_of_ne_nil hbs
    rw [Spells, he, Hex.ofBytes_cons] at h
    rcases h with h | h <;> cases h
  obtain ⟨c, cs, hs⟩ := List.exists_cons_of_ne_nil hne
  rw [hs, List.map_cons, List.forall_mem_cons] at hchars
  have hc : Text.isBlank c = false := Text.isBlank_of_addressChars hchars.1
  rw [Text.isVacant, Text.trim, hs, Text.trimBy, List.dropWhile_cons_of_neg (by rw [hc]; decide),
    Text.dropRightWhile, Bool.eq_false_iff]
  intro he
  rw [List.isEmpty_iff, List.reverse_eq_nil_iff, List.dropWhile_eq_nil_iff] at he
  have hblank := he c (by simp)
  rw [hc] at hblank
  cases hblank

/-- The two spellings of an address that have no letters. -/
example : Spells "0X0000000000000000000000000000000000000000" (Bytes.zeros 20) ∧
    Spells "0000000000000000000000000000000000000000" (Bytes.zeros 20) := by decide

end Address

/-! ## Octets of any length -/

namespace Hex

theorem lowerDigit_of_ascii : ∀ n < 128, isDigit (Char.ofNat n).toLower = true →
    isDigit (Char.ofNat n) = true ∧ lowerDigit (Char.ofNat n) = (Char.ofNat n).toLower := by decide

theorem lowerDigit_eq_toLower {c : Char} (h : isDigit c.toLower = true) :
    isDigit c = true ∧ lowerDigit c = c.toLower := by
  obtain ⟨n, hn, rfl⟩ := Text.exists_of_ascii (Text.ascii_of_toLower (toNat_of_isDigit h).2)
  exact lowerDigit_of_ascii n hn h

/-- Digits of either case are read as the octets that they write. -/
theorem toBytes?_of_toLower {cs : List Char} {bs : Bytes} (h : cs.map Char.toLower = ofBytes bs) :
    toBytes? cs = .ok bs := by
  have hdigit : ∀ c ∈ cs, isDigit c = true ∧ lowerDigit c = c.toLower := by
    intro c hc
    obtain ⟨n, hn, he⟩ := mem_ofBytes (h ▸ List.mem_map_of_mem hc : c.toLower ∈ ofBytes bs)
    exact lowerDigit_eq_toLower (by rw [he, isDigit, digitValue?_digit n hn]; rfl)
  have hl : cs.length = 2 * bs.length := by rw [← length_ofBytes, ← h, List.length_map]
  obtain ⟨bs', hb, hl'⟩ := (exists_toBytes?_iff hl).mpr fun c hc => (hdigit c hc).1
  obtain ⟨-, hlow⟩ := (pairs_eq_ok (pairs_of_toBytes? hb)).2 (by rw [hl', hl])
  rw [List.map_congr_left fun c hc => (hdigit c hc).2, h] at hlow
  rw [hb, ofBytes_inj hlow]

theorem zero_of_ascii : ∀ n < 128, (Char.ofNat n).toLower = '0' → Char.ofNat n = '0' := by decide

theorem mark_of_ascii : ∀ n < 128, (Char.ofNat n).toLower = 'x' → Char.ofNat n = 'x' ∨ Char.ofNat n = 'X' := by
  decide

theorem dropMark_of_marked {cs ds : List Char} (h : cs.map Char.toLower = '0' :: 'x' :: ds) :
    (dropMark cs).map Char.toLower = ds := by
  obtain ⟨c, _, rfl, hc, hrest⟩ := List.map_eq_cons_iff.mp h
  obtain ⟨d, cs, rfl, hd, hds⟩ := List.map_eq_cons_iff.mp hrest
  obtain ⟨m, hm, rfl⟩ := Text.exists_of_ascii (Text.ascii_of_toLower (by rw [hc]; decide))
  obtain ⟨n, hn, rfl⟩ := Text.exists_of_ascii (Text.ascii_of_toLower (by rw [hd]; decide))
  rw [zero_of_ascii m hm hc]
  rcases mark_of_ascii n hn hd with hx | hx
  · rw [hx]
    exact hds
  · rw [hx]
    exact hds

theorem dropMark_of_bare {cs : List Char} (h : Address.hasMark (cs.map Char.toLower) = false) :
    dropMark cs = cs := by
  unfold dropMark
  split
  · cases h
  · cases h
  · rfl

end Hex

namespace Blob

open Address (Spells)

theorem ofText_of_spells {s : String} {bs : Bytes} (h : Spells s bs) : ofText s = .ok bs := by
  refine Address.ofDigits_eq_ok.mpr (Hex.toBytes?_of_toLower ?_)
  rcases h with h | h
  · exact Hex.dropMark_of_marked h
  · rw [Hex.dropMark_of_bare (by rw [h]; exact Address.hasMark_ofBytes bs), h]

inductive Gives : Value → Bytes → Prop
  | octets (bs : Bytes) : Gives (.bytes bs) bs
  | text {s : String} {bs : Bytes} (h : Spells s bs) : Gives (.text s) bs

theorem Gives.ofValue_eq {v : Value} {bs : Bytes} (h : Gives v bs) : ofValue v = .ok bs := by
  cases h with
  | octets => rfl
  | text h => exact ofText_of_spells h

end Blob

end DefiActions
