import DefiActions.Proofs.PoolSound

/-!
# Keys that can be encoded

A key is made from texts that are valid as numerals of base 16. Such a text may
hold blanks, underscores and digits of other scripts, and the spacing of a key
has no upper bound. What is made has an id and is written in a report exactly
when its three texts are hexadecimal digits, and its fee and spacing numbers
that fit. Its currencies are then in the order of the numbers that they write.
-/

namespace DefiActions.Pool.Key

/-- A key that one of the three ways to make one gives. -/
inductive Made : Key → Prop
  | make {c0 c1 hooks : String} {fee spacing : Whole} {k : Key} (h : Key.make c0 c1 fee spacing hooks = .ok k) :
      Made k
  | create {a b hooks : String} {fee spacing : Whole} {k : Key} (h : Key.create a b fee spacing hooks = .ok k) :
      Made k
  | forSwap {source destination hooks : String} {fee spacing : Whole} {k : Key} {zeroForOne : Bool}
    (h : Key.forSwap source destination fee spacing hooks = .ok (k, zeroForOne)) : Made k

theorem checked_of_forSwap {source destination hooks : String} {fee spacing : Whole} {k : Key} {zeroForOne : Bool}
    (h : forSwap source destination fee spacing hooks = .ok (k, zeroForOne)) : k.Checked := by
  simp only [Key.forSwap, bind_eq_ok, pure_eq_ok, Prod.mk.injEq] at h
  obtain ⟨_, -, _, hk, rfl, -⟩ := h
  exact (make_eq_ok hk).2

theorem made_iff {k : Key} : Made k ↔ k.Checked := by
  constructor
  · intro h
    cases h with
    | make h => exact (make_eq_ok h).2
    | create h =>
      obtain ⟨_, hswap, rfl⟩ := map_eq_ok.mp h
      exact checked_of_forSwap hswap
    | forSwap h => exact checked_of_forSwap h
  · exact fun h => .make h.make_eq

/-! ## Texts and numbers that fit -/

structure IsHex (k : Key) : Prop where
  currency0 : Address.IsHex k.currency0
  currency1 : Address.IsHex k.currency1
  hooks : Address.IsHex k.hooks

/-- The fee is a number that fits 24 bits, and the spacing one that fits 24 bits with a sign. -/
structure Fits (k : Key) : Prop where
  fee : ∃ fee, k.fee = .int fee ∧ 0 ≤ fee ∧ fee < twoPow 24
  spacing : ∃ spacing, k.spacing = .int spacing ∧ -(twoPow 23 : Int) ≤ spacing ∧ spacing < twoPow 23

theorem Checked.isHex_iff {k : Key} (h : k.Checked) : k.IsHex ↔ ∃ c0 c1 hooks, k.Denotes c0 c1 hooks := by
  have h0 := Address.exists_literal_iff h.normal.currency0 h.valid0
  have h1 := Address.exists_literal_iff h.normal.currency1 h.valid1
  have hh := Address.exists_literal_iff h.normal.hooks h.validHooks
  constructor
  · intro hx
    obtain ⟨c0, l0, e0⟩ := h0.mpr hx.currency0
    obtain ⟨c1, l1, e1⟩ := h1.mpr hx.currency1
    obtain ⟨hooks, lh, eh⟩ := hh.mpr hx.hooks
    exact ⟨c0, c1, hooks, l0, l1, lh, e0, e1, eh⟩
  · rintro ⟨c0, c1, hooks, hd⟩
    exact {
      currency0 := h0.mp ⟨c0, hd.length0, hd.currency0⟩
      currency1 := h1.mp ⟨c1, hd.length1, hd.currency1⟩
      hooks := hh.mp ⟨hooks, hd.lengthHooks, hd.hooks⟩ }

theorem toValue_eq_int {w : Whole} {n : Int} : w.toValue = .int n ↔ w = .int n := by
  cases w with
  | int m => simp [Whole.toValue]
  | flag b => simp [Whole.toValue]

theorem Denotes.exists_encodeAll_iff {k : Key} {c0 c1 hooks : Bytes} (hd : k.Denotes c0 c1 hooks) :
    (∃ enc, Abi.WordKind.encodeAll kinds (k.wireParts c0 c1 hooks) = .ok enc) ↔ k.Fits := by
  have hnil : ∃ enc, Abi.WordKind.encodeAll [] [] = .ok enc := ⟨[], rfl⟩
  simp only [kinds, wireParts, Abi.WordKind.exists_encodeAll_cons, List.headD_cons, List.tail_cons,
    Abi.WordKind.exists_writes_address, Abi.WordKind.exists_writes_uint, Abi.WordKind.exists_writes_int,
    toValue_eq_int, hd.length0, hd.length1, hd.lengthHooks, hnil, true_and, and_true]
  exact ⟨fun h => ⟨h.1, h.2⟩, fun h => ⟨h.fee, h.spacing⟩⟩

/-! ## Ids and reports -/

theorem Checked.exists_encodeAll_iff {k : Key} (h : k.Checked) :
    (∃ c0 c1 hooks enc, k.Denotes c0 c1 hooks ∧ Abi.WordKind.encodeAll kinds (k.wireParts c0 c1 hooks) = .ok enc) ↔
      k.IsHex ∧ k.Fits := by
  rw [h.isHex_iff]
  constructor
  · rintro ⟨c0, c1, hooks, enc, hd, he⟩
    exact ⟨⟨c0, c1, hooks, hd⟩, hd.exists_encodeAll_iff.mp ⟨enc, he⟩⟩
  · rintro ⟨⟨c0, c1, hooks, hd⟩, hf⟩
    obtain ⟨enc, he⟩ := hd.exists_encodeAll_iff.mpr hf
    exact ⟨c0, c1, hooks, enc, hd, he⟩

theorem Checked.exists_id_iff {k : Key} (h : k.Checked) : (∃ i, k.id = .ok i) ↔ k.IsHex ∧ k.Fits := by
  rw [← h.exists_encodeAll_iff]
  constructor
  · rintro ⟨i, hi⟩
    obtain ⟨c0, c1, hooks, enc, hd, he, -⟩ := id_eq_ok h.lt h.normal hi
    exact ⟨c0, c1, hooks, enc, hd, he⟩
  · rintro ⟨c0, c1, hooks, enc, hd, he⟩
    exact ⟨_, hd.id_eq h.lt he⟩

theorem Checked.exists_parts_iff {k : Key} (h : k.Checked) :
    (∃ ps enc, k.parts = .ok ps ∧ Abi.WordKind.encodeAll kinds ps = .ok enc) ↔ k.IsHex ∧ k.Fits := by
  rw [← h.exists_encodeAll_iff]
  constructor
  · rintro ⟨ps, enc, hps, he⟩
    obtain ⟨c0, c1, hooks, h0, h1, hh, rfl⟩ := parts_eq_ok.mp hps
    exact ⟨c0, c1, hooks, enc, denotes_of_encodeAll h.normal h0 h1 hh he, he⟩
  · rintro ⟨c0, c1, hooks, enc, hd, he⟩
    exact ⟨_, enc, hd.parts_eq, he⟩

/-- **A key that is made has an id, and parts that can be encoded, exactly when its texts are hexadecimal
digits and its numbers fit.** Where the texts are digits they write 20 octets each, the first currency a
smaller number than the second. -/
theorem made_encodes_iff {k : Key} (h : Made k) :
    ((∃ i, k.id = .ok i) ↔ k.IsHex ∧ k.Fits) ∧
      ((∃ ps enc, k.parts = .ok ps ∧ Abi.WordKind.encodeAll kinds ps = .ok enc) ↔ k.IsHex ∧ k.Fits) ∧
      (k.IsHex ↔ ∃ c0 c1 hooks, k.Denotes c0 c1 hooks ∧ Bytes.toNat c0 < Bytes.toNat c1) := by
  have hc := made_iff.mp h
  refine ⟨hc.exists_id_iff, hc.exists_parts_iff, ?_⟩
  rw [hc.isHex_iff]
  constructor
  · rintro ⟨c0, c1, hooks, hd⟩
    exact ⟨c0, c1, hooks, hd, hd.lt_iff.mp hc.lt⟩
  · rintro ⟨c0, c1, hooks, hd, -⟩
    exact ⟨c0, c1, hooks, hd⟩

/-! ## Keys that are made -/

theorem checked_someKey : someKey.Checked := denotes_someKey.checked someKey_lt (by decide) (by decide)

theorem someKey_encodes : Made someKey ∧ someKey.IsHex ∧ someKey.Fits ∧ ∃ i, someKey.id = .ok i := by
  have hm : Made someKey := made_iff.mpr checked_someKey
  obtain ⟨hid, -, -⟩ := made_encodes_iff hm
  obtain ⟨enc, he⟩ := id_someKey
  obtain ⟨hhex, hfits⟩ := hid.mp ⟨_, he⟩
  exact ⟨hm, hhex, hfits, _, he⟩

def wideKey : Key := { someKey with spacing := .int (twoPow 23) }

def paddedKey : Key := { someKey with hooks := "0x00000000000000000000000000000000000000  " }

theorem made_without_id :
    (Made wideKey ∧ ∀ i, wideKey.id ≠ .ok i) ∧ Made paddedKey ∧ ¬ paddedKey.IsHex ∧ ∀ i, paddedKey.id ≠ .ok i := by
  have hn := checked_someKey.normal
  have hw : wideKey.Checked := {
    checked_someKey with
    normal := ⟨hn.currency0, hn.currency1, hn.hooks⟩
    spacing := by decide }
  have hp : paddedKey.Checked := {
    checked_someKey with
    normal := ⟨hn.currency0, hn.currency1, by decide +kernel⟩
    validHooks := by decide +kernel }
  have hnum : ¬ wideKey.Fits := by
    rintro ⟨-, n, hn, -, hlt⟩
    cases hn
    exact Int.lt_irrefl _ hlt
  have htext : ¬ paddedKey.IsHex := fun h => absurd h.hooks (by decide +kernel)
  exact ⟨⟨made_iff.mpr hw, fun i hi => hnum (hw.exists_id_iff.mp ⟨i, hi⟩).2⟩, made_iff.mpr hp, htext,
    fun i hi => htext (hp.exists_id_iff.mp ⟨i, hi⟩).1⟩

end DefiActions.Pool.Key
