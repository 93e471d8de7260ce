import DefiActions.ContractCall
import DefiActions.Pool.Key
import DefiActions.Proofs.AbiSound
import DefiActions.Proofs.AddressSound

/-!
# Keys of pools

A key holds the normal forms of its two assets in ascending order, which is the
order of the numbers that they write. Its id is the hash of its five parts as
they are encoded, and a call for the state of the pool carries that id.
-/

namespace DefiActions.Pool

/-- Two assets are ordered as their normal forms are, which are not the same. -/
theorem Pair.order_eq_ok {a b : String} {p : Pair} : Pair.order a b = .ok p ↔
    (Address.normalize a < Address.normalize b ∧ p = ⟨Address.normalize a, Address.normalize b, true⟩) ∨
      (Address.normalize b < Address.normalize a ∧ p = ⟨Address.normalize b, Address.normalize a, false⟩) := by
  constructor
  · intro h
    unfold Pair.order at h
    simp only at h
    split at h
    · exact absurd h refuse_ne_ok
    rename_i hne
    obtain rfl := Except.ok.inj h
    by_cases hlt : Address.normalize a < Address.normalize b
    · exact .inl ⟨hlt, if_pos hlt⟩
    · exact .inr ⟨Std.lt_of_le_of_ne (String.not_lt.mp hlt) (Ne.symm hne), if_neg hlt⟩
  · rintro (⟨hlt, rfl⟩ | ⟨hlt, rfl⟩)
    · have hne : Address.normalize a ≠ Address.normalize b := fun he => String.lt_irrefl _ (he ▸ hlt)
      simp only [Pair.order, if_neg hne, if_pos hlt]
    · have hne : Address.normalize a ≠ Address.normalize b := fun he => String.lt_irrefl _ (he ▸ hlt)
      simp only [Pair.order, if_neg hne, if_neg (String.lt_asymm hlt)]

theorem Pair.order_of_lt {c0 c1 : String} (h0 : Address.normalize c0 = c0) (h1 : Address.normalize c1 = c1)
    (h : c0 < c1) : Pair.order c0 c1 = .ok ⟨c0, c1, true⟩ := by
  rw [Pair.order_eq_ok, h0, h1]
  exact .inl ⟨h, rfl⟩

theorem Pair.order_of_gt {c0 c1 : String} (h0 : Address.normalize c0 = c0) (h1 : Address.normalize c1 = c1)
    (h : c0 < c1) : Pair.order c1 c0 = .ok ⟨c0, c1, false⟩ := by
  rw [Pair.order_eq_ok, h0, h1]
  exact .inr ⟨h, rfl⟩

/-- The other way around the same two assets have the same order. -/
theorem Pair.order_swap {a b : String} {p : Pair} (h : Pair.order a b = .ok p) :
    Pair.order b a = .ok { p with zeroForOne := !p.zeroForOne } := by
  rw [Pair.order_eq_ok] at h ⊢
  rcases h with ⟨hlt, rfl⟩ | ⟨hlt, rfl⟩
  · exact .inr ⟨hlt, rfl⟩
  · exact .inl ⟨hlt, rfl⟩

namespace Key

/-! ## Making keys -/

structure IsNormal (k : Key) : Prop where
  currency0 : Address.normalize k.currency0 = k.currency0
  currency1 : Address.normalize k.currency1 = k.currency1
  hooks : Address.normalize k.hooks = k.hooks

structure Checked (k : Key) : Prop where
  normal : k.IsNormal
  valid0 : Address.isValid k.currency0 = true
  valid1 : Address.isValid k.currency1 = true
  validHooks : Address.isValid k.hooks = true
  lt : k.currency0 < k.currency1
  spacing : 0 < k.spacing.toInt
  fee : 0 ≤ k.fee.toInt ∧ k.fee.toInt < twoPow 24

theorem Checked.make_of_hooks {k : Key} (h : k.Checked) {hooks : String} (hh : Address.normalize hooks = k.hooks) :
    make k.currency0 k.currency1 k.fee k.spacing hooks = .ok k := by
  have hv : ∀ s n, Address.normalize s = n → Address.isValid n = true → Address.normalizeValid s = .ok n :=
    fun s n hn hv => Address.normalizeValid_eq_ok.mpr ⟨hn.symm, hn ▸ hv⟩
  simp only [make, hv _ _ h.normal.currency0 h.valid0, hv _ _ h.normal.currency1 h.valid1,
    hv _ _ hh h.validHooks, ok_bind, if_neg (not_not.mpr h.lt), if_neg (Int.not_le.mpr h.spacing),
    if_neg (not_not.mpr h.fee)]
  rfl

theorem Checked.make_eq {k : Key} (h : k.Checked) : make k.currency0 k.currency1 k.fee k.spacing k.hooks = .ok k :=
  h.make_of_hooks h.normal.hooks

theorem make_eq_ok {c0 c1 hooks : String} {fee spacing : Whole} {k : Key}
    (h : make c0 c1 fee spacing hooks = .ok k) :
    k = ⟨Address.normalize c0, Address.normalize c1, fee, spacing, Address.normalize hooks⟩ ∧ k.Checked := by
  simp only [make, bind_eq_ok, Address.normalizeValid_eq_ok] at h
  obtain ⟨_, ⟨rfl, hv0⟩, _, ⟨rfl, hv1⟩, h⟩ := h
  by_cases hlt : Address.normalize c0 < Address.normalize c1
  · rw [if_neg (not_not.mpr hlt)] at h
    by_cases hs : spacing.toInt ≤ 0
    · rw [if_pos hs] at h
      cases spacing <;> exact absurd h refuse_ne_ok
    rw [if_neg hs] at h
    by_cases hf : 0 ≤ fee.toInt ∧ fee.toInt < twoPow 24
    · rw [if_neg (not_not.mpr hf)] at h
      simp only [bind_eq_ok, pure_eq_ok, Address.normalizeValid_eq_ok] at h
      obtain ⟨_, ⟨rfl, hvh⟩, rfl⟩ := h
      exact ⟨rfl, {
        normal := ⟨Address.normalize_normalize _, Address.normalize_normalize _, Address.normalize_normalize _⟩
        valid0 := hv0
        valid1 := hv1
        validHooks := hvh
        lt := hlt
        spacing := Int.not_le.mp hs
        fee := hf }⟩
    · rw [if_pos hf] at h
      exact absurd h refuse_ne_ok
  · rw [if_pos hlt] at h
    exact absurd h refuse_ne_ok

/-- The currencies are in order, and the source is the first of them where `zeroForOne` says so. -/
structure Orders (k : Key) (source destination : String) (zeroForOne : Bool) : Prop where
  lt : k.currency0 < k.currency1
  forward : zeroForOne = true → Address.normalize source = k.currency0 ∧ Address.normalize destination = k.currency1
  backward : zeroForOne = false → Address.normalize source = k.currency1 ∧
    Address.normalize destination = k.currency0

theorem Orders.isCurrency0_source {k : Key} {source destination : String} {zeroForOne : Bool}
    (ho : k.Orders source destination zeroForOne) : k.isCurrency0 source = zeroForOne := by
  cases zeroForOne with
  | true => exact decide_eq_true (ho.forward rfl).1
  | false =>
    refine decide_eq_false fun he => ?_
    rw [(ho.backward rfl).1] at he
    exact String.lt_irrefl _ (he ▸ ho.lt)

theorem Orders.symm {k : Key} {source destination : String} {zeroForOne : Bool}
    (ho : k.Orders source destination zeroForOne) : k.Orders destination source (!zeroForOne) where
  lt := ho.lt
  forward h := (ho.backward (by simpa using h)).symm
  backward h := (ho.forward (by simpa using h)).symm

theorem forSwap_eq_ok {source destination hooks : String} {fee spacing : Whole} {k : Key} {zeroForOne : Bool}
    (h : forSwap source destination fee spacing hooks = .ok (k, zeroForOne)) :
    k.Orders source destination zeroForOne ∧ k.fee = fee ∧ k.spacing = spacing ∧ k.IsNormal := by
  simp only [forSwap, bind_eq_ok, pure_eq_ok, Prod.mk.injEq] at h
  obtain ⟨pair, hp, _, hk, rfl, rfl⟩ := h
  obtain ⟨rfl, hc⟩ := make_eq_ok hk
  refine ⟨?_, rfl, rfl, hc.normal⟩
  rcases Pair.order_eq_ok.mp hp with ⟨-, rfl⟩ | ⟨-, rfl⟩
  · exact {
      lt := hc.lt
      forward := fun _ => ⟨(Address.normalize_normalize _).symm, (Address.normalize_normalize _).symm⟩
      backward := nofun }
  · exact {
      lt := hc.lt
      forward := nofun
      backward := fun _ => ⟨(Address.normalize_normalize _).symm, (Address.normalize_normalize _).symm⟩ }

theorem create_eq_ok {a b hooks : String} {fee spacing : Whole} {k : Key} : create a b fee spacing hooks = .ok k ↔
    ∃ p, Pair.order a b = .ok p ∧ make p.currency0 p.currency1 fee spacing hooks = .ok k := by
  simp only [create, forSwap, map_eq_ok, bind_eq_ok, pure_eq_ok, Prod.exists, Prod.mk.injEq]
  constructor
  · rintro ⟨_, _, ⟨p, hp, _, hk, rfl, rfl⟩, rfl⟩
    exact ⟨p, hp, hk⟩
  · rintro ⟨p, hp, hk⟩
    exact ⟨k, p.zeroForOne, ⟨p, hp, k, hk, rfl, rfl⟩, rfl⟩

theorem create_swap {a b hooks : String} {fee spacing : Whole} {k : Key}
    (h : create a b fee spacing hooks = .ok k) :
    create b a fee spacing hooks = .ok k := by
  obtain ⟨p, hp, hk⟩ := create_eq_ok.mp h
  exact create_eq_ok.mpr ⟨_, Pair.order_swap hp, hk⟩

/-! ## Ids -/

structure Denotes (k : Key) (c0 c1 hooks : Bytes) : Prop where
  length0 : c0.length = 20
  length1 : c1.length = 20
  lengthHooks : hooks.length = 20
  currency0 : k.currency0 = Hex.literal c0
  currency1 : k.currency1 = Hex.literal c1
  hooks : k.hooks = Hex.literal hooks

theorem Denotes.unique {k : Key} {c0 c1 hooks c0' c1' hooks' : Bytes} (h : k.Denotes c0 c1 hooks)
    (h' : k.Denotes c0' c1' hooks') : c0 = c0' ∧ c1 = c1' ∧ hooks = hooks' :=
  ⟨Hex.literal_inj (h.currency0.symm.trans h'.currency0), Hex.literal_inj (h.currency1.symm.trans h'.currency1),
    Hex.literal_inj (h.hooks.symm.trans h'.hooks)⟩

theorem Denotes.isNormal {k : Key} {c0 c1 hooks : Bytes} (hd : k.Denotes c0 c1 hooks) : k.IsNormal where
  currency0 := by rw [hd.currency0, Address.normalize_literal]
  currency1 := by rw [hd.currency1, Address.normalize_literal]
  hooks := by rw [hd.hooks, Address.normalize_literal]

theorem Denotes.lt_iff {k : Key} {c0 c1 hooks : Bytes} (hd : k.Denotes c0 c1 hooks) :
    k.currency0 < k.currency1 ↔ Bytes.toNat c0 < Bytes.toNat c1 := by
  rw [hd.currency0, hd.currency1, Hex.literal_lt_iff (hd.length0.trans hd.length1.symm)]

theorem Denotes.isValid {k : Key} {c0 c1 hooks : Bytes} (hd : k.Denotes c0 c1 hooks) :
    Address.isValid k.currency0 = true ∧ Address.isValid k.currency1 = true ∧ Address.isValid k.hooks = true := by
  rw [hd.currency0, hd.currency1, hd.hooks]
  exact ⟨Address.isValid_literal hd.length0, Address.isValid_literal hd.length1,
    Address.isValid_literal hd.lengthHooks⟩

theorem Denotes.checked {k : Key} {c0 c1 hooks : Bytes} (hd : k.Denotes c0 c1 hooks)
    (hlt : k.currency0 < k.currency1)
    (hs : 0 < k.spacing.toInt) (hf : 0 ≤ k.fee.toInt ∧ k.fee.toInt < twoPow 24) : k.Checked where
  normal := hd.isNormal
  valid0 := hd.isValid.1
  valid1 := hd.isValid.2.1
  validHooks := hd.isValid.2.2
  lt := hlt
  spacing := hs
  fee := hf

/-- A key in order is the key of its currencies in any order. -/
theorem Denotes.forSwap {k : Key} {c0 c1 hooks : Bytes} (hd : k.Denotes c0 c1 hooks)
    (hlt : k.currency0 < k.currency1) (hs : 0 < k.spacing.toInt) (hf : 0 ≤ k.fee.toInt ∧ k.fee.toInt < twoPow 24) :
    Key.forSwap k.currency1 k.currency0 k.fee k.spacing k.hooks = .ok (k, false) := by
  rw [Key.forSwap, Pair.order_of_gt hd.isNormal.currency0 hd.isNormal.currency1 hlt, ok_bind,
    (hd.checked hlt hs hf).make_eq]
  rfl

def wireParts (k : Key) (c0 c1 hooks : Bytes) : List Value :=
  [.bytes c0, .bytes c1, k.fee.toValue, k.spacing.toValue, .bytes hooks]

theorem denotes_of_encodeAll {k : Key} {c0 c1 hooks enc : Bytes} (hn : k.IsNormal)
    (hc0 : Address.toBytes k.currency0 = .ok c0) (hc1 : Address.toBytes k.currency1 = .ok c1)
    (hhooks : Address.toBytes k.hooks = .ok hooks)
    (he : Abi.WordKind.encodeAll kinds (k.wireParts c0 c1 hooks) = .ok enc) : k.Denotes c0 c1 hooks := by
  simp only [kinds, wireParts, Abi.WordKind.encodeAll_cons_eq_ok, List.headD_cons, List.tail_cons] at he
  obtain ⟨_, _, hw0, ⟨_, _, hw1, ⟨_, _, -, ⟨_, _, -, ⟨_, _, hw4, -, -⟩, -⟩, -⟩, -⟩, -⟩ := he
  obtain ⟨_, e0, hl0⟩ := hw0.exists_bytes
  obtain ⟨_, e1, hl1⟩ := hw1.exists_bytes
  obtain ⟨_, e4, hl4⟩ := hw4.exists_bytes
  rw [← Value.bytes.inj e0] at hl0
  rw [← Value.bytes.inj e1] at hl1
  rw [← Value.bytes.inj e4] at hl4
  exact {
    length0 := hl0
    length1 := hl1
    lengthHooks := hl4
    currency0 := hn.currency0.symm.trans ((Address.toBytes_iff hl0).mp hc0)
    currency1 := hn.currency1.symm.trans ((Address.toBytes_iff hl1).mp hc1)
    hooks := hn.hooks.symm.trans ((Address.toBytes_iff hl4).mp hhooks) }

theorem id_eq_ok {k : Key} (hlt : k.currency0 < k.currency1) (hn : k.IsNormal) {i : Bytes} (h : k.id = .ok i) :
    ∃ c0 c1 hooks enc, k.Denotes c0 c1 hooks ∧ Abi.WordKind.encodeAll kinds (k.wireParts c0 c1 hooks) = .ok enc ∧
      i = Keccak.hash enc := by
  simp only [id, Pool.id, Pair.order_of_lt hn.currency0 hn.currency1 hlt, ok_bind, bind_eq_ok, pure_eq_ok] at h
  obtain ⟨c0, hc0, c1, hc1, hooks, hhooks, enc, he, rfl⟩ := h
  exact ⟨c0, c1, hooks, enc, denotes_of_encodeAll hn hc0 hc1 hhooks he, he, rfl⟩

theorem Denotes.toBytes {k : Key} {c0 c1 hooks : Bytes} (hd : k.Denotes c0 c1 hooks) :
    Address.toBytes k.currency0 = .ok c0 ∧ Address.toBytes k.currency1 = .ok c1 ∧
      Address.toBytes k.hooks = .ok hooks := by
  rw [hd.currency0, hd.currency1, hd.hooks]
  exact ⟨Address.toBytes_literal hd.length0, Address.toBytes_literal hd.length1,
    Address.toBytes_literal hd.lengthHooks⟩

theorem parts_eq_ok {k : Key} {ps : List Value} : k.parts = .ok ps ↔ ∃ c0 c1 hooks,
    Address.toBytes k.currency0 = .ok c0 ∧ Address.toBytes k.currency1 = .ok c1 ∧
      Address.toBytes k.hooks = .ok hooks ∧ k.wireParts c0 c1 hooks = ps := by
  simp only [parts, bind_eq_ok, pure_eq_ok, wireParts]
  constructor
  · rintro ⟨c0, h0, c1, h1, hooks, hh, h⟩
    exact ⟨c0, c1, hooks, h0, h1, hh, h⟩
  · rintro ⟨c0, c1, hooks, h0, h1, hh, h⟩
    exact ⟨c0, h0, c1, h1, hooks, hh, h⟩

theorem Denotes.parts_eq {k : Key} {c0 c1 hooks : Bytes} (hd : k.Denotes c0 c1 hooks) :
    k.parts = .ok (k.wireParts c0 c1 hooks) := by
  obtain ⟨hc0, hc1, hh⟩ := hd.toBytes
  exact parts_eq_ok.mpr ⟨c0, c1, hooks, hc0, hc1, hh, rfl⟩

theorem Denotes.id_eq {k : Key} {c0 c1 hooks enc : Bytes} (hd : k.Denotes c0 c1 hooks)
    (hlt : k.currency0 < k.currency1) (he : Abi.WordKind.encodeAll kinds (k.wireParts c0 c1 hooks) = .ok enc) :
    k.id = .ok (Keccak.hash enc) := by
  obtain ⟨hc0, hc1, hh⟩ := hd.toBytes
  simp only [id, Pool.id, Pair.order_of_lt hd.isNormal.currency0 hd.isNormal.currency1 hlt, ok_bind, bind_eq_ok,
    pure_eq_ok]
  exact ⟨c0, hc0, c1, hc1, hooks, hh, enc, he, rfl⟩

/-! ## A key -/

def someOctets (n : UInt8) : Bytes := Bytes.zeros 19 ++ [n]

def someKey : Key := ⟨Hex.literal (someOctets 1), Hex.literal (someOctets 2), .int 3000, .int 60, Address.zero⟩

theorem denotes_someKey : someKey.Denotes (someOctets 1) (someOctets 2) (someOctets 0) where
  length0 := rfl
  length1 := rfl
  lengthHooks := rfl
  currency0 := rfl
  currency1 := rfl
  hooks := Address.zero_eq_literal

theorem someKey_lt : someKey.currency0 < someKey.currency1 := denotes_someKey.lt_iff.mpr (by decide)

theorem encodeAll_someKey : ∃ enc, Abi.WordKind.encodeAll kinds (someKey.wireParts (someOctets 1) (someOctets 2)
    (someOctets 0)) = .ok enc := exists_eq_ok (by decide)

theorem id_someKey : ∃ enc, someKey.id = .ok (Keccak.hash enc) := by
  obtain ⟨enc, he⟩ := encodeAll_someKey
  exact ⟨enc, denotes_someKey.id_eq someKey_lt he⟩

end Key

end DefiActions.Pool

namespace DefiActions.ContractCall

def stateRead (enc : Bytes) : Bytes := selector "getSlot0(bytes32)" ++ Keccak.hash enc

theorem slot0_hash (enc : Bytes) : slot0 (Keccak.hash enc) = .ok (stateRead enc) := by
  have hw : Abi.WordKind.encodeAll [.octets32] [.bytes (Keccak.hash enc)] = .ok (Keccak.hash enc ++ []) :=
    Abi.WordKind.encodeAll_cons_eq_ok.mpr ⟨_, [], .octets32 (Keccak.length_hash enc), rfl, rfl⟩
  have he := Abi.encode_of_encodeAll hw
  rw [List.append_nil] at he
  rw [slot0, if_neg (not_not.mpr (Keccak.length_hash enc))]
  exact bind_eq_ok.mpr ⟨_, he, rfl⟩

def someState : Bytes := [twoPow 96, 0, 0, 3000].flatMap Bytes.word

theorem decodeSlot0_someState : decodeSlot0 someState = .ok ⟨twoPow 96, 0, 0, 3000⟩ :=
  eq_ok_of_isOk (by decide)

end DefiActions.ContractCall
