import DefiActions.Proofs.AbiStrict
import DefiActions.Proofs.EncodableSound
import DefiActions.Proofs.MintSound
import DefiActions.Proofs.SpellingSound

/-!
# One id for a pool

The id of a pool is reached through the key of two assets, through their key
for a swap, and from the assets themselves, with the assets in either order.
`IsFor` says which key two assets have; it does not depend on their order or
spelling, and every route leads from it to the hash of the encoded key. Keys
that are encoded alike are equal.
-/

namespace DefiActions.Pool

theorem Whole.toValue_inj {v w : Whole} (h : v.toValue = w.toValue) : v = w := by
  cases v with
  | int n => exact (Key.toValue_eq_int.mp h.symm).symm
  | flag b =>
    cases w with
    | int n => cases h
    | flag c => exact congrArg flag (Value.bool.inj h)

namespace Key

/-! ## The key of two assets -/

/-- The key of these assets and settings, in whatever order and spelling they are given. -/
structure IsFor (k : Key) (a b : String) (fee spacing : Whole) (hooks : String) : Prop where
  order : ∃ zeroForOne, Pair.order a b = .ok ⟨k.currency0, k.currency1, zeroForOne⟩
  fee : k.fee = fee
  spacing : k.spacing = spacing
  hooks : Address.normalize hooks = k.hooks
  checked : k.Checked

variable {a b hooks : String} {fee spacing : Whole} {k : Key}

theorem isFor_of_create (h : create a b fee spacing hooks = .ok k) : k.IsFor a b fee spacing hooks := by
  obtain ⟨p, hp, hk⟩ := create_eq_ok.mp h
  obtain ⟨rfl, hc⟩ := make_eq_ok hk
  -- An ordered pair holds normal forms, which are their own.
  have hn : Address.normalize p.currency0 = p.currency0 ∧ Address.normalize p.currency1 = p.currency1 := by
    rcases Pair.order_eq_ok.mp hp with ⟨-, rfl⟩ | ⟨-, rfl⟩
    · exact ⟨Address.normalize_normalize a, Address.normalize_normalize b⟩
    · exact ⟨Address.normalize_normalize b, Address.normalize_normalize a⟩
  refine ⟨⟨p.zeroForOne, ?_⟩, rfl, rfl, rfl, hc⟩
  rw [hn.1, hn.2]
  exact hp

theorem IsFor.swap (h : k.IsFor a b fee spacing hooks) : k.IsFor b a fee spacing hooks :=
  { h with order := h.order.elim fun z hz => ⟨!z, Pair.order_swap hz⟩ }

theorem IsFor.respell (h : k.IsFor a b fee spacing hooks) {a' b' hooks' : String} (ha : Address.Respelled a a')
    (hb : Address.Respelled b b') (hh : Address.Respelled hooks hooks') : k.IsFor a' b' fee spacing hooks' where
  order := by
    obtain ⟨z, hz⟩ := h.order
    refine ⟨z, Pair.order_eq_ok.mpr ?_⟩
    rw [ha.normalize_eq, hb.normalize_eq]
    exact Pair.order_eq_ok.mp hz
  fee := h.fee
  spacing := h.spacing
  hooks := hh.normalize_eq.trans h.hooks
  checked := h.checked

theorem IsFor.forSwap_eq (h : k.IsFor a b fee spacing hooks) :
    ∃ zeroForOne, Key.forSwap a b fee spacing hooks = .ok (k, zeroForOne) := by
  obtain ⟨z, hz⟩ := h.order
  refine ⟨z, ?_⟩
  rw [Key.forSwap, hz, ok_bind, ← h.fee, ← h.spacing, h.checked.make_of_hooks h.hooks]
  rfl

theorem IsFor.create_eq (h : k.IsFor a b fee spacing hooks) : create a b fee spacing hooks = .ok k := by
  obtain ⟨z, hz⟩ := h.forSwap_eq
  rw [create, hz]
  rfl

/-! ## Encoded keys -/

def preimage (k : Key) : Except Failure Bytes := do Abi.encode (kinds.map .word) (← k.parts)

theorem preimage_eq_ok (hn : k.IsNormal) {enc : Bytes} : k.preimage = .ok enc ↔ ∃ c0 c1 hooks,
    k.Denotes c0 c1 hooks ∧ Abi.WordKind.encodeAll kinds (k.wireParts c0 c1 hooks) = .ok enc := by
  simp only [preimage, bind_eq_ok, Abi.encode_words_eq_ok, parts_eq_ok]
  constructor
  · rintro ⟨_, ⟨c0, c1, hooks, h0, h1, hh, rfl⟩, he⟩
    exact ⟨c0, c1, hooks, denotes_of_encodeAll hn h0 h1 hh he, he⟩
  · rintro ⟨c0, c1, hooks, hd, he⟩
    obtain ⟨h0, h1, hh⟩ := hd.toBytes
    exact ⟨_, ⟨c0, c1, hooks, h0, h1, hh, rfl⟩, he⟩

theorem exists_preimage_iff (hc : k.Checked) : (∃ enc, k.preimage = .ok enc) ↔ k.IsHex ∧ k.Fits := by
  rw [← hc.exists_encodeAll_iff]
  simp only [preimage_eq_ok hc.normal]
  constructor
  · rintro ⟨enc, c0, c1, hooks, h⟩
    exact ⟨c0, c1, hooks, enc, h⟩
  · rintro ⟨c0, c1, hooks, enc, h⟩
    exact ⟨enc, c0, c1, hooks, h⟩

theorem length_preimage (hn : k.IsNormal) {enc : Bytes} (h : k.preimage = .ok enc) : enc.length = 160 := by
  obtain ⟨_, _, _, -, he⟩ := (preimage_eq_ok hn).mp h
  exact Abi.WordKind.length_encodeAll he

theorem preimage_inj {k' : Key} (hn : k.IsNormal) (hn' : k'.IsNormal) {enc : Bytes} (h : k.preimage = .ok enc)
    (h' : k'.preimage = .ok enc) : k = k' := by
  obtain ⟨_, _, _, hd, he⟩ := (preimage_eq_ok hn).mp h
  obtain ⟨_, _, _, hd', he'⟩ := (preimage_eq_ok hn').mp h'
  have hsized : ∀ w ∈ kinds, w.sized = true := by decide
  have hholds : Abi.Holds enc 0 enc := List.prefix_rfl
  -- One text of octets is read as the parts of both keys.
  have hread := (Abi.decodeWords_of_encodeAll hsized he hholds).symm.trans
    (Abi.decodeWords_of_encodeAll hsized he' hholds)
  rw [Mint.readBackAll_wireParts hd, Mint.readBackAll_wireParts hd'] at hread
  simp only [Except.ok.injEq, List.cons.injEq, Value.text.injEq, and_true] at hread
  obtain ⟨h0, h1, hfee, hspacing, hhooks⟩ := hread
  cases k
  cases k'
  simp only [Key.mk.injEq]
  exact ⟨h0, h1, Whole.toValue_inj hfee, Whole.toValue_inj hspacing, hhooks⟩

/-! ## Routes to an id -/

/-- The ids of two assets in this order: of their key, of their key for a swap, and from the assets themselves. -/
def directed (a b : String) (fee spacing : Whole) (hooks : String) : List (Except Failure Bytes) :=
  [create a b fee spacing hooks >>= id, forSwap a b fee spacing hooks >>= fun r => id r.1,
    Pool.id a b fee.toValue spacing.toValue hooks]

def routes (a b : String) (fee spacing : Whole) (hooks : String) : List (Except Failure Bytes) :=
  directed a b fee spacing hooks ++ directed b a fee spacing hooks

theorem IsFor.directed_eq (h : k.IsFor a b fee spacing hooks) {enc : Bytes} (he : k.preimage = .ok enc) :
    ∀ i ∈ directed a b fee spacing hooks, i = .ok (Keccak.hash enc) := by
  obtain ⟨c0, c1, hooks', hd, he⟩ := (preimage_eq_ok h.checked.normal).mp he
  have hid := hd.id_eq h.checked.lt he
  obtain ⟨z, hswap⟩ := h.forSwap_eq
  obtain ⟨zeroForOne, horder⟩ := h.order
  obtain ⟨h0, h1, -⟩ := hd.toBytes
  have hh : Address.toBytes hooks = .ok hooks' :=
    (Address.toBytes_iff hd.lengthHooks).mpr (h.hooks.trans hd.hooks)
  simp only [directed, List.mem_cons, List.not_mem_nil, or_false]
  rintro i (rfl | rfl | rfl)
  · rw [h.create_eq, ok_bind, hid]
  · rw [hswap, ok_bind, hid]
  · rw [Pool.id, horder, ok_bind, h0, ok_bind, h1, ok_bind, hh, ok_bind, ← h.fee, ← h.spacing]
    exact bind_eq_ok.mpr ⟨enc, he, rfl⟩

theorem IsFor.routes_eq (h : k.IsFor a b fee spacing hooks) {enc : Bytes} (he : k.preimage = .ok enc) :
    ∀ i ∈ routes a b fee spacing hooks, i = .ok (Keccak.hash enc) := by
  intro i hi
  rcases List.mem_append.mp hi with hi | hi
  · exact h.directed_eq he i hi
  · exact h.swap.directed_eq he i hi

theorem Denotes.isFor {c0 c1 hooks' : Bytes} (hd : k.Denotes c0 c1 hooks') (hc : k.Checked)
    (ha : Address.Spells a c0) (hb : Address.Spells b c1) (hh : Address.Spells hooks hooks') :
    k.IsFor a b k.fee k.spacing hooks where
  order := by
    refine ⟨true, Pair.order_eq_ok.mpr (.inl ?_)⟩
    rw [Address.normalize_eq_literal_iff.mpr ha, Address.normalize_eq_literal_iff.mpr hb, ← hd.currency0,
      ← hd.currency1]
    exact ⟨hc.lt, rfl⟩
  fee := rfl
  spacing := rfl
  hooks := (Address.normalize_eq_literal_iff.mpr hh).trans hd.hooks.symm
  checked := hc

/-- **A pool has one id**, the hash of its encoded key, by every route and in every spelling of its addresses, and
no two keys are encoded alike. -/
theorem one_id :
    (∀ a b fee spacing hooks k enc, create a b fee spacing hooks = .ok k → k.preimage = .ok enc →
      (∀ i ∈ routes a b fee spacing hooks, i = .ok (Keccak.hash enc)) ∧
        ∀ a' b' hooks', Address.Respelled a a' → Address.Respelled b b' → Address.Respelled hooks hooks' →
          ∀ i ∈ routes a' b' fee spacing hooks', i = .ok (Keccak.hash enc)) ∧
      ∀ k k' enc, Made k → Made k' → k.preimage = .ok enc → k'.preimage = .ok enc → enc.length = 160 ∧ k = k' := by
  constructor
  · intro a b fee spacing hooks k enc h he
    have hfor := isFor_of_create h
    exact ⟨hfor.routes_eq he, fun a' b' hooks' ha hb hh => (hfor.respell ha hb hh).routes_eq he⟩
  · intro k k' enc h h' he he'
    have hn := (made_iff.mp h).normal
    exact ⟨length_preimage hn he, preimage_inj hn (made_iff.mp h').normal he he'⟩

/-! ## A key in two spellings -/

def letterKey : Key :=
  ⟨Hex.literal (someOctets 0xab), Hex.literal (someOctets 0xcd), .int 3000, .int 60, Address.zero⟩

theorem denotes_letterKey : letterKey.Denotes (someOctets 0xab) (someOctets 0xcd) (someOctets 0) where
  length0 := rfl
  length1 := rfl
  lengthHooks := rfl
  currency0 := rfl
  currency1 := rfl
  hooks := Address.zero_eq_literal

theorem checked_letterKey : letterKey.Checked :=
  denotes_letterKey.checked (denotes_letterKey.lt_iff.mpr (by decide)) (by decide) (by decide)

theorem exists_preimage_letterKey : ∃ enc, letterKey.preimage = .ok enc := by
  have hhex : letterKey.IsHex := checked_letterKey.isHex_iff.mpr ⟨_, _, _, denotes_letterKey⟩
  have hfits : letterKey.Fits := ⟨⟨_, rfl, by decide, by decide⟩, ⟨_, rfl, by decide, by decide⟩⟩
  exact (exists_preimage_iff checked_letterKey).mpr ⟨hhex, hfits⟩

def upperA : String := "0X00000000000000000000000000000000000000AB"

def bareA : String := "00000000000000000000000000000000000000aB"

def mixedB : String := "0x00000000000000000000000000000000000000cD"

def upperB : String := "0X00000000000000000000000000000000000000CD"

def bareZero : String := "0000000000000000000000000000000000000000"

theorem some_one_id : ∃ enc, create upperA mixedB (.int 3000) (.int 60) Address.zero = .ok letterKey ∧
    letterKey.preimage = .ok enc ∧ enc.length = 160 ∧
      ∀ i ∈ routes bareA upperB (.int 3000) (.int 60) bareZero, i = .ok (Keccak.hash enc) := by
  have ha : Address.Spells upperA (someOctets 0xab) ∧ Address.Spells bareA (someOctets 0xab) := by decide +kernel
  have hb : Address.Spells mixedB (someOctets 0xcd) ∧ Address.Spells upperB (someOctets 0xcd) := by decide +kernel
  have hh : Address.Spells Address.zero (someOctets 0) ∧ Address.Spells bareZero (someOctets 0) := by decide +kernel
  have hcreate := (denotes_letterKey.isFor checked_letterKey ha.1 hb.1 hh.1).create_eq
  have hmade : Made letterKey := .create hcreate
  obtain ⟨enc, he⟩ := exists_preimage_letterKey
  obtain ⟨hroutes, hsame⟩ := one_id
  refine ⟨enc, hcreate, he, (hsame _ _ _ hmade hmade he he).1, ?_⟩
  exact (hroutes _ _ _ _ _ _ _ hcreate he).2 _ _ _ ⟨_, ha⟩ ⟨_, hb⟩ ⟨_, hh⟩

end Key

end DefiActions.Pool
