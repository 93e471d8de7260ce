import DefiActions.Proofs.AbiLayout
import DefiActions.Proofs.MintSound
import DefiActions.Proofs.PoolIdSound

/-!
# The data of a mint

For a key that can be encoded and octets for the recipient and the hook, a mint
is encoded exactly when its numbers are in range, and its data is read as what
was given. The data of the hook is the only thing of its own length; the last
offset, behind it, has to fit a word, and does for all octets that can be held
in memory.
-/

namespace DefiActions.Pool.Mint

open Bytes (ceilWord)
open Abi (decode)

structure InRange (p : Position) : Prop where
  tickLower : -(twoPow 23 : Int) ≤ p.tickLower ∧ p.tickLower < twoPow 23
  tickUpper : -(twoPow 23 : Int) ≤ p.tickUpper ∧ p.tickUpper < twoPow 23
  liquidity : 0 ≤ p.liquidity ∧ p.liquidity < twoPow 256
  maximum0 : 0 ≤ p.maximum0 ∧ p.maximum0 < twoPow 128
  maximum1 : 0 ≤ p.maximum1 ∧ p.maximum1 < twoPow 128

/-! ## The parameters -/

def mintValues (p : Position) (c0 c1 hooks recipient hook : Bytes) : List Value :=
  [.list (p.key.wireParts c0 c1 hooks), .int p.tickLower, .int p.tickUpper, .int p.liquidity, .int p.maximum0,
    .int p.maximum1, .bytes recipient, .bytes hook]

section
variable {p : Position} {c0 c1 hooks recipient hook : Bytes}

theorem exists_encode_mint_iff (hd : Denotes p c0 c1 hooks recipient hook) (hl : recipient.length = 20) :
    (∃ mint, Abi.encode mintKinds (mintValues p c0 c1 hooks recipient hook) = .ok mint) ↔
      InRange p ∧ hook.length < twoPow 256 := by
  have hkey : (p.key.wireParts c0 c1 hooks).length = Key.kinds.length := rfl
  have hnil : ∃ ps, Abi.encodeParts [] [] = .ok ps := ⟨[], rfl⟩
  rw [Abi.exists_encode_iff (by decide) (by decide)]
  simp only [mintKinds, mintValues, Abi.Kind.int, Abi.Kind.uint, Abi.Kind.address, Abi.exists_encodeParts_cons,
    List.headD_cons, List.tail_cons, Abi.Kind.exists_writes_words, Abi.Kind.exists_writes_word,
    Abi.WordKind.exists_writes_int, Abi.WordKind.exists_writes_uint, Abi.WordKind.exists_writes_address,
    Abi.Kind.exists_writes_bytes, Value.int.injEq, Value.bytes.injEq, exists_eq_left', hkey, hd.parts, hl, hnil,
    true_and, and_true]
  constructor
  · rintro ⟨hlower, hupper, hliquidity, h0, h1, hhook⟩
    exact ⟨⟨hlower, hupper, hliquidity, h0, h1⟩, hhook⟩
  · rintro ⟨⟨hlower, hupper, hliquidity, h0, h1⟩, hhook⟩
    exact ⟨hlower, hupper, hliquidity, h0, h1, hhook⟩

/-- Twelve words, the length of the data of the hook, and the data filled up. -/
theorem length_encode_mint {mint : Bytes}
    (h : Abi.encode mintKinds (mintValues p c0 c1 hooks recipient hook) = .ok mint) :
    mint.length = 416 + ceilWord hook.length := by
  have hcut : Abi.encode (mintKinds.take 7 ++ .bytes :: [])
      ((mintValues p c0 c1 hooks recipient hook).take 7 ++ .bytes hook :: []) = .ok mint := h
  obtain ⟨bs, before, after, hhook, -, hbefore, hafter, rfl⟩ := Abi.encode_octets rfl rfl rfl hcut
  obtain rfl := Value.bytes.inj hhook
  rw [List.length_append, List.length_append, List.length_append, hbefore, hafter, Bytes.length_word,
    Abi.length_blob, ← Nat.add_assoc, ← Nat.add_assoc, ← Nat.add_assoc]
  rfl

theorem exists_encode_close {c : Bytes} (hl : c.length = 20) :
    ∃ close, Abi.encode [.address] [.bytes c] = .ok close ∧ close.length = 32 := by
  have hparts : ∃ ps, Abi.encodeParts [.address] [.bytes c] = .ok ps := by
    rw [Abi.exists_encodeParts_cons, Abi.Kind.address, Abi.Kind.exists_writes_word]
    exact ⟨Abi.WordKind.exists_writes_address.mpr hl, [], rfl⟩
  obtain ⟨close, h⟩ := (Abi.exists_encode_iff rfl (by decide)).mpr hparts
  exact ⟨close, h, Abi.length_encode_of_isStatic rfl h⟩

/-! ## The lists -/

theorem exists_encode_outer_iff {bss : List Bytes} :
    (∃ data, Abi.encode outerKinds [.bytes actions, .list (bss.map .bytes)] = .ok data) ↔
      (∀ bs ∈ bss, bs.length < twoPow 256) ∧
        Abi.Part.inReach (Bytes.wordSize * bss.length) (Abi.Part.ofBlobs bss) = true := by
  rw [← Abi.Kind.exists_writes_bytesList]
  constructor
  · rintro ⟨data, h⟩
    obtain ⟨ps, hps, -⟩ := Abi.encode_eq_ok.mp h
    obtain ⟨_, _, -, hrest, -⟩ := Abi.encodeParts_cons_eq_ok.mp hps
    obtain ⟨part, _, hk, -, -⟩ := Abi.encodeParts_cons_eq_ok.mp hrest
    exact ⟨part, hk⟩
  · rintro ⟨part, hk⟩
    have hactions : Abi.Kind.bytes.Writes (.bytes actions) (.behind (Abi.blob actions)) := .bytes (by decide)
    have hparts : Abi.encodeParts outerKinds [.bytes actions, .list (bss.map .bytes)] =
        .ok [.behind (Abi.blob actions), part] :=
      Abi.encodeParts_cons_eq_ok.mpr ⟨_, _, hactions, Abi.encodeParts_cons_eq_ok.mpr ⟨_, _, hk, rfl, rfl⟩, rfl⟩
    refine ⟨_, Abi.encode_eq_ok.mpr ⟨_, hparts, ?_, rfl⟩⟩
    -- Both offsets are known, as the actions are: 64 and 128.
    refine Abi.Part.inReach_behind.mpr ⟨by decide, ?_⟩
    cases part with
    | inPlace words => rfl
    | behind data => exact Abi.Part.inReach_behind.mpr ⟨by decide, rfl⟩

/-- The last of three items, two of them words, is in reach when the first is not too long. -/
theorem inReach_params {mint close0 close1 : Bytes} (hm : mint.length = 416 + ceilWord hook.length)
    (h0 : close0.length = 32) (h1 : close1.length = 32) :
    ((∀ bs ∈ [mint, close0, close1], bs.length < twoPow 256) ∧
      Abi.Part.inReach (Bytes.wordSize * [mint, close0, close1].length)
        (Abi.Part.ofBlobs [mint, close0, close1]) = true) ↔ hook.length + 640 ≤ twoPow 256 := by
  have hword : twoPow 256 = 32 * twoPow 251 := by decide
  simp only [List.forall_mem_cons, List.not_mem_nil, false_imp_iff, implies_true, and_true, Abi.Part.ofBlobs,
    List.map_cons, List.map_nil, Abi.Part.inReach, Bool.and_eq_true, decide_eq_true_eq, Abi.length_blob, hm, h0, h1,
    List.length_cons, List.length_nil, Bytes.wordSize, ceilWord]
  omega

end

/-! ## Data -/

theorem exists_encode_iff {p : Position} {c0 c1 hooks recipient hook : Bytes}
    (hd : Denotes p c0 c1 hooks recipient hook) (hl : recipient.length = 20) :
    (∃ data, encode p = .ok data) ↔ InRange p ∧ hook.length + 640 ≤ twoPow 256 := by
  obtain ⟨close0, h0, l0⟩ := exists_encode_close hd.key.length0
  obtain ⟨close1, h1, l1⟩ := exists_encode_close hd.key.length1
  have hmint := exists_encode_mint_iff hd hl
  simp only [hd.encode_eq hl, h0, h1, ok_bind, bind_eq_ok]
  constructor
  · rintro ⟨data, mint, hm, he⟩
    have hreach := (@exists_encode_outer_iff [mint, close0, close1]).mp ⟨data, he⟩
    exact ⟨(hmint.mp ⟨mint, hm⟩).1, (inReach_params (length_encode_mint hm) l0 l1).mp hreach⟩
  · rintro ⟨hin, hle⟩
    obtain ⟨mint, hm⟩ := hmint.mpr ⟨hin, by omega⟩
    obtain ⟨data, he⟩ := exists_encode_outer_iff.mpr ((inReach_params (length_encode_mint hm) l0 l1).mpr hle)
    exact ⟨data, mint, hm, he⟩

/-- **The data of a mint is read as what was given**, and there is data exactly when the numbers are in range. The
last offset in it fits a word. -/
theorem unlock_round_trip {p : Position} (hk : Key.Made p.key) {enc : Bytes} (he : p.key.preimage = .ok enc)
    {recipient : Bytes} (hl : recipient.length = 20) (hr : Address.Spells p.recipient recipient) {hook : Bytes}
    (hh : Blob.Gives p.hookData hook) :
    ((∃ data, encode p = .ok data) ↔ InRange p ∧ hook.length + 640 ≤ twoPow 256) ∧
      ∀ data, encode p = .ok data → ∃ mint close0 close1,
        decode [.bytes, .bytesList] data =
          .ok [.bytes [0x02, 0x12, 0x12], .list [.bytes mint, .bytes close0, .bytes close1]] ∧
        decode mintKinds mint = .ok (readMint p recipient hook) ∧
        decode [.address] close0 = .ok [.text p.key.currency0] ∧
        decode [.address] close1 = .ok [.text p.key.currency1] := by
  have hn := (Key.made_iff.mp hk).normal
  obtain ⟨c0, c1, hooks, hd, hparts⟩ := (Key.preimage_eq_ok hn).mp he
  have hrecipient := Address.normalize_eq_literal_iff.mpr hr
  refine ⟨exists_encode_iff ⟨hd, ⟨enc, hparts⟩, hrecipient, hh.ofValue_eq⟩ hl, ?_⟩
  intro data hdata
  obtain ⟨_, _, _, recipient', hook', mint, close0, close1, hd', houter, hmint, hclose0, hclose1⟩ :=
    decode_encode hdata hn
  obtain rfl : recipient' = recipient := Hex.literal_inj (hd'.recipient.symm.trans hrecipient)
  obtain rfl : hook' = hook := Except.ok.inj (hd'.hook.symm.trans hh.ofValue_eq)
  exact ⟨mint, close0, close1, houter, hmint, hclose0, hclose1⟩

def somePosition (tickUpper : Int) : Position :=
  { key := Key.letterKey, tickLower := -60, tickUpper, liquidity := 1000, recipient := Key.bareA,
    hookData := .text "0XaBcD" }

/-- A position with a hook, its data given as text, and the same with a tick that is out of range. -/
theorem some_unlock_round_trip :
    (∃ data mint close0 close1, encode (somePosition 60) = .ok data ∧
      decode [.bytes, .bytesList] data =
        .ok [.bytes [0x02, 0x12, 0x12], .list [.bytes mint, .bytes close0, .bytes close1]] ∧
      decode mintKinds mint = .ok (readMint (somePosition 60) (Key.someOctets 0xab) [0xab, 0xcd])) ∧
      ∀ data, encode (somePosition (twoPow 23)) ≠ .ok data := by
  have hmade : Key.Made Key.letterKey := Key.made_iff.mpr Key.checked_letterKey
  obtain ⟨enc, he⟩ := Key.exists_preimage_letterKey
  have hr : Address.Spells Key.bareA (Key.someOctets 0xab) := by decide
  have hh : Blob.Gives (.text "0XaBcD") [0xab, 0xcd] := .text (by decide)
  have hround := fun tick => @unlock_round_trip (somePosition tick) hmade enc he _ rfl hr _ hh
  have hin : InRange (somePosition 60) := by
    refine ⟨⟨?_, ?_⟩, ⟨?_, ?_⟩, ⟨?_, ?_⟩, ⟨?_, ?_⟩, ⟨?_, ?_⟩⟩ <;> decide
  constructor
  · obtain ⟨hiff, hread⟩ := hround 60
    obtain ⟨data, hdata⟩ := hiff.mpr ⟨hin, by decide⟩
    obtain ⟨mint, close0, close1, houter, hmint, -, -⟩ := hread data hdata
    exact ⟨data, mint, close0, close1, hdata, houter, hmint⟩
  · intro data hdata
    obtain ⟨hout, -⟩ := (hround (twoPow 23)).1.mp ⟨data, hdata⟩
    exact Int.lt_irrefl _ hout.tickUpper.2

end DefiActions.Pool.Mint
