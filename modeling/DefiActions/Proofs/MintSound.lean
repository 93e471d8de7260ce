import DefiActions.Pool.Mint
import DefiActions.Proofs.PoolSound

/-!
# Minting data

The data of a mint is a list of action codes and a list of parameters, each of
which is encoded on its own. Reading it twice, the outer lists first and then
each parameter, gives the position back.
-/

namespace DefiActions.Pool.Mint

open Abi (decode)

/-! ## Parameters -/

theorem sized_of_mem_mintKinds : ∀ k ∈ mintKinds, k.sized = true := by decide

theorem sized_of_mem_outerKinds : ∀ k ∈ outerKinds, k.sized = true := by decide

def readMint (p : Position) (recipient hook : Bytes) : List Value :=
  [.list [.text p.key.currency0, .text p.key.currency1, p.key.fee.toValue, p.key.spacing.toValue,
      .text p.key.hooks],
    .int p.tickLower, .int p.tickUpper, .int p.liquidity, .int p.maximum0, .int p.maximum1,
    .text (Hex.literal recipient), .bytes hook]

structure Denotes (p : Position) (c0 c1 hooks recipient hook : Bytes) : Prop where
  key : p.key.Denotes c0 c1 hooks
  parts : ∃ enc, Abi.WordKind.encodeAll Key.kinds (p.key.wireParts c0 c1 hooks) = .ok enc
  recipient : Address.normalize p.recipient = Hex.literal recipient
  hook : Blob.ofValue p.hookData = .ok hook

theorem readBackAll_wireParts {k : Key} {c0 c1 hooks : Bytes} (h : k.Denotes c0 c1 hooks) :
    Abi.WordKind.readBackAll Key.kinds (k.wireParts c0 c1 hooks) =
      [.text k.currency0, .text k.currency1, k.fee.toValue, k.spacing.toValue, .text k.hooks] := by
  rw [h.currency0, h.currency1, h.hooks]
  rfl

/-- Of a parameter that was encoded, the key is made of words and the recipient is an address. -/
theorem key_and_recipient_of_encode {p : Position} {parts : List Value} {recipient hook mint : Bytes}
    (h : Abi.encode mintKinds [.list parts, .int p.tickLower, .int p.tickUpper, .int p.liquidity, .int p.maximum0,
      .int p.maximum1, .bytes recipient, .bytes hook] = .ok mint) :
    (∃ enc, Abi.WordKind.encodeAll Key.kinds parts = .ok enc) ∧ recipient.length = 20 := by
  obtain ⟨ps, hps, -⟩ := bind_eq_ok.mp h
  simp only [mintKinds, Abi.encodeParts_cons_eq_ok, List.headD_cons, List.tail_cons] at hps
  obtain ⟨_, _, hkey, ⟨_, _, -, ⟨_, _, -, ⟨_, _, -, ⟨_, _, -, ⟨_, _, -, ⟨_, _, hrec, -, -⟩, -⟩, -⟩, -⟩, -⟩, -⟩,
    -⟩ := hps
  obtain ⟨_, hword, -⟩ := hrec.exists_word
  obtain ⟨_, hbytes, hl⟩ := hword.exists_bytes
  rw [← Value.bytes.inj hbytes] at hl
  exact ⟨hkey.exists_words, hl⟩

theorem mintParameter_eq_ok {p : Position} {mint : Bytes} (h : mintParameter p = .ok mint) (hn : p.key.IsNormal) :
    ∃ c0 c1 hooks recipient hook, Denotes p c0 c1 hooks recipient hook ∧
      decode mintKinds mint = .ok (readMint p recipient hook) := by
  simp only [mintParameter, Key.parts, bind_eq_ok, pure_eq_ok] at h
  obtain ⟨_, ⟨c0, hc0, c1, hc1, hooks, hhooks, rfl⟩, recipient, hr, hook, hhook, he⟩ := h
  have hdec := Abi.decode_encode sized_of_mem_mintKinds he []
  obtain ⟨⟨enc, henc⟩, hlr⟩ := key_and_recipient_of_encode he
  have hk := Key.denotes_of_encodeAll hn hc0 hc1 hhooks henc
  refine ⟨c0, c1, hooks, recipient, hook, ⟨hk, ⟨enc, henc⟩, (Address.toBytes_iff hlr).mp hr, hhook⟩, ?_⟩
  rw [List.append_nil] at hdec
  rw [hdec, readMint, ← readBackAll_wireParts hk]
  simp [Abi.readBackAll, mintKinds, Abi.Kind.readBack, Abi.Kind.int, Abi.Kind.uint, Abi.Kind.address,
    Abi.WordKind.readBack, Key.wireParts]

theorem decode_closeParameter {currency : String} {bs : Bytes} (hl : bs.length = 20)
    (hc : currency = Hex.literal bs)
    {close : Bytes} (h : closeParameter currency = .ok close) : decode [.address] close = .ok [.text currency] := by
  simp only [closeParameter, bind_eq_ok, hc, Address.toBytes_literal hl, Except.ok.injEq] at h
  obtain ⟨_, rfl, he⟩ := h
  have hsized : ∀ k ∈ [Abi.Kind.address], k.sized = true := by decide
  have hdec := Abi.decode_encode hsized he []
  rw [List.append_nil] at hdec
  exact hdec.trans (by rw [hc]; rfl)

/-! ## Data -/

/-- **The data of a mint is read as the position that it mints.** -/
theorem decode_encode {p : Position} {data : Bytes} (h : encode p = .ok data) (hn : p.key.IsNormal) :
    ∃ c0 c1 hooks recipient hook mint close0 close1, Denotes p c0 c1 hooks recipient hook ∧
      decode outerKinds data = .ok [.bytes actions, .list [.bytes mint, .bytes close0, .bytes close1]] ∧
      decode mintKinds mint = .ok (readMint p recipient hook) ∧
      decode [.address] close0 = .ok [.text p.key.currency0] ∧
      decode [.address] close1 = .ok [.text p.key.currency1] := by
  simp only [encode, bind_eq_ok] at h
  obtain ⟨mint, hmint, close0, hclose0, close1, hclose1, he⟩ := h
  obtain ⟨c0, c1, hooks, recipient, hook, hd, hdec⟩ := mintParameter_eq_ok hmint hn
  have hdec0 := decode_closeParameter hd.key.length0 hd.key.currency0 hclose0
  have hdec1 := decode_closeParameter hd.key.length1 hd.key.currency1 hclose1
  have houter := Abi.decode_encode sized_of_mem_outerKinds he []
  rw [List.append_nil] at houter
  exact ⟨c0, c1, hooks, recipient, hook, mint, close0, close1, hd, houter, hdec, hdec0, hdec1⟩

/-- Only octets are encoded, however the texts are spelled that write them. -/
theorem Denotes.encode_eq {p : Position} {c0 c1 hooks recipient hook : Bytes}
    (hd : Denotes p c0 c1 hooks recipient hook) (hl : recipient.length = 20) : encode p = (do
      let mint ← Abi.encode mintKinds [.list (p.key.wireParts c0 c1 hooks), .int p.tickLower, .int p.tickUpper,
        .int p.liquidity, .int p.maximum0, .int p.maximum1, .bytes recipient, .bytes hook]
      let close0 ← Abi.encode [.address] [.bytes c0]
      let close1 ← Abi.encode [.address] [.bytes c1]
      Abi.encode outerKinds [.bytes actions, .list [.bytes mint, .bytes close0, .bytes close1]]) := by
  obtain ⟨hc0, hc1, -⟩ := hd.key.toBytes
  have hr : Address.toBytes p.recipient = .ok recipient := (Address.toBytes_iff hl).mpr hd.recipient
  simp only [encode, mintParameter, closeParameter, hd.key.parts_eq, hc0, hc1, hr, hd.hook, ok_bind]

end DefiActions.Pool.Mint
