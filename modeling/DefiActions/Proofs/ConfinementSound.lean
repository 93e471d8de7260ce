import DefiActions.Proofs.LendingSound
import DefiActions.Proofs.MembersLemmas
import DefiActions.Proofs.SwapSound

/-!
# What a reader can move

Two runs that differ in the reader sign reports that agree on every field but
one: the price limit of a swap, the aToken of a withdrawal that looks it up.
They submit to one receiver with one gas limit.
-/

namespace DefiActions

/-! ## Reports that agree -/

/-- The reports agree on every field but one. -/
structure Report.Descriptor.AgreeBut (name : String) (d d' : Report.Descriptor) : Prop where
  kind : d.kind = d'.kind
  get : ∀ f ∈ Report.schema d.kind, f.name ≠ name → d.get f.name = d'.get f.name

theorem Report.agreeBut_of_make {kind : Report.Kind} {given : Members} {name : String} {v v' : Value}
    {d d' : Report.Descriptor} (h : Report.Descriptor.make kind (given ++ [(name, v)]) = .ok d)
    (h' : Report.Descriptor.make kind (given ++ [(name, v')]) = .ok d') : d.filled.AgreeBut name d'.filled where
  kind := (Report.isNormal_of_make h).1.trans (Report.isNormal_of_make h').1.symm
  get f hf hne := by
    have hk : d.filled.kind = kind := (Report.isNormal_of_make h).1
    rw [hk] at hf
    refine Report.get_filled_congr h h' hf ?_
    rw [Members.get?_append_of_ne hne, Members.get?_append_of_ne hne]

theorem Disciplined.submission_eq {c c' : Collaborators} {receiver gas : String} {Encoded Encoded' : Bytes → Prop}
    {result result' : Except Failure ActionResult} {t t' : Trace} (h : Disciplined c receiver gas Encoded result t)
    (h' : Disciplined c' receiver gas Encoded' result' t') {s s' : Submission} (hs : s ∈ t.submissions)
    (hs' : s' ∈ t'.submissions) : s = s' := by
  obtain ⟨-, hreceiver, -, hgas⟩ := h.signed_of_written s hs
  obtain ⟨-, hreceiver', -, hgas'⟩ := h'.signed_of_written s' hs'
  have hlimit : s.gasLimit = s'.gasLimit := Except.ok.inj (hgas.symm.trans hgas')
  cases s
  cases s'
  rw [Submission.mk.injEq]
  exact ⟨hreceiver.trans hreceiver'.symm, hlimit⟩

namespace Workflow

open Config (SwapConfig LendingConfig)
open Run (exec)

/-! ## Swaps -/

/-- Whoever answers, what is signed at one time for one configuration differs in its price limit only. -/
theorem Swap.agreeBut_of_signed {config : SwapConfig} {c c' : Collaborators} (hnow : c.now = c'.now) {p p' : Bytes}
    (hp : p ∈ (Run.start (Swap.run config c)).2.payloads) (hp' : p' ∈ (Run.start (Swap.run config c')).2.payloads) :
    ∃ d d', Report.decode .swap p = .ok d ∧ Report.decode .swap p' = .ok d' ∧
      d.AgreeBut "sqrt_price_limit_x96" d' := by
  obtain ⟨prepared, t, hprep, he, -⟩ := Swap.exists_prepared_of_signed hp
  obtain ⟨prepared', t', hprep', he', -⟩ := Swap.exists_prepared_of_signed hp'
  obtain ⟨key, zeroForOne, text, amountIn, limit, hkey, htext, -, hamount, hminimum, hd⟩ :=
    Swap.make_of_prepare hprep
  obtain ⟨key', zeroForOne', text', amountIn', limit', hkey', htext', -, hamount', hminimum', hd'⟩ :=
    Swap.make_of_prepare hprep'
  obtain ⟨rfl, rfl⟩ := Prod.mk.inj (Except.ok.inj (hkey.symm.trans hkey'))
  obtain rfl := Except.ok.inj (htext.symm.trans htext')
  obtain rfl := Except.ok.inj (hamount.symm.trans hamount')
  have hm : prepared.minimumOut = prepared'.minimumOut := Except.ok.inj (hminimum.symm.trans hminimum')
  rw [← hm, ← hnow] at hd'
  refine ⟨_, _, Report.decode_payload hd he, Report.decode_payload hd' he', ?_⟩
  -- The price limit is the last of the fields.
  exact @Report.agreeBut_of_make .swap (Swap.fields key zeroForOne amountIn prepared.minimumOut config.input.wallet
    _ _ _ limit).dropLast _ _ _ _ _ hd hd'

/-! ## Lending operations -/

/-- Whoever answers, what is signed for one configuration
differs in the aToken only, and there where it is looked up. -/
theorem Lending.agreeBut_of_signed {config : LendingConfig} {c c' : Collaborators} {p p' : Bytes}
    (hp : p ∈ (Run.start (Lending.run config c)).2.payloads)
    (hp' : p' ∈ (Run.start (Lending.run config c')).2.payloads) :
    ∃ d d', Report.decode .lending p = .ok d ∧ Report.decode .lending p' = .ok d' ∧
      d.AgreeBut "a_token_address" d' ∧
        (d.get "a_token_address" ≠ d'.get "a_token_address" → Lending.LooksUp config) := by
  obtain ⟨report, t, hprep, he⟩ := Lending.exists_prepared_of_signed hp
  obtain ⟨report', t', hprep', he'⟩ := Lending.exists_prepared_of_signed hp'
  obtain ⟨operation, pool, amount, token, hoperation, hpool, hamount, htoken, hd⟩ := Lending.prepare_eq_ok hprep
  obtain ⟨operation', pool', amount', token', hoperation', hpool', hamount', htoken', hd'⟩ :=
    Lending.prepare_eq_ok hprep'
  obtain rfl := Except.ok.inj (hoperation.symm.trans hoperation')
  obtain rfl := Except.ok.inj (hpool.symm.trans hpool')
  obtain rfl := Except.ok.inj (hamount.symm.trans hamount')
  refine ⟨_, _, Report.decode_payload hd he, Report.decode_payload hd' he', Report.agreeBut_of_make hd hd', ?_⟩
  contrapose!
  intro hconfigured
  rw [Lending.aToken_of_configured hconfigured] at htoken htoken'
  obtain rfl := Except.ok.inj (congrArg Prod.fst (htoken.symm.trans htoken'))
  rw [Except.ok.inj (hd.symm.trans hd')]

/-! ## Both -/

/-- **A reader moves nothing but the price limit of a swap and the aToken of a withdrawal that looks it up.** -/
theorem reads_confined (c : Collaborators) (reader : Option Reader) :
    (∀ config : SwapConfig,
      (∀ p ∈ (Run.start (Swap.run config c)).2.payloads,
        ∀ p' ∈ (Run.start (Swap.run config { c with reader })).2.payloads,
          ∃ d d', Report.decode .swap p = .ok d ∧ Report.decode .swap p' = .ok d' ∧
            d.AgreeBut "sqrt_price_limit_x96" d') ∧
      ∀ s ∈ (Run.start (Swap.run config c)).2.submissions,
        ∀ s' ∈ (Run.start (Swap.run config { c with reader })).2.submissions, s = s') ∧
    (∀ config : LendingConfig,
      (∀ p ∈ (Run.start (Lending.run config c)).2.payloads,
        ∀ p' ∈ (Run.start (Lending.run config { c with reader })).2.payloads,
          ∃ d d', Report.decode .lending p = .ok d ∧ Report.decode .lending p' = .ok d' ∧
            d.AgreeBut "a_token_address" d' ∧
            (d.get "a_token_address" ≠ d'.get "a_token_address" → Lending.LooksUp config)) ∧
      (¬ Lending.LooksUp config → (Run.start (Lending.run config c)).2.reads = []) ∧
      ∀ s ∈ (Run.start (Lending.run config c)).2.submissions,
        ∀ s' ∈ (Run.start (Lending.run config { c with reader })).2.submissions, s = s') := by
  have hnow : c.now = ({ c with reader } : Collaborators).now := rfl
  refine ⟨fun config => ⟨?_, ?_⟩, fun config => ⟨?_, ?_, ?_⟩⟩
  · intro p hp p' hp'
    exact Swap.agreeBut_of_signed hnow hp hp'
  · intro s hs s' hs'
    exact (Swap.disciplined config c).submission_eq (Swap.disciplined config { c with reader }) hs hs'
  · intro p hp p' hp'
    exact Lending.agreeBut_of_signed hp hp'
  · intro h
    exact Lending.reads_eq_nil h c
  · intro s hs s' hs'
    exact (Lending.disciplined config c).submission_eq (Lending.disciplined config { c with reader }) hs hs'

/-! ## Two readers -/

open Swap (someSwap someReport someWire)
open Pool.Key (someOctets)

def signing (answer : Bytes) : Collaborators where
  reader := some fun _ _ _ => .ok answer
  signer := some fun _ p => .ok ⟨p⟩
  writer := some fun _ _ _ _ => .error .fieldType

/-! ### Of prices -/

def stateAt (price : Nat) : Bytes := [price, 0, 0, 3000].flatMap Bytes.word

theorem signed_someSwap {price : Nat} (hstate : ContractCall.decodeSlot0 (stateAt price) = .ok ⟨price, 0, 0, 3000⟩)
    (hprice : (price : Int) ≠ 0) (hlimit : PriceLimit.after {} price false = .ok (price + 1))
    (hwire : (Abi.encode (Report.kinds .swap) (someWire (price + 1))).toBool = true) :
    (∃ p ∈ (Run.start (Swap.run someSwap (signing (stateAt price)))).2.payloads,
      Report.decode .swap p = .ok (someReport (price + 1)).filled) ∧
    (Run.start (Swap.run someSwap (signing (stateAt price)))).2.submissions = [⟨"receiver", 500000⟩] := by
  obtain ⟨p, hw⟩ := exists_eq_ok hwire
  obtain ⟨hmake, he⟩ := Swap.make_someReport (signing (stateAt price)) hw
  obtain ⟨t, hp⟩ := Swap.exec_prepare_of_limit (c := signing (stateAt price))
    (Swap.exec_priceLimit_of_state rfl hstate hprice hlimit) hw
  have hg : gasLimit someSwap.gasLimit = .ok 500000 := by decide
  obtain ⟨t', hx⟩ := Swap.exec_ready hp he hg
  have hsound := Swap.stages_sound someSwap (signing (stateAt price))
  rw [Run.start_eq, Swap.run_eq]
  refine ⟨⟨p, hsound.mem_payloads_of_ready rfl rfl hx, ?_⟩, hsound.submissions_of_ready rfl rfl hx rfl⟩
  exact Report.decode_payload hmake he

/-! ### Of reserves -/

def reserveWith (token : UInt8) : Bytes :=
  [0, 0, 0, 0, 0, 0, 0, 0, token.toNat, 0, 0, 0, 0, 0, 0].flatMap Bytes.word

def someWithdrawal : LendingConfig where
  chain := "ethereum"
  receiver := "receiver"
  pool := Hex.literal (someOctets 1)
  gasLimit := "500000"
  operation := "WITHDRAW"
  asset := ⟨Hex.literal (someOctets 2), none⟩
  amount := "5"
  wallet := Hex.literal (someOctets 3)
  rateMode := none
  onBehalfOf := none
  referralCode := none

theorem looksUp_someWithdrawal : Lending.LooksUp someWithdrawal := ⟨rfl, nofun⟩

def withdrawal (token : UInt8) : Report.Descriptor :=
  ⟨.lending, [.int 1, .text (Hex.literal (someOctets 1)), .text (Hex.literal (someOctets 2)), .int 5,
    .text (Hex.literal (someOctets 3)), .text (Hex.literal (someOctets 3)), .int 2, .int 0,
    .text (Hex.literal (someOctets token))]⟩

def withdrawalWire (token : UInt8) : List Value := [.int 1, .bytes (someOctets 1), .bytes (someOctets 2), .int 5,
  .bytes (someOctets 3), .bytes (someOctets 3), .int 2, .int 0, .bytes (someOctets token)]

theorem make_withdrawal {token : UInt8} {payload : Bytes}
    (h : Abi.encode (Report.kinds .lending) (withdrawalWire token) = .ok payload) :
    Report.Descriptor.make .lending (Lending.terms someWithdrawal 1 (Hex.literal (someOctets 1)) 5 ++
      [("a_token_address", .text (Hex.literal (someOctets token)))]) = .ok (withdrawal token) ∧
    Report.encode (withdrawal token) = .ok payload := by
  obtain ⟨hmake, -, he⟩ := Report.encode_readBackAll h rfl
  exact ⟨hmake, he⟩

theorem signed_someWithdrawal {token : UInt8}
    (htoken : ContractCall.decodeReserveAToken (reserveWith token) = .ok (Hex.literal (someOctets token)))
    (hwire : (Abi.encode (Report.kinds .lending) (withdrawalWire token)).toBool = true) :
    (∃ p ∈ (Run.start (Lending.run someWithdrawal (signing (reserveWith token)))).2.payloads,
      Report.decode .lending p = .ok (withdrawal token).filled) ∧
    (Run.start (Lending.run someWithdrawal (signing (reserveWith token)))).2.submissions =
      [⟨"receiver", 500000⟩] := by
  obtain ⟨call, hcall⟩ : ∃ call, ContractCall.reserveData someWithdrawal.asset.address = .ok call := by
    obtain ⟨octets, ho⟩ : ∃ bs, Abi.encode [.address] [.bytes (someOctets 2)] = .ok bs := exists_eq_ok (by decide)
    rw [ContractCall.reserveData, someWithdrawal, Address.toBytes_literal rfl, ok_bind, ho]
    exact ⟨_, rfl⟩
  obtain ⟨t, ht⟩ : ∃ t, exec (Lending.aToken someWithdrawal (signing (reserveWith token))
      (Hex.literal (someOctets 1))) {} = (.ok (Hex.literal (someOctets token)), t) :=
    Lending.exec_aToken_of_answer looksUp_someWithdrawal rfl hcall rfl htoken
  have hgiven : ∀ s ∈ [someWithdrawal.receiver, someWithdrawal.wallet, someWithdrawal.asset.address],
      Text.isVacant s = false := by decide
  have hpool : Lending.poolAddress someWithdrawal = .ok (Hex.literal (someOctets 1)) := by decide
  have hamount : Uint256.ofText someWithdrawal.amount = .ok 5 := by decide
  obtain ⟨p, hw⟩ := exists_eq_ok hwire
  obtain ⟨hmake, he⟩ := make_withdrawal hw
  have hp := Lending.exec_prepare hgiven rfl hpool hamount ht hmake
  have hg : gasLimit someWithdrawal.gasLimit = .ok 500000 := by decide
  obtain ⟨t', hx⟩ := Lending.exec_ready hp he hg
  have hsound := Lending.stages_sound someWithdrawal (signing (reserveWith token))
  rw [Run.start_eq, Lending.run_eq]
  refine ⟨⟨p, hsound.mem_payloads_of_ready rfl rfl hx, ?_⟩, hsound.submissions_of_ready rfl rfl hx rfl⟩
  exact Report.decode_payload hmake he

def someSupply : LendingConfig := { someWithdrawal with operation := "SUPPLY" }

theorem not_looksUp_someSupply : ¬ Lending.LooksUp someSupply := fun h => absurd h.1 (by decide)

/-- A swap at two prices and a withdrawal with two reserves: the reports do differ, in the one field. -/
theorem some_reads_confined :
    (∃ p ∈ (Run.start (Swap.run someSwap (signing (stateAt (twoPow 96))))).2.payloads,
      ∃ p' ∈ (Run.start (Swap.run someSwap (signing (stateAt (twoPow 97))))).2.payloads, ∃ d d',
        Report.decode .swap p = .ok d ∧ Report.decode .swap p' = .ok d' ∧ d.AgreeBut "sqrt_price_limit_x96" d' ∧
          d.get "sqrt_price_limit_x96" = .int (twoPow 96 + 1) ∧
            d'.get "sqrt_price_limit_x96" = .int (twoPow 97 + 1)) ∧
    (∃ s ∈ (Run.start (Swap.run someSwap (signing (stateAt (twoPow 96))))).2.submissions,
      ∃ s' ∈ (Run.start (Swap.run someSwap (signing (stateAt (twoPow 97))))).2.submissions, s = s') ∧
    (∃ p ∈ (Run.start (Lending.run someWithdrawal (signing (reserveWith 8)))).2.payloads,
      ∃ p' ∈ (Run.start (Lending.run someWithdrawal (signing (reserveWith 9)))).2.payloads, ∃ d d',
        Report.decode .lending p = .ok d ∧ Report.decode .lending p' = .ok d' ∧ d.AgreeBut "a_token_address" d' ∧
          d.get "a_token_address" ≠ d'.get "a_token_address" ∧ Lending.LooksUp someWithdrawal) ∧
    (∃ s ∈ (Run.start (Lending.run someWithdrawal (signing (reserveWith 8)))).2.submissions,
      ∃ s' ∈ (Run.start (Lending.run someWithdrawal (signing (reserveWith 9)))).2.submissions, s = s') ∧
    ¬ Lending.LooksUp someSupply ∧ (Run.start (Lending.run someSupply (signing (reserveWith 8)))).2.reads = [] := by
  obtain ⟨⟨p, hp, hd⟩, hs⟩ := @signed_someSwap (twoPow 96) (eq_ok_of_isOk (by decide +kernel)) (by decide +kernel)
    (by decide +kernel) (by decide +kernel)
  obtain ⟨⟨p', hp', hd'⟩, hs'⟩ :=
    @signed_someSwap (twoPow 97) (eq_ok_of_isOk (by decide +kernel)) (by decide +kernel)
    (by decide +kernel) (by decide +kernel)
  obtain ⟨⟨q, hq, he⟩, hr⟩ := @signed_someWithdrawal 8 (eq_ok_of_isOk (by decide +kernel)) (by decide +kernel)
  obtain ⟨⟨q', hq', he'⟩, hr'⟩ := @signed_someWithdrawal 9 (eq_ok_of_isOk (by decide +kernel)) (by decide +kernel)
  have hsame (a b : Bytes) : ({ signing a with reader := (signing b).reader } : Collaborators) = signing b := rfl
  obtain ⟨hswap, -⟩ := reads_confined (signing (stateAt (twoPow 96))) (signing (stateAt (twoPow 97))).reader
  obtain ⟨-, hlending⟩ := reads_confined (signing (reserveWith 8)) (signing (reserveWith 9)).reader
  rw [hsame] at hswap hlending
  obtain ⟨d, d', h, h', hagree⟩ := (hswap someSwap).1 p hp p' hp'
  obtain ⟨e, e', k, k', hagree', hlooks⟩ := (hlending someWithdrawal).1 q hq q' hq'
  obtain rfl := Except.ok.inj (h.symm.trans hd)
  obtain rfl := Except.ok.inj (h'.symm.trans hd')
  obtain rfl := Except.ok.inj (k.symm.trans he)
  obtain rfl := Except.ok.inj (k'.symm.trans he')
  have hne : (withdrawal 8).filled.get "a_token_address" ≠ (withdrawal 9).filled.get "a_token_address" := by
    intro h
    have hliteral : Hex.literal (someOctets 8) = Hex.literal (someOctets 9) := Value.text.inj h
    exact absurd (Hex.literal_inj hliteral) (by decide)
  have hone {xs : List Submission} {x : Submission} (h : xs = [x]) : x ∈ xs := h ▸ List.mem_singleton_self x
  refine ⟨⟨p, hp, p', hp', _, _, h, h', hagree, rfl, rfl⟩, ?_, ?_, ?_, not_looksUp_someSupply, ?_⟩
  · exact ⟨_, hone hs, _, hone hs', (hswap someSwap).2 _ (hone hs) _ (hone hs')⟩
  · exact ⟨q, hq, q', hq', _, _, k, k', hagree', hne, hlooks hne⟩
  · exact ⟨_, hone hr, _, hone hr', (hlending someWithdrawal).2.2 _ (hone hr) _ (hone hr')⟩
  · exact (hlending someSupply).2.1 not_looksUp_someSupply

end Workflow

end DefiActions
