import DefiActions.Proofs.AbiStrict
import DefiActions.Proofs.ContainmentSound
import DefiActions.Proofs.JsonLemmas
import DefiActions.Proofs.RouteSound
import DefiActions.Proofs.Uint256Sound

/-!
# Bad quotes

Whatever a quote service answers, a call that can be read and encoded is signed,
and what is wrong with any other answer is reported as a bad response. Three
things are overlooked, so that the failure is reported without a category: an
integer past the numeral limit, a value to be sent that is no number at all, and
a call with no place in the report.
-/

namespace DefiActions.Workflow.Route

open Config (RouteConfig)
open Run (exec)

theorem shown_of_hasText {v : Value} (h : v.HasText) : ∃ s, shown v = .ok s := by
  obtain ⟨s, hs⟩ := h.exists_display
  exact ⟨s, by rw [shown, hs]⟩

/-! ## Documents -/

def IsBad (f : Failure) : Prop := ∃ message, f = .badResponse message

def TooLong (body : Bytes) (digits : Nat) : Prop :=
  ∃ cs, Utf8.decode? body = some cs ∧ Json.read cs = .error (.integerTooLong digits)

theorem parseQuote_eq_error {body : Bytes} {f : Failure} (h : parseQuote body = .error f) :
    IsBad f ∨ ∃ digits, TooLong body digits ∧ f = .rejected (.numeralTooLong (some digits)) := by
  rcases bind_eq_error.mp h with h | ⟨v, -, h⟩
  · obtain ⟨e, he, rfl⟩ := mapError_eq_error.mp h
    rcases Json.documentOfBytes_eq_error.mp he with ⟨-, rfl⟩ | ⟨cs, fault, hcs, hfault, rfl⟩
    · exact .inl ⟨_, rfl⟩
    · cases fault with
      | malformed => exact .inl ⟨_, rfl⟩
      | integerTooLong digits => exact .inr ⟨digits, ⟨cs, hcs, hfault⟩, rfl⟩
  · split at h
    · cases h
    · cases h
      exact .inl ⟨_, rfl⟩

theorem parseQuote_of_tooLong {body : Bytes} {digits : Nat} (h : TooLong body digits) :
    parseQuote body = .error (.rejected (.numeralTooLong (some digits))) := by
  obtain ⟨cs, hcs, hread⟩ := h
  rw [parseQuote, Json.documentOfBytes, hcs]
  simp only [Json.document, hread]
  rfl

theorem hasText_of_parseQuote {body : Bytes} {quote : Value} (h : parseQuote body = .ok quote) : quote.HasText := by
  obtain ⟨v, hv, h⟩ := bind_eq_ok.mp h
  have hdoc := mapError_eq_ok.mp hv
  unfold Json.documentOfBytes at hdoc
  split at hdoc
  · cases hdoc
  · split at h
    · obtain rfl := pure_eq_ok.mp h
      exact Json.hasText_of_document hdoc
    · cases h

/-! ## Values to be sent -/

/-- What is neither a number nor a text is not read as a number, and infinity is none. -/
inductive Unread : Value → Failure → Prop
  | list {items : List Value} (h : items ≠ []) : Unread (.list items) .wrongType
  | record {ms : Members} (h : ms ≠ []) : Unread (.record ms) .wrongType
  | infinite (negative : Bool) : Unread (.float (.infinite negative)) .tooLarge

theorem Unread.isSet {v : Value} {f : Failure} (h : Unread v f) : v.isSet = true := by
  cases h with
  | list h => simpa [Value.isSet] using h
  | record h => simpa [Value.isSet] using h
  | infinite negative => rfl

theorem Unread.ne_action {v : Value} {f : Failure} (h : Unread v f) (e : ActionError) : f ≠ .action e := by
  cases h <;> exact nofun

theorem callValue_of_unread {v : Value} {f : Failure} (h : Unread v f) (ht : v.HasText) :
    callValue v = .error f := by
  obtain ⟨s, hs⟩ := shown_of_hasText ht
  cases h with
  | list h => rw [callValue, hs]; rfl
  | record h => rw [callValue, hs]; rfl
  | infinite negative => rw [callValue, hs]; rfl

theorem callValue_eq_error {v : Value} {f : Failure} (h : callValue v = .error f) (hv : v.isSet = true) :
    f.IsRejected ∨ Unread v f := by
  rcases bind_eq_error.mp h with h | ⟨_, -, h⟩
  · exact .inl (refusing_shown _ _ h)
  cases v with
  | null => cases hv
  | text s => exact .inl (refusing_readNumeral _ _ _ h)
  | int n | bool b => cases h
  | bytes bs => exact .inl (refusing_readOctets _ _ h)
  | float x =>
    cases x with
    | nan => exact .inl (refusing_refuse _ _ h)
    | infinite negative =>
      cases h
      exact .inr (.infinite negative)
    | finite => cases h
  | list items =>
    cases h
    exact .inr (.list (by simpa [Value.isSet] using hv))
  | record ms =>
    cases h
    exact .inr (.record (by simpa [Value.isSet] using hv))

/-! ## Calls -/

structure Requested (body : Bytes) (request : Value) : Prop where
  document : ∃ quote, parseQuote body = .ok quote ∧ quote.member "transactionRequest" = request
  isRecord : ∃ ms, request = .record ms
  target : (request.member "to").isSet = true
  data : (request.member "data").isSet = true

structure Addressed (request : Value) (target : String) (data : Bytes) : Prop where
  target : (shown (request.member "to") >>= Address.normalizeValid) = .ok target
  data : (shown (request.member "data") >>= Blob.ofText) = .ok data

theorem readCall_eq (request : Value) : readCall request = do
    let target ← shown (request.member "to") >>= Address.normalizeValid
    let data ← shown (request.member "data") >>= Blob.ofText
    let value ← callValue (if (request.member "value").isSet then request.member "value" else .text "0")
    return ⟨target, data, value⟩ := by
  simp only [readCall, bind_assoc]

theorem callValue_zero : callValue (.text "0") = .ok 0 := by decide

theorem readCall_eq_error {request : Value} {f : Failure} (h : readCall request = .error f) :
    f.IsRejected ∨ ∃ target data, Addressed request target data ∧ Unread (request.member "value") f := by
  rw [readCall_eq] at h
  rcases bind_eq_error.mp h with h | ⟨target, ht, h⟩
  · exact .inl (failsAs_bind (refusing_shown _) (fun _ => Address.refusing_normalizeValid _) _ h)
  rcases bind_eq_error.mp h with h | ⟨data, hd, h⟩
  · exact .inl (failsAs_bind (refusing_shown _) (fun _ => refusing_ofDigits _) _ h)
  rcases bind_eq_error.mp h with h | ⟨value, -, h⟩
  · split at h
    · rename_i hset
      exact (callValue_eq_error h hset).imp_right fun hu => ⟨target, data, ⟨ht, hd⟩, hu⟩
    · rw [callValue_zero] at h
      cases h
  · cases h

theorem readCall_of_unread {request : Value} {target : String} {data : Bytes} {f : Failure}
    (ha : Addressed request target data) (hu : Unread (request.member "value") f)
    (ht : (request.member "value").HasText) : readCall request = .error f := by
  rw [readCall_eq, ha.target, ok_bind, ha.data, ok_bind, if_pos hu.isSet, callValue_of_unread hu ht]
  rfl

theorem malformed_of_isRejected {f : Failure} (h : f.IsRejected) : IsBad (malformed f) := by
  obtain ⟨r, rfl⟩ := h
  exact ⟨_, rfl⟩

theorem malformed_of_unread {v : Value} {f : Failure} (h : Unread v f) : malformed f = f := by
  cases h <;> rfl

theorem quotedCall_of_requested {body : Bytes} {request quote : Value} (h : Requested body request)
    (hq : parseQuote body = .ok quote) : quotedCall quote = (readCall request).mapError malformed := by
  obtain ⟨_, hq', hmember⟩ := h.document
  obtain rfl := Except.ok.inj (hq.symm.trans hq')
  obtain ⟨ms, rfl⟩ := h.isRecord
  rw [quotedCall, hmember]
  dsimp only
  rw [if_pos (by rw [h.target, h.data]; rfl)]

theorem quotedCall_cases {body : Bytes} {quote : Value} (hq : parseQuote body = .ok quote) :
    Requested body (quote.member "transactionRequest") ∨ ∃ f, IsBad f ∧ quotedCall quote = .error f := by
  unfold quotedCall
  split
  · rename_i ms hr
    dsimp only
    split
    · rename_i hset
      rw [Bool.and_eq_true] at hset
      rw [← hr] at hset
      exact .inl ⟨⟨quote, hq, rfl⟩, ⟨ms, hr⟩, hset.1, hset.2⟩
    · exact .inr ⟨_, ⟨_, rfl⟩, rfl⟩
  · exact .inr ⟨_, ⟨_, rfl⟩, rfl⟩

/-! ## Encoding -/

/-- What keeps a call from being encoded, in the order in which it is come across. -/
inductive Misfit (call : Call) : Failure → Prop
  | characters {position : Nat} (h : Hex.toBytes? (call.target.toList.drop 2) = .error position) :
    Misfit call (.rejected (.notHex position))
  | length {target : Bytes} (h : Hex.toBytes? (call.target.toList.drop 2) = .ok target) (hl : target.length ≠ 20) :
    Misfit call .fieldType
  | data {target : Bytes} (h : Hex.toBytes? (call.target.toList.drop 2) = .ok target) (hl : target.length = 20)
    (hd : twoPow 256 ≤ call.data.length) : Misfit call (Abi.unfit .fieldRange (.int call.data.length))
  | value {target : Bytes} (h : Hex.toBytes? (call.target.toList.drop 2) = .ok target) (hl : target.length = 20)
    (hd : call.data.length < twoPow 256) (hv : ¬ (0 ≤ call.value ∧ call.value < twoPow 256)) :
    Misfit call (Abi.unfit .fieldRange (.int call.value))

theorem Misfit.ne_action {call : Call} {f : Failure} (h : Misfit call f) (e : ActionError) : f ≠ .action e := by
  have hunfit : ∀ v, Abi.unfit .fieldRange v ≠ .action e := by
    intro v
    unfold Abi.unfit
    split <;> exact nofun
  cases h with
  | characters | length => exact nofun
  | data | value => exact hunfit _

structure Fits (call : Call) : Prop where
  target : ∃ target, Hex.toBytes? (call.target.toList.drop 2) = .ok target ∧ target.length = 20
  data : call.data.length < twoPow 256
  value : 0 ≤ call.value ∧ call.value < twoPow 256

theorem fits_or_misfit (call : Call) : Fits call ∨ ∃ f, Misfit call f := by
  cases h : Hex.toBytes? (call.target.toList.drop 2) with
  | error position => exact .inr ⟨_, .characters h⟩
  | ok target =>
    by_cases hl : target.length = 20
    · rcases Nat.lt_or_ge call.data.length (twoPow 256) with hd | hd
      · by_cases hv : 0 ≤ call.value ∧ call.value < twoPow 256
        · exact .inl ⟨⟨target, h, hl⟩, hd, hv⟩
        · exact .inr ⟨_, .value h hl hd hv⟩
      · exact .inr ⟨_, .data h hl hd⟩
    · exact .inr ⟨_, .length h hl⟩

def reportOf (config : RouteConfig) (call : Call) (amount : Nat) : Report.Descriptor :=
  ⟨.genericCall, [.text (Address.normalize call.target), .bytes call.data, .int call.value,
    .text (Address.normalize (sourceToken config.input.source.address)), .int amount,
    .text (Address.normalize config.input.wallet)]⟩

theorem make_terms (config : RouteConfig) (call : Call) (amount : Nat) :
    Report.Descriptor.make .genericCall (terms config call amount) = .ok (reportOf config call amount) := rfl

structure OwnAddresses (config : RouteConfig) (source wallet : Bytes) : Prop where
  source_eq : sourceToken config.input.source.address = Hex.literal source
  wallet_eq : Address.normalize config.input.wallet = Hex.literal wallet
  lengthSource : source.length = 20
  lengthWallet : wallet.length = 20

def wire (call : Call) (amount : Nat) (target source wallet : Bytes) : List Value :=
  [.bytes target, .bytes call.data, .int call.value, .bytes source, .int amount, .bytes wallet]

section

variable {config : RouteConfig} {call : Call} {amount : Nat} {target source wallet : Bytes}

theorem resolve_reportOf (ho : OwnAddresses config source wallet)
    (ht : Address.toBytes (Address.normalize call.target) = .ok target) :
    (reportOf config call amount).resolve = .ok (wire call amount target source wallet) := by
  refine mapM_eq_ok.mpr (.cons ?_ (.cons rfl (.cons rfl (.cons ?_ (.cons rfl (.cons ?_ .nil))))))
  · rw [Report.resolveField_address rfl, ht]
    rfl
  · rw [Report.resolveField_address rfl, ho.source_eq, Address.normalize_literal,
      Address.toBytes_literal ho.lengthSource]
    rfl
  · rw [Report.resolveField_address rfl, ho.wallet_eq, Address.toBytes_literal ho.lengthWallet]
    rfl

theorem toBytes_target (hn : Address.normalize call.target = call.target)
    (hv : Address.isValid call.target = true) :
    Address.toBytes (Address.normalize call.target) = Blob.ofDigits (call.target.toList.drop 2) := by
  rw [Address.toBytes, Address.normalizeValid_eq_ok.mpr ⟨rfl, by rw [Address.normalize_normalize, hn]; exact hv⟩,
    ok_bind, Address.normalize_normalize, hn]

theorem encode_of_fits (ho : OwnAddresses config source wallet) (ha : amount < twoPow 256)
    (hn : Address.normalize call.target = call.target) (hv : Address.isValid call.target = true) (h : Fits call) :
    ∃ payload, Report.encode (reportOf config call amount) = .ok payload := by
  obtain ⟨target, ht, hl⟩ := h.target
  have hresolve := @resolve_reportOf config call amount target source wallet ho
    (by rw [toBytes_target hn hv]; exact Address.ofDigits_eq_ok.mpr ht)
  have hparts : ∃ ps, Abi.encodeParts (Report.kinds .genericCall) (wire call amount target source wallet) =
      .ok ps :=
    ⟨_, Abi.encodeParts_cons_eq_ok.mpr ⟨_, _, .word (.address hl),
      Abi.encodeParts_cons_eq_ok.mpr ⟨_, _, .bytes h.data,
      Abi.encodeParts_cons_eq_ok.mpr ⟨_, _, .word (.uint h.value.1 h.value.2),
      Abi.encodeParts_cons_eq_ok.mpr ⟨_, _, .word (.address ho.lengthSource),
      Abi.encodeParts_cons_eq_ok.mpr ⟨_, _, .word (.uint (by omega) (by omega)),
      Abi.encodeParts_cons_eq_ok.mpr ⟨_, _, .word (.address ho.lengthWallet), rfl, rfl⟩, rfl⟩, rfl⟩, rfl⟩,
      rfl⟩, rfl⟩⟩
  obtain ⟨ps, hps⟩ := hparts
  obtain ⟨payload, he⟩ := Abi.encode_of_encodeParts (by decide) (by decide) hps
  exact ⟨payload, bind_eq_ok.mpr ⟨_, hresolve, he⟩⟩

theorem encode_of_misfit (ho : OwnAddresses config source wallet)
    (hn : Address.normalize call.target = call.target) (hv : Address.isValid call.target = true) {f : Failure}
    (h : Misfit call f) : Report.encode (reportOf config call amount) = .error f := by
  have htarget := toBytes_target hn hv
  have hwire : ∀ target, Hex.toBytes? (call.target.toList.drop 2) = .ok target →
      Abi.encodeParts (Report.kinds .genericCall) (wire call amount target source wallet) = .error f →
      Report.encode (reportOf config call amount) = .error f := by
    intro target ht hps
    have hresolve := @resolve_reportOf config call amount target source wallet ho
      (by rw [htarget]; exact Address.ofDigits_eq_ok.mpr ht)
    rw [Report.encode, hresolve, ok_bind, Abi.encode]
    exact bind_eq_error.mpr (.inl hps)
  cases h with
  | @characters position h =>
    have hfail : Address.toBytes (Address.normalize call.target) = .error (.rejected (.notHex position)) := by
      rw [htarget, Blob.ofDigits, h]
      rfl
    have hresolve : (reportOf config call amount).resolve = .error (.rejected (.notHex position)) := by
      rw [Report.Descriptor.resolve, Report.Descriptor.entries, reportOf, Report.schema, List.zip_cons_cons,
        List.mapM_cons, Report.resolveField_address rfl, hfail]
      rfl
    rw [Report.encode, hresolve]
    rfl
  | @length target h hl =>
    have haddress : Abi.Kind.address.encode (.bytes target) = .error .fieldType := by
      rw [Abi.Kind.address, Abi.Kind.encode, Abi.WordKind.encode, if_neg hl]
      rfl
    exact hwire _ h (Abi.encodeParts_cons_eq_error.mpr (.inl haddress))
  | data h hl hd =>
    have hdata : Abi.Kind.bytes.encode (.bytes call.data) =
        .error (Abi.unfit .fieldRange (.int call.data.length)) := by
      rw [Abi.Kind.encode, Abi.octetsOf, ok_bind, Abi.blobPart, if_neg (Nat.not_lt.mpr hd)]
      rfl
    exact hwire _ h (Abi.encodeParts_cons_eq_error.mpr (.inr ⟨_, .word (.address hl),
      Abi.encodeParts_cons_eq_error.mpr (.inl hdata)⟩))
  | value h hl hd hv =>
    have hvalue : (Abi.Kind.uint 256).encode (.int call.value) =
        .error (Abi.unfit .fieldRange (.int call.value)) := by
      rw [Abi.Kind.uint, Abi.Kind.encode, Abi.WordKind.encode, if_neg hv]
      rfl
    exact hwire _ h (Abi.encodeParts_cons_eq_error.mpr (.inr ⟨_, .word (.address hl),
      Abi.encodeParts_cons_eq_error.mpr (.inr ⟨_, .bytes hd, Abi.encodeParts_cons_eq_error.mpr (.inl hvalue)⟩)⟩))

theorem encode_eq_error (ho : OwnAddresses config source wallet) (ha : amount < twoPow 256)
    (hn : Address.normalize call.target = call.target) (hv : Address.isValid call.target = true) {f : Failure}
    (h : Report.encode (reportOf config call amount) = .error f) : Misfit call f := by
  rcases fits_or_misfit call with hfits | ⟨f', hm⟩
  · obtain ⟨payload, he⟩ := encode_of_fits ho ha hn hv hfits
    rw [he] at h
    cases h
  · have he := @encode_of_misfit config call amount source wallet ho hn hv f' hm
    rw [he] at h
    rwa [← Except.error.inj h]

end

/-! ## Answers -/

/-- What a response fails as that is not reported as a bad one. -/
inductive Overlooked (body : Bytes) : Failure → Prop
  | integer {digits : Nat} (h : TooLong body digits) : Overlooked body (.rejected (.numeralTooLong (some digits)))
  | value {request : Value} {target : String} {data : Bytes} {f : Failure} (hr : Requested body request)
    (ha : Addressed request target data) (hu : Unread (request.member "value") f) : Overlooked body f
  | call {request : Value} {call : Call} {f : Failure} (hr : Requested body request)
    (hc : readCall request = .ok call) (hm : Misfit call f) : Overlooked body f

structure Valid (config : RouteConfig) : Prop where
  receiver : Text.isVacant config.receiver = false
  source : ∃ bs, bs.length = 20 ∧ Address.Spells config.input.source.address bs
  wallet : ∃ bs, bs.length = 20 ∧ Address.Spells config.input.wallet bs
  amount : ∃ n, Uint256.ofText config.input.amount = .ok n
  gas : ∃ n, gasLimit config.gasLimit = .ok n

theorem Valid.ownAddresses {config : RouteConfig} (h : Valid config) :
    ∃ source wallet, OwnAddresses config source wallet := by
  obtain ⟨source, hs, hsource⟩ := h.source
  obtain ⟨wallet, hw, hwallet⟩ := h.wallet
  have hwallet := Address.normalize_eq_literal_iff.mpr hwallet
  by_cases hn : IsNative config.input.source.address
  · exact ⟨Bytes.zeros 20, wallet, (sourceToken_of_native hn).trans Address.zero_eq_literal, hwallet, by simp, hw⟩
  · exact ⟨source, wallet, (sourceToken_of_not_native hn).1.trans (Address.normalize_eq_literal_iff.mpr hsource),
      hwallet, hs, hw⟩

theorem Valid.wallet_given {config : RouteConfig} (h : Valid config) :
    Text.isVacant config.input.wallet = false := by
  obtain ⟨bs, hl, hs⟩ := h.wallet
  refine Address.isVacant_of_spells hs ?_
  rintro rfl
  cases hl

def answered (config : RouteConfig) (body : Bytes) : Except Failure (String × Bytes) := do
  let quote ← parseQuote body
  let report ← prepare config quote
  let expected ← expectedOut quote
  let payload ← Report.encode report
  return (expected, payload)

theorem exists_expectedOut {quote : Value} (h : quote.HasText) : ∃ s, expectedOut quote = .ok s := by
  unfold expectedOut
  dsimp only
  split
  · exact shown_of_hasText ((h.member _).member _)
  · exact ⟨_, rfl⟩

section

variable {config : RouteConfig} {body : Bytes}

theorem prepare_of_call (hv : Valid config) {quote : Value} {call : Call} (h : quotedCall quote = .ok call) :
    ∃ amount, amount < twoPow 256 ∧ prepare config quote = .ok (reportOf config call amount) := by
  obtain ⟨amount, hamount⟩ := hv.amount
  refine ⟨amount, (Uint256.read_eq_ok_iff.mp hamount).1, ?_⟩
  rw [prepare, h, ok_bind, hamount, ok_bind, require_of_given hv.wallet_given, ok_bind]
  exact make_terms config call amount

/-- Once there is a call, only its encoding can still fail. -/
theorem answered_of_call (hv : Valid config) {quote : Value} {call : Call} (hq : parseQuote body = .ok quote)
    (h : quotedCall quote = .ok call) : ∃ amount expected, amount < twoPow 256 ∧
      answered config body = do return (expected, ← Report.encode (reportOf config call amount)) := by
  obtain ⟨amount, hlt, hprepare⟩ := prepare_of_call hv h
  obtain ⟨expected, hexpected⟩ := exists_expectedOut (hasText_of_parseQuote hq)
  refine ⟨amount, expected, hlt, ?_⟩
  rw [answered, hq, ok_bind, hprepare, ok_bind, hexpected, ok_bind]

theorem target_of_readCall {request : Value} {call : Call} (h : readCall request = .ok call) :
    Address.normalize call.target = call.target ∧ Address.isValid call.target = true := by
  obtain ⟨s, -, hs⟩ := bind_eq_ok.mp (readCall_eq_ok.mp h).1
  obtain ⟨he, hvalid⟩ := Address.normalizeValid_eq_ok.mp hs
  rw [he]
  exact ⟨Address.normalize_normalize _, hvalid⟩

theorem quotedCall_eq_error {quote : Value} (hq : parseQuote body = .ok quote) {f : Failure}
    (h : quotedCall quote = .error f) : IsBad f ∨ Overlooked body f := by
  rcases quotedCall_cases hq with hr | ⟨f', hbad, hf⟩
  · rw [quotedCall_of_requested hr hq] at h
    obtain ⟨e, he, rfl⟩ := mapError_eq_error.mp h
    rcases readCall_eq_error he with he | ⟨target, data, ha, hu⟩
    · exact .inl (malformed_of_isRejected he)
    · rw [malformed_of_unread hu]
      exact .inr (.value hr ha hu)
  · obtain rfl := Except.error.inj (hf.symm.trans h)
    exact .inl hbad

theorem answered_eq_error (hv : Valid config) {f : Failure} (h : answered config body = .error f) :
    IsBad f ∨ Overlooked body f := by
  obtain ⟨source, wallet, ho⟩ := hv.ownAddresses
  rcases bind_eq_error.mp h with hparse | ⟨quote, hq, hrest⟩
  · rcases parseQuote_eq_error hparse with hbad | ⟨digits, hd, rfl⟩
    · exact .inl hbad
    · exact .inr (.integer hd)
  cases hcall : quotedCall quote with
  | error e =>
    rw [prepare, hcall] at hrest
    obtain rfl : e = f := Except.error.inj hrest
    exact quotedCall_eq_error hq hcall
  | ok call =>
    obtain ⟨amount, expected, hlt, ha⟩ := answered_of_call hv hq hcall
    rw [ha] at h
    obtain ⟨hn, hvalid⟩ := target_of_readCall (readCall_of_quotedCall hcall)
    rcases bind_eq_error.mp h with he | ⟨_, -, he⟩
    · rcases quotedCall_cases hq with hr | ⟨_, -, hf⟩
      · exact .inr (.call hr (readCall_of_quotedCall hcall) (encode_eq_error ho hlt hn hvalid he))
      · rw [hf] at hcall
        cases hcall
    · cases he

theorem answered_of_overlooked (hv : Valid config) {f : Failure} (h : Overlooked body f) :
    answered config body = .error f := by
  obtain ⟨source, wallet, ho⟩ := hv.ownAddresses
  cases h with
  | integer h => exact bind_eq_error.mpr (.inl (parseQuote_of_tooLong h))
  | @value request target data f hr ha hu =>
    obtain ⟨quote, hq, hmember⟩ := hr.document
    have htext : (request.member "value").HasText := by
      rw [← hmember]
      exact ((hasText_of_parseQuote hq).member _).member _
    have hcall : quotedCall quote = .error f := by
      rw [quotedCall_of_requested hr hq, readCall_of_unread ha hu htext]
      exact congrArg Except.error (malformed_of_unread hu)
    rw [answered, hq, ok_bind, prepare, hcall]
    rfl
  | @call request call f hr hc hm =>
    obtain ⟨quote, hq, hmember⟩ := hr.document
    have hcall : quotedCall quote = .ok call := by
      rw [quotedCall_of_requested hr hq, hc]
      rfl
    obtain ⟨amount, expected, -, ha⟩ := answered_of_call hv hq hcall
    obtain ⟨hn, hvalid⟩ := target_of_readCall hc
    rw [ha, encode_of_misfit ho hn hvalid hm]
    rfl

structure Answers (c : Collaborators) (config : RouteConfig) (body : Bytes) : Prop where
  signer : ∃ signer, c.signer = some signer
  writer : ∃ writer, c.writer = some writer
  sender : ∃ sender status, c.sender = some sender ∧ sender fetching (quoteRequest config) = .ok ⟨status, body⟩

variable {c : Collaborators}

theorem fst_exec_ready (hv : Valid config) (hc : Answers c config body) {gas : Int}
    (hg : gasLimit config.gasLimit = .ok gas) :
    (exec (ready config c) {}).1 = (answered config body).map fun x => (x.1, x.2, gas) := by
  obtain ⟨sender, status, hs, ha⟩ := hc.sender
  rw [ready, require_of_given hv.receiver, Run.lift_ok_bind, Run.fst_exec_bind, fst_exec_fetchQuote hs, ha,
    ok_bind, hg]
  simp only [Run.fst_exec_bind, Run.exec_lift, Run.exec_report, Run.exec_pure, ok_bind, answered, map_bind]
  rfl

theorem Overlooked.ne_action {f : Failure} (h : Overlooked body f) (e : ActionError) : f ≠ .action e := by
  cases h with
  | integer => exact nofun
  | value hr ha hu => exact hu.ne_action e
  | call hr hc hm => exact hm.ne_action e

theorem run_of_overlooked (hv : Valid config) (hc : Answers c config body) {f : Failure} (h : Overlooked body f) :
    (Run.start (run config c)).1 = .ok (.failed f.summary config.input.amount) ∧
      (Run.start (run config c)).2.payloads = [] := by
  obtain ⟨gas, hg⟩ := hv.gas
  have hready : exec (ready config c) {} = (.error f, (exec (ready config c) {}).2) :=
    Prod.ext (by rw [fst_exec_ready hv hc hg, answered_of_overlooked hv h]; rfl) rfl
  rw [Run.start_eq, run_eq]
  refine ⟨?_, (stages_sound config c).payloads_of_unready hready⟩
  rw [Stages.exec_run_of_unready hready]
  exact fst_exec_failedResult h.ne_action _ _ _ _

theorem run_of_bad (hv : Valid config) (hc : Answers c config body) {f : Failure}
    (h : answered config body = .error f)
    (hbad : IsBad f) : (Run.start (run config c)).2.payloads = [] ∧ ∃ message, (Run.start (run config c)).1 =
      .ok (.failed message config.input.amount none (some .invalidCollaboratorResponse)) := by
  obtain ⟨gas, hg⟩ := hv.gas
  obtain ⟨message, rfl⟩ := hbad
  have hready : exec (ready config c) {} = (.error (.badResponse message), (exec (ready config c) {}).2) :=
    Prod.ext (by rw [fst_exec_ready hv hc hg, h]; rfl) rfl
  rw [Run.start_eq, run_eq]
  refine ⟨(stages_sound config c).payloads_of_unready hready, message, ?_⟩
  rw [Stages.exec_run_of_unready hready]
  exact fst_exec_failedResult_of_badResponse _ _ _ _ _

theorem signed_of_answered (hv : Valid config) (hc : Answers c config body) {x : String × Bytes}
    (h : answered config body = .ok x) : (Run.start (run config c)).2.payloads = [x.2] := by
  obtain ⟨gas, hg⟩ := hv.gas
  obtain ⟨signer, hs⟩ := hc.signer
  obtain ⟨writer, hw⟩ := hc.writer
  have hready : exec (ready config c) {} = (.ok (x.1, x.2, gas), (exec (ready config c) {}).2) :=
    Prod.ext (by rw [fst_exec_ready hv hc hg, h]; rfl) rfl
  have hmem : x.2 ∈ (Run.start (run config c)).2.payloads := by
    rw [Run.start_eq, run_eq]
    exact (stages_sound config c).mem_payloads_of_ready hs hw hready
  have honce := (disciplined config c).signed_once
  obtain ⟨p, hp⟩ := List.length_eq_one_iff.mp (Nat.le_antisymm honce (List.length_pos_of_mem hmem))
  rw [hp] at hmem ⊢
  rw [List.mem_singleton.mp hmem]

/-- **A bad quote is reported as one, unless what is bad about it is overlooked.** Whatever a response holds, either
its call is signed, or nothing is and the failed result has the category of a bad response. The exceptions are the
responses with an integer past the numeral limit, with a value to be sent that is a list, a record or infinite, and
with a call that does not fit the report: nothing is signed, and the failed result has no category. -/
theorem run_of_answer (hv : Valid config) (hc : Answers c config body) :
    (∀ f, Overlooked body f → (Run.start (run config c)).1 = .ok (.failed f.summary config.input.amount) ∧
      (Run.start (run config c)).2.payloads = []) ∧
    ((∀ f, ¬ Overlooked body f) → (∃ p, (Run.start (run config c)).2.payloads = [p]) ∨
      ((Run.start (run config c)).2.payloads = [] ∧ ∃ message, (Run.start (run config c)).1 =
        .ok (.failed message config.input.amount none (some .invalidCollaboratorResponse)))) := by
  refine ⟨fun f => run_of_overlooked hv hc, fun hn => ?_⟩
  cases h : answered config body with
  | ok x => exact .inl ⟨x.2, signed_of_answered hv hc h⟩
  | error f =>
    have hbad := (answered_eq_error hv h).resolve_right (hn f)
    exact .inr (run_of_bad hv hc h hbad)

end

theorem valid_someRoute : Valid someRoute where
  receiver := by decide
  source := ⟨List.replicate 20 0xee, rfl, by decide +kernel⟩
  wallet := ⟨Bytes.ofNat 20 2, rfl, by decide +kernel⟩
  amount := ⟨1000, by decide⟩
  gas := ⟨500000, by decide⟩

theorem answers_quoting (answer : String) : Answers (quoting answer) someRoute (Utf8.ofText answer) where
  signer := ⟨_, rfl⟩
  writer := ⟨_, rfl⟩
  sender := ⟨_, 200, rfl, rfl⟩

def nestedAnswer : String :=
  "\x7b\"transactionRequest\": \x7b\"to\": \"0x0000000000000000000000000000000000000003\", " ++
    "\"data\": \"0xabcd\", " ++
    "\"value\": [7]\x7d\x7d"

def nestedMembers : Members :=
  [("to", .text "0x0000000000000000000000000000000000000003"), ("data", .text "0xabcd"), ("value", .list [.int 7])]

theorem document_nestedAnswer :
    Json.document nestedAnswer.toList = .ok (.record [("transactionRequest", .record nestedMembers)]) :=
  eq_ok_of_isOk (by decide +kernel)

theorem overlooked_nestedAnswer : Overlooked (Utf8.ofText nestedAnswer) .wrongType := by
  have hrequest : Requested (Utf8.ofText nestedAnswer) (.record nestedMembers) :=
    ⟨⟨_, parseQuote_of_document document_nestedAnswer, rfl⟩, ⟨_, rfl⟩, by decide, by decide⟩
  have haddressed : Addressed (.record nestedMembers) (Hex.literal (Bytes.ofNat 20 3)) [0xab, 0xcd] :=
    ⟨eq_ok_of_isOk (by decide +kernel), eq_ok_of_isOk (by decide)⟩
  exact .value hrequest haddressed (.list nofun)

theorem answered_plainAnswer : ∃ payload, answered someRoute (Utf8.ofText plainAnswer) = .ok ("0", payload) := by
  obtain ⟨-, payload, he⟩ := make_callReport
  refine ⟨payload, ?_⟩
  rw [answered, parseQuote_of_document document_plainAnswer, ok_bind, prepare_someRoute rfl, ok_bind,
    show expectedOut (.record plainQuote) = .ok "0" from rfl, ok_bind, he]
  rfl

/-- The plain answer is signed or bad, and of the other one nothing is signed. -/
theorem some_answers_sorted :
    ((∃ p, (Run.start (run someRoute (quoting plainAnswer))).2.payloads = [p]) ∨
      ((Run.start (run someRoute (quoting plainAnswer))).2.payloads = [] ∧ ∃ message,
        (Run.start (run someRoute (quoting plainAnswer))).1 =
          .ok (.failed message (some "1000") none (some .invalidCollaboratorResponse)))) ∧
    (Run.start (run someRoute (quoting nestedAnswer))).2.payloads = [] := by
  have hplain : ∀ f, ¬ Overlooked (Utf8.ofText plainAnswer) f := by
    intro f h
    obtain ⟨payload, hp⟩ := answered_plainAnswer
    exact nomatch hp.symm.trans (answered_of_overlooked valid_someRoute h)
  exact ⟨(run_of_answer valid_someRoute (answers_quoting plainAnswer)).2 hplain,
    ((run_of_answer valid_someRoute (answers_quoting nestedAnswer)).1 _ overlooked_nestedAnswer).2⟩

theorem nested_value_overlooked :
    Valid someRoute ∧ Answers (quoting nestedAnswer) someRoute (Utf8.ofText nestedAnswer) ∧
    (Run.start (run someRoute (quoting nestedAnswer))).1 = .ok (.failed Failure.wrongType.summary (some "1000")) ∧
    (Run.start (run someRoute (quoting nestedAnswer))).2.payloads = [] :=
  ⟨valid_someRoute, answers_quoting nestedAnswer,
    run_of_overlooked valid_someRoute (answers_quoting nestedAnswer) overlooked_nestedAnswer⟩

end DefiActions.Workflow.Route
