import DefiActions.Proofs.ReportLemmas
import DefiActions.Proofs.SpellingSound
import DefiActions.Proofs.SubmissionSound
import DefiActions.Proofs.Utf8Sound
import DefiActions.Proofs.MembersLemmas

/-!
# Signed routes

What the caller gives up and who receives it are configured. A quote decides the
call that is forwarded, by three of its members and by no other.
-/

namespace DefiActions.Workflow.Route

open Config (RouteConfig)
open Run (exec exec_bind_of_ok)

/-! ## Quotes -/

def fetching : Trace := { events := [⟨.info, "lifi_quote_fetching"⟩] }

def Quoted (config : RouteConfig) (c : Collaborators) (quote : Value) : Prop :=
  ∃ sender response, c.sender = some sender ∧ sender fetching (quoteRequest config) = .ok response ∧
    parseQuote response.body = .ok quote

theorem fst_exec_fetchQuote {config : RouteConfig} {c : Collaborators} {sender : Sender}
    (hs : c.sender = some sender) :
    (exec (fetchQuote config c) {}).1 =
      (sender fetching (quoteRequest config) >>= fun response => parseQuote response.body) := by
  have hfetching : ({ events := ({} : Trace).events ++ [⟨.info, "lifi_quote_fetching"⟩] } : Trace) = fetching := rfl
  rw [fetchQuote, hs]
  dsimp only
  rw [Run.fst_exec_bind, Run.exec_report, ok_bind, hfetching, Run.fst_exec_bind, Run.send, Run.exec_answer]
  simp only [Run.exec_lift]

theorem fetchQuote_eq_ok {config : RouteConfig} {c : Collaborators} {quote : Value} :
    (Run.start (fetchQuote config c)).1 = .ok quote ↔ Quoted config c quote := by
  rw [Run.start_eq, Quoted]
  cases hs : c.sender with
  | none =>
    rw [fetchQuote, hs]
    exact ⟨nofun, nofun⟩
  | some sender =>
    rw [fst_exec_fetchQuote hs, bind_eq_ok]
    simp only [Option.some.injEq, exists_eq_left', exists_and_left]

def requested (quote : Value) (name : String) : Value := (quote.member "transactionRequest").member name

theorem readCall_eq_ok {request : Value} {call : Call} : readCall request = .ok call ↔
    (shown (request.member "to") >>= Address.normalizeValid) = .ok call.target ∧
      (shown (request.member "data") >>= Blob.ofText) = .ok call.data ∧
      callValue (if (request.member "value").isSet then request.member "value" else .text "0") =
        .ok call.value := by
  obtain ⟨target, data, value⟩ := call
  simp only [readCall, bind_eq_ok, pure_eq_ok, Call.mk.injEq]
  constructor
  · rintro ⟨s, hs, t, ht, u, hu, bs, hb, n, hn, rfl, rfl, rfl⟩
    exact ⟨⟨s, hs, ht⟩, ⟨u, hu, hb⟩, hn⟩
  · rintro ⟨⟨s, hs, ht⟩, ⟨u, hu, hb⟩, hn⟩
    exact ⟨s, hs, _, ht, u, hu, _, hb, _, hn, rfl, rfl, rfl⟩

theorem readCall_of_quotedCall {quote : Value} {call : Call} (h : quotedCall quote = .ok call) :
    readCall (quote.member "transactionRequest") = .ok call := by
  unfold quotedCall at h
  split at h
  · rename_i ms hr
    rw [hr]
    dsimp only at h
    split at h
    · exact mapError_eq_ok.mp h
    · exact absurd h fail_ne_ok
  · exact absurd h fail_ne_ok

/-! ## The native asset -/

/-- The text spells the zero address or the placeholder, both of which stand for the native asset. -/
def IsNative (s : String) : Prop :=
  Address.Spells s (Bytes.zeros 20) ∨ Address.Spells s (List.replicate 20 0xee)

instance (s : String) : Decidable (IsNative s) := inferInstanceAs (Decidable (_ ∨ _))

theorem nativePlaceholder_eq_literal : nativePlaceholder = Hex.literal (List.replicate 20 0xee) := by decide

theorem isNative_iff {s : String} :
    IsNative s ↔ Address.normalize s = Address.zero ∨ Address.normalize s = nativePlaceholder := by
  rw [IsNative, ← Address.normalize_eq_literal_iff, ← Address.normalize_eq_literal_iff, Address.zero_eq_literal,
    nativePlaceholder_eq_literal]

theorem sourceToken_of_native {s : String} (h : IsNative s) : sourceToken s = Address.zero := by
  rw [isNative_iff] at h
  unfold sourceToken
  dsimp only
  split
  · rfl
  · exact h.resolve_right ‹_›

theorem sourceToken_of_not_native {s : String} (h : ¬ IsNative s) :
    sourceToken s = Address.normalize s ∧ sourceToken s ≠ Address.zero := by
  rw [isNative_iff, not_or] at h
  rw [sourceToken, if_neg h.2]
  exact ⟨rfl, h.1⟩

theorem normalize_sourceToken (s : String) : Address.normalize (sourceToken s) = sourceToken s := by
  by_cases h : IsNative s
  · rw [sourceToken_of_native h, Address.zero_eq_literal, Address.normalize_literal]
  · rw [(sourceToken_of_not_native h).1, Address.normalize_normalize]

/-! ## Preparing -/

def terms (config : RouteConfig) (call : Call) (amount : Nat) : Members := [
  ("target", .text call.target), ("call_data", .bytes call.data), ("value", .int call.value),
  ("token_in", .text (sourceToken config.input.source.address)), ("amount_in", .int amount),
  ("recipient", .text config.input.wallet)]

theorem prepare_eq_ok {config : RouteConfig} {quote : Value} {report : Report.Descriptor}
    (h : prepare config quote = .ok report) : ∃ call amount, quotedCall quote = .ok call ∧
      Uint256.ofText config.input.amount = .ok amount ∧
      Report.Descriptor.make .genericCall (terms config call amount) = .ok report := by
  obtain ⟨call, hcall, h⟩ := bind_eq_ok.mp h
  obtain ⟨amount, hamount, h⟩ := bind_eq_ok.mp h
  obtain ⟨recipient, hrecipient, hmake⟩ := bind_eq_ok.mp h
  rw [require_eq_ok hrecipient] at hmake
  exact ⟨call, amount, hcall, hamount, hmake⟩

/-- What was signed is the call of a quote that was fetched, next to what is configured. -/
theorem exists_terms_of_signed {config : RouteConfig} {c : Collaborators} {p : Bytes}
    (hp : p ∈ (Run.start (run config c)).2.payloads) : ∃ quote call amount report, Quoted config c quote ∧
      readCall (quote.member "transactionRequest") = .ok call ∧ Uint256.ofText config.input.amount = .ok amount ∧
      Report.Descriptor.make .genericCall (terms config call amount) = .ok report ∧
        Report.encode report = .ok p := by
  obtain ⟨-, ⟨quote, report, hq, hr, he⟩, -⟩ := (disciplined config c).ready_of_signed p hp
  obtain ⟨call, amount, hcall, hamount, hmake⟩ := prepare_eq_ok hr
  exact ⟨quote, call, amount, report, fetchQuote_eq_ok.mp hq, readCall_of_quotedCall hcall, hamount, hmake, he⟩

/-! ## The caller's side -/

structure OwnSide (config : RouteConfig) (d : Report.Descriptor) : Prop where
  native : d.get "token_in" = .text Address.zero ↔ IsNative config.input.source.address
  token : ¬ IsNative config.input.source.address →
    d.get "token_in" = .text (Address.normalize config.input.source.address)
  amount : ∃ n : Nat, Uint256.ofText config.input.amount = .ok n ∧ d.get "amount_in" = .int n
  recipient : d.get "recipient" = .text (Address.normalize config.input.wallet)

section

variable {config : RouteConfig} {call call' : Call} {amount : Nat} {report report' : Report.Descriptor}

theorem ownSide_of_make (hamount : Uint256.ofText config.input.amount = .ok amount)
    (h : Report.Descriptor.make .genericCall (terms config call amount) = .ok report) :
    OwnSide config report.filled := by
  have htoken : report.filled.get "token_in" = .text (sourceToken config.input.source.address) := by
    rw [← normalize_sourceToken]
    exact @Report.get_filled_of_given _ _ _ h ⟨"token_in", .address, "tokenIn", Report.zeroAddress⟩
      (by simp [Report.schema]) _ _ rfl (Report.normalField_text rfl _) rfl
  refine ⟨?_, fun hn => ?_, ⟨amount, hamount, ?_⟩, ?_⟩
  · rw [htoken, Value.text.injEq]
    constructor
    · intro hz
      by_contra hn
      exact (sourceToken_of_not_native hn).2 hz
    · exact sourceToken_of_native
  · rw [htoken, (sourceToken_of_not_native hn).1]
  · exact @Report.get_filled_of_given _ _ _ h ⟨"amount_in", .uint 256, "amountIn", none⟩ (by simp [Report.schema])
      _ _ rfl (Report.normalField_word (by decide) (by decide) rfl) rfl
  · exact @Report.get_filled_of_given _ _ _ h ⟨"recipient", .address, "recipient", none⟩ (by simp [Report.schema])
      _ _ rfl (Report.normalField_text rfl _) rfl

/-- The caller's side does not depend on the call. -/
theorem own_congr (h : Report.Descriptor.make .genericCall (terms config call amount) = .ok report)
    (h' : Report.Descriptor.make .genericCall (terms config call' amount) = .ok report') :
    ∀ name ∈ ["token_in", "amount_in", "recipient"], report.filled.get name = report'.filled.get name := by
  simp only [List.forall_mem_cons]
  refine ⟨?_, ?_, ?_, nofun⟩
  · exact @Report.get_filled_congr _ _ _ _ _ h h' ⟨"token_in", .address, "tokenIn", Report.zeroAddress⟩
      (by simp [Report.schema]) rfl
  · exact @Report.get_filled_congr _ _ _ _ _ h h' ⟨"amount_in", .uint 256, "amountIn", none⟩
      (by simp [Report.schema]) rfl
  · exact @Report.get_filled_congr _ _ _ _ _ h h' ⟨"recipient", .address, "recipient", none⟩
      (by simp [Report.schema]) rfl

end

/-! ## The quote's side -/

/-- Each part of the call is decided by one member of the quote. -/
structure DecidedBy (quote quote' : Value) (d d' : Report.Descriptor) : Prop where
  target : requested quote "to" = requested quote' "to" → d.get "target" = d'.get "target"
  data : requested quote "data" = requested quote' "data" → d.get "call_data" = d'.get "call_data"
  value : requested quote "value" = requested quote' "value" → d.get "value" = d'.get "value"

section

variable {quote quote' : Value} {call call' : Call} (h : readCall (quote.member "transactionRequest") = .ok call)
  (h' : readCall (quote'.member "transactionRequest") = .ok call')

include h h'

theorem target_congr (ht : requested quote "to" = requested quote' "to") : call.target = call'.target := by
  have htarget := (readCall_eq_ok.mp h).1
  rw [← requested, ht] at htarget
  exact Except.ok.inj (htarget.symm.trans (readCall_eq_ok.mp h').1)

theorem data_congr (hd : requested quote "data" = requested quote' "data") : call.data = call'.data := by
  have hdata := (readCall_eq_ok.mp h).2.1
  rw [← requested, hd] at hdata
  exact Except.ok.inj (hdata.symm.trans (readCall_eq_ok.mp h').2.1)

theorem value_congr (hv : requested quote "value" = requested quote' "value") : call.value = call'.value := by
  have hvalue := (readCall_eq_ok.mp h).2.2
  rw [← requested, hv] at hvalue
  exact Except.ok.inj (hvalue.symm.trans (readCall_eq_ok.mp h').2.2)

theorem decidedBy_of_make {config : RouteConfig} {amount : Nat} {report report' : Report.Descriptor}
    (hm : Report.Descriptor.make .genericCall (terms config call amount) = .ok report)
    (hm' : Report.Descriptor.make .genericCall (terms config call' amount) = .ok report') :
    DecidedBy quote quote' report.filled report'.filled where
  target ht := @Report.get_filled_congr _ _ _ _ _ hm hm' ⟨"target", .address, "target", none⟩
    (by simp [Report.schema]) (congrArg (some <| Value.text ·) (target_congr h h' ht))
  data hd := @Report.get_filled_congr _ _ _ _ _ hm hm' ⟨"call_data", .bytes, "callData", none⟩
    (by simp [Report.schema]) (congrArg (some <| Value.bytes ·) (data_congr h h' hd))
  value hv := @Report.get_filled_congr _ _ _ _ _ hm hm' ⟨"value", .uint 256, "value", Report.zeroNumber⟩
    (by simp [Report.schema]) (congrArg (some <| Value.int ·) (value_congr h h' hv))

end

/-- **A quote moves nothing of the caller's side, and of it the call is moved by three members only.** -/
theorem quote_confined (config : RouteConfig) (c c' : Collaborators) :
    ∀ p ∈ (Run.start (run config c)).2.payloads, ∀ p' ∈ (Run.start (run config c')).2.payloads,
      ∃ d d' quote quote', Report.decode .genericCall p = .ok d ∧ Report.decode .genericCall p' = .ok d' ∧
        Quoted config c quote ∧ Quoted config c' quote' ∧ OwnSide config d ∧ OwnSide config d' ∧
        (∀ name ∈ ["token_in", "amount_in", "recipient"], d.get name = d'.get name) ∧
        DecidedBy quote quote' d d' ∧
        ((∀ name ∈ ["to", "data", "value"], requested quote name = requested quote' name) → p = p') := by
  intro p hp p' hp'
  obtain ⟨quote, call, amount, report, hq, hcall, hamount, hmake, he⟩ := exists_terms_of_signed hp
  obtain ⟨quote', call', amount', report', hq', hcall', hamount', hmake', he'⟩ := exists_terms_of_signed hp'
  obtain rfl := Except.ok.inj (hamount.symm.trans hamount')
  refine ⟨_, _, quote, quote', Report.decode_payload hmake he, Report.decode_payload hmake' he', hq, hq',
    ownSide_of_make hamount hmake, ownSide_of_make hamount hmake', own_congr hmake hmake',
    decidedBy_of_make hcall hcall' hmake hmake', ?_⟩
  · simp only [List.forall_mem_cons]
    rintro ⟨ht, hd, hv, -⟩
    have hsame : call = call' := by
      cases call
      cases call'
      rw [Call.mk.injEq]
      exact ⟨target_congr hcall hcall' ht, data_congr hcall hcall' hd, value_congr hcall hcall' hv⟩
    rw [hsame] at hmake
    obtain rfl := Except.ok.inj (hmake.symm.trans hmake')
    exact Except.ok.inj (he.symm.trans he')

/-! ## Two answers -/

theorem exec_ready {config : RouteConfig} {c : Collaborators} {quote : Value} {report : Report.Descriptor}
    {expected : String} {payload : Bytes} {gas : Int} (hreceiver : Text.isVacant config.receiver = false)
    (hq : Quoted config c quote) (hr : prepare config quote = .ok report) (hx : expectedOut quote = .ok expected)
    (he : Report.encode report = .ok payload) (hg : gasLimit config.gasLimit = .ok gas) :
    ∃ t, exec (ready config c) {} = (.ok (expected, payload, gas), t) := by
  have hf : exec (fetchQuote config c) {} = (.ok quote, (exec (fetchQuote config c) {}).2) :=
    Prod.ext (fetchQuote_eq_ok.mpr hq) rfl
  rw [ready, require_of_given hreceiver, exec_bind_of_ok (Run.exec_lift _ _), exec_bind_of_ok hf, hr,
    exec_bind_of_ok (Run.exec_lift _ _), hx, exec_bind_of_ok (Run.exec_lift _ _),
    exec_bind_of_ok (Run.exec_report _ _ _), he, exec_bind_of_ok (Run.exec_lift _ _), hg,
    exec_bind_of_ok (Run.exec_lift _ _)]
  exact ⟨_, rfl⟩

theorem quoted_unique {config : RouteConfig} {c : Collaborators} {quote quote' : Value} (h : Quoted config c quote)
    (h' : Quoted config c quote') : quote = quote' :=
  Except.ok.inj ((fetchQuote_eq_ok.mpr h).symm.trans (fetchQuote_eq_ok.mpr h'))

def someRoute : RouteConfig where
  chain := "ARBITRUM"
  receiver := "receiver"
  gasLimit := "500000"
  input := ⟨⟨"EeeeeEeeeEeEeeEeEeEeeEEEeeeeEeeeeeeeEEeE", none⟩, ⟨Hex.literal (Bytes.ofNat 20 1), none⟩, "1000",
    .exactInput, Hex.literal (Bytes.ofNat 20 2), none, none, none⟩

def quoting (answer : String) : Collaborators where
  signer := some fun _ p => .ok ⟨p⟩
  writer := some fun _ _ _ _ => .error .fieldType
  sender := some fun _ _ => .ok ⟨200, Utf8.ofText answer⟩

def someRequest : String :=
  "\x7b\"to\": \"0x0000000000000000000000000000000000000003\", \"data\": \"0xabcd\", \"value\": \"0x7\"\x7d"

def plainAnswer : String := "\x7b\"transactionRequest\": " ++ someRequest ++ "\x7d"

def otherAnswer : String :=
  "\x7b\"recipient\": \"0x9\", \"amountIn\": 9, \"transactionRequest\": " ++ someRequest ++ "\x7d"

def requestMembers : Members :=
  [("to", .text "0x0000000000000000000000000000000000000003"), ("data", .text "0xabcd"), ("value", .text "0x7")]

def plainQuote : Members := [("transactionRequest", .record requestMembers)]

def otherQuote : Members :=
  [("recipient", .text "0x9"), ("amountIn", .int 9), ("transactionRequest", .record requestMembers)]

theorem document_plainAnswer : Json.document plainAnswer.toList = .ok (.record plainQuote) :=
  eq_ok_of_isOk (by decide +kernel)

theorem document_otherAnswer : Json.document otherAnswer.toList = .ok (.record otherQuote) :=
  eq_ok_of_isOk (by decide +kernel)

theorem parseQuote_of_document {answer : String} {ms : Members}
    (h : Json.document answer.toList = .ok (.record ms)) :
    parseQuote (Utf8.ofText answer) = .ok (.record ms) := by
  have hdoc : Json.documentOfBytes (Utf8.ofText answer) = .ok (.record ms) := by
    rw [Json.documentOfBytes, Utf8.ofText, Utf8.decode?_encode]
    exact h
  rw [parseQuote, hdoc]
  rfl

theorem quoted_of_document {answer : String} {ms : Members} (h : Json.document answer.toList = .ok (.record ms)) :
    Quoted someRoute (quoting answer) (.record ms) := ⟨_, _, rfl, rfl, parseQuote_of_document h⟩

def someCall : Call := ⟨Hex.literal (Bytes.ofNat 20 3), [0xab, 0xcd], 7⟩

def callReport : Report.Descriptor :=
  ⟨.genericCall, [.text (Hex.literal (Bytes.ofNat 20 3)), .bytes [0xab, 0xcd], .int 7,
    .text (Hex.literal (Bytes.zeros 20)), .int 1000, .text (Hex.literal (Bytes.ofNat 20 2))]⟩

def callWire : List Value :=
  [.bytes (Bytes.ofNat 20 3), .bytes [0xab, 0xcd], .int 7, .bytes (Bytes.zeros 20), .int 1000,
    .bytes (Bytes.ofNat 20 2)]

theorem make_callReport : Report.Descriptor.make .genericCall (terms someRoute someCall 1000) = .ok callReport ∧
    ∃ payload, Report.encode callReport = .ok payload := by
  obtain ⟨payload, h⟩ : ∃ p, Abi.encode (Report.kinds .genericCall) callWire = .ok p := exists_eq_ok (by decide)
  obtain ⟨hmake, -, he⟩ := Report.encode_readBackAll h rfl
  have hnative : IsNative someRoute.input.source.address := by decide
  rw [terms, sourceToken_of_native hnative, Address.zero_eq_literal]
  exact ⟨hmake, payload, he⟩

theorem prepare_someRoute {quote : Value} (h : quote.member "transactionRequest" = .record requestMembers) :
    prepare someRoute quote = .ok callReport := by
  have hcall : quotedCall quote = .ok someCall := by
    rw [quotedCall, h]
    exact eq_ok_of_isOk (by decide)
  have hamount : Uint256.ofText someRoute.input.amount = .ok 1000 := by decide
  have hwallet : Text.isVacant someRoute.input.wallet = false := by decide
  rw [prepare, hcall, ok_bind, hamount, ok_bind, require_of_given hwallet, ok_bind]
  exact make_callReport.1

theorem signed_someRoute {answer : String} {ms : Members} (hd : Json.document answer.toList = .ok (.record ms))
    (hr : (Value.record ms).member "transactionRequest" = .record requestMembers)
    (hx : expectedOut (.record ms) = .ok "0") {payload : Bytes} (he : Report.encode callReport = .ok payload) :
    payload ∈ (Run.start (run someRoute (quoting answer))).2.payloads := by
  have hg : gasLimit someRoute.gasLimit = .ok 500000 := by decide
  have hreceiver : Text.isVacant someRoute.receiver = false := by decide
  obtain ⟨t, h⟩ := exec_ready hreceiver (quoted_of_document hd) (prepare_someRoute hr) hx he hg
  rw [Run.start_eq, run_eq]
  exact (stages_sound someRoute (quoting answer)).mem_payloads_of_ready rfl rfl h

/-- Both answers are signed as one call, which pays with the native asset. -/
theorem some_quote_confined :
    ∃ p ∈ (Run.start (run someRoute (quoting plainAnswer))).2.payloads,
      ∃ p' ∈ (Run.start (run someRoute (quoting otherAnswer))).2.payloads, ∃ d d',
        Report.decode .genericCall p = .ok d ∧ Report.decode .genericCall p' = .ok d' ∧ OwnSide someRoute d ∧
          OwnSide someRoute d' ∧ d.get "token_in" = .text Address.zero ∧ d.get "recipient" = d'.get "recipient" ∧
          d.get "target" = d'.get "target" ∧ p = p' := by
  obtain ⟨-, payload, he⟩ := make_callReport
  have hp := signed_someRoute document_plainAnswer rfl rfl he
  have hp' := signed_someRoute document_otherAnswer rfl rfl he
  obtain ⟨d, d', quote, quote', hd, hd', hq, hq', hown, hown', hagree, hdecided, hsame⟩ :=
    quote_confined someRoute (quoting plainAnswer) (quoting otherAnswer) payload hp payload hp'
  obtain rfl := quoted_unique hq (quoted_of_document document_plainAnswer)
  obtain rfl := quoted_unique hq' (quoted_of_document document_otherAnswer)
  have hnative : IsNative someRoute.input.source.address := by decide +kernel
  exact ⟨payload, hp, payload, hp', d, d', hd, hd', hown, hown', hown.native.mpr hnative,
    hagree "recipient" (by simp), hdecided.target rfl, hsame fun name _ => rfl⟩

end DefiActions.Workflow.Route
