import DefiActions.Proofs.DocumentSound
import DefiActions.Proofs.RunLemmas
import DefiActions.Proofs.SigningSound
import DefiActions.Proofs.Utf8Sound
import DefiActions.Workflow.Trade

/-!
# Requests to the trading service

A run sends one request at most, and none without a secret. The request carries
the configured position in a body that reads back, and its signature covers that
body and the time in its headers, so that the signed message tells both.
-/

namespace DefiActions

open Binary64 (Canonical)

/-! ## Documents in UTF-8 -/

theorem Json.documentOfBytes_ofText (s : String) : documentOfBytes (Utf8.ofText s) = document s.toList := by
  rw [documentOfBytes, Utf8.ofText, Utf8.decode?_encode]

/-! ## Runs without requests -/

namespace Run

def unsent : Frame where
  Rel t t' := t'.requests = t.requests
  refl _ := rfl
  trans h h' := h'.trans h

variable {α β : Type} {r : Run α}

theorem keeps_unsent (h : Keeps eventsOnly r) : Keeps unsent r := by
  intro t
  obtain ⟨es, -, he⟩ := h t
  rw [he]
  rfl

theorem requests_bind {f : α → Run β} (hf : ∀ a, Keeps unsent (f a)) (t : Trace) :
    (exec (r >>= f) t).2.requests = (exec r t).2.requests := by
  rw [exec_bind]
  rcases exec r t with ⟨e | a, t'⟩
  · rfl
  · exact hf a t'

theorem requests_tryCatch {h : Failure → Run α} (hh : ∀ e, Keeps unsent (h e)) (t : Trace) :
    (exec (tryCatch r h) t).2.requests = (exec r t).2.requests := by
  rw [exec_tryCatch]
  rcases exec r t with ⟨e | a, t'⟩
  · exact hh e t'
  · rfl

end Run

namespace Workflow.Trade

open Config (TradeConfig)
open Run (exec exec_bind Keeps keeps_bind keeps_ite keeps_lift keeps_pure keeps_report keeps_unsent unsent)

/-! ## Sending -/

def requests (config : TradeConfig) (c : Collaborators) : List Request := (Run.start (run config c)).2.requests

def Holds (c : Collaborators) (secret : String) : Prop :=
  ∃ lookup, c.secrets = some lookup ∧ lookup secretId = some secret ∧ secret ≠ ""

theorem secret?_eq_some_iff {c : Collaborators} {secret : String} : secret? c = some secret ↔ Holds c secret := by
  unfold secret? Holds
  cases c.secrets with
  | none => simp
  | some lookup => simp [Option.filter_eq_some_iff]

theorem keeps_event (level : Level) {name : String} (h : name ≠ Run.submitting.name) :
    Keeps unsent (Run.report level name) := keeps_unsent (keeps_report h)

theorem requests_exchange (sender : Sender) (request : Request) (t : Trace) :
    (exec (exchange sender request) t).2.requests = t.requests ++ [request] := by
  apply Run.requests_bind
  intro response
  exact keeps_bind (keeps_lift _) fun text => keeps_bind (keeps_event _ (by decide)) fun _ => keeps_lift _

theorem requests_tryExchange (sender : Sender) (request : Request) (t : Trace) :
    (exec (tryExchange sender request) t).2.requests = t.requests ++ [request] := by
  rw [tryExchange, Run.requests_tryCatch, Run.requests_bind, requests_exchange]
  · exact fun answer => keeps_pure _
  · exact fun f => keeps_bind (keeps_event _ (by decide)) fun _ => keeps_pure _

theorem keeps_settle (result : ActionResult) : Keeps unsent (settle result) := by
  unfold settle
  cases result.success
  · exact keeps_bind (keeps_event _ (by decide)) fun _ => keeps_pure _
  · exact keeps_bind (keeps_event _ (by decide)) fun _ => keeps_pure _

/-- One request is sent when there are a secret and a sender, and none otherwise. -/
theorem requests_eq (config : TradeConfig) (c : Collaborators) : requests config c =
    match secret? c, c.sender with
    | some secret, some _ => [request config secret (c.now * 1000)]
    | _, _ => [] := by
  rw [requests, Run.start_eq, run, exec_bind, Run.exec_report]
  dsimp only
  cases secret? c with
  | none => rfl
  | some secret =>
    cases c.sender with
    | none => rfl
    | some sender =>
      refine (Run.requests_bind (fun answer => ?_) _).trans (requests_tryExchange sender _ _)
      cases answer with
      | inl answer => exact keeps_bind (keeps_lift _) keeps_settle
      | inr description => exact keeps_pure _

/-! ## Numbers -/

def IsNumber (x : Binary64) : Prop := x.isFinite = true ∧ x.IsDouble

def Stands (x : Binary64) (v : Value) : Prop :=
  (∃ n : Int, x.toRat = n ∧ v = .int n) ∨ (∀ n : Int, x.toRat ≠ n) ∧ v = .float x

theorem stands_numberValue {x : Binary64} (h : IsNumber x) : Stands x (numberValue x) := by
  cases x with
  | finite negative m e =>
    unfold Stands numberValue
    cases hw : (Binary64.finite negative m e).whole? with
    | some n => exact Or.inl ⟨n, Binary64.whole?_eq_some_iff.mp hw, rfl⟩
    | none =>
      refine Or.inr ⟨fun n hn => ?_, rfl⟩
      rw [Binary64.whole?_eq_some_iff.mpr hn] at hw
      cases hw
  | _ => cases h.1

theorem natAbs_signed (negative : Bool) (n : Nat) : (Binary64.signed negative n).natAbs = n := by
  cases negative <;> simp [Binary64.signed]

/-- The whole numbers of 64 bits are far below the numeral limit. -/
theorem isWritable_of_whole? {negative : Bool} {m : Nat} {e n : Int} (hc : Canonical m e)
    (h : (Binary64.finite negative m e).whole? = some n) : Text.isWritable n = true := by
  have hsize : m * twoPow e.toNat < tenPow 400 :=
    calc m * twoPow e.toNat ≤ m * twoPow 971 := by
          refine Nat.mul_le_mul_left m (twoPow_le_twoPow ?_)
          have hgreatest := hc.greatest
          unfold Binary64.greatestExponent at hgreatest
          omega
      _ < twoPow 53 * twoPow 971 := Nat.mul_lt_mul_of_pos_right hc.lt (twoPow_pos _)
      _ < tenPow 400 := by decide +kernel
  have habs : n.natAbs ≤ m * twoPow e.toNat := by
    rw [Binary64.whole?_finite] at h
    split at h
    · rw [← Option.some.inj h, natAbs_signed]
      exact Nat.div_le_self _ _
    · cases h
  rw [Text.isWritable, decide_eq_true_eq]
  exact (habs.trans_lt hsize).trans (Text.tenPow_lt_tenPow (by decide))

theorem writable_numberValue {x : Binary64} (h : IsNumber x) : (numberValue x).Writable := by
  unfold numberValue
  cases hw : x.whole? with
  | none => exact .float h.2
  | some n =>
    cases x with
    | finite negative m e => exact .int (isWritable_of_whole? h.2 hw)
    | _ => cases hw

/-! ## Bodies -/

structure FiniteNumbers (config : TradeConfig) : Prop where
  collateral : IsNumber config.collateral
  leverage : IsNumber config.leverage
  stopLoss : ∀ x, config.stopLoss = some x → IsNumber x
  takeProfit : ∀ x, config.takeProfit = some x → IsNumber x

structure Carries (config : TradeConfig) (ms : Members) : Prop where
  names : ms.names = ["network", "market", "side", "collateral", "leverage", "traderAddress"] ++
    (if config.stopLoss.isSome then ["slPrice"] else []) ++ (if config.takeProfit.isSome then ["tpPrice"] else [])
  network : ms.get? "network" = some (.text config.network)
  market : ms.get? "market" = some (.text config.market)
  side : ms.get? "side" = some (.text config.side)
  trader : ms.get? "traderAddress" = some (.text config.trader)
  collateral : ∃ v, ms.get? "collateral" = some v ∧ Stands config.collateral v
  leverage : ∃ v, ms.get? "leverage" = some v ∧ Stands config.leverage v
  stopLoss : ∀ x, config.stopLoss = some x → ∃ v, ms.get? "slPrice" = some v ∧ Stands x v
  takeProfit : ∀ x, config.takeProfit = some x → ∃ v, ms.get? "tpPrice" = some v ∧ Stands x v

variable {config : TradeConfig}

theorem get?_stopLoss {x : Binary64} (h : config.stopLoss = some x) :
    (bodyValue config).members.get? "slPrice" = some (numberValue x) := by
  simp only [bodyValue, h]
  rfl

theorem get?_takeProfit {x : Binary64} (h : config.takeProfit = some x) :
    (bodyValue config).members.get? "tpPrice" = some (numberValue x) := by
  simp only [bodyValue, h]
  cases config.stopLoss <;> rfl

theorem carries_members (h : FiniteNumbers config) : Carries config (bodyValue config).members where
  names := by
    unfold bodyValue
    cases config.stopLoss <;> cases config.takeProfit <;> rfl
  network := rfl
  market := rfl
  side := rfl
  trader := rfl
  collateral := ⟨_, rfl, stands_numberValue h.collateral⟩
  leverage := ⟨_, rfl, stands_numberValue h.leverage⟩
  stopLoss x hx := ⟨_, get?_stopLoss hx, stands_numberValue (h.stopLoss x hx)⟩
  takeProfit x hx := ⟨_, get?_takeProfit hx, stands_numberValue (h.takeProfit x hx)⟩

theorem writable_bodyValue (h : FiniteNumbers config) : (bodyValue config).Writable := by
  have hnodup : (bodyValue config).members.names.Nodup := by
    rw [(carries_members h).names]
    cases config.stopLoss.isSome <;> cases config.takeProfit.isSome <;> decide
  refine .record hnodup fun m hm => ?_
  simp only [List.mem_append, List.mem_cons, List.not_mem_nil, or_false, Option.mem_toList,
    Option.map_eq_some_iff] at hm
  rcases hm with ((rfl | rfl | rfl | rfl | rfl | rfl) | ⟨x, hx, rfl⟩) | ⟨x, hx, rfl⟩
  · exact .text _
  · exact .text _
  · exact .text _
  · exact writable_numberValue h.collateral
  · exact writable_numberValue h.leverage
  · exact .text _
  · exact writable_numberValue (h.stopLoss x hx)
  · exact writable_numberValue (h.takeProfit x hx)

theorem documentOfBytes_body (h : FiniteNumbers config) :
    Json.documentOfBytes (Utf8.ofText (body config)) = .ok (.record (bodyValue config).members) := by
  rw [Json.documentOfBytes_ofText]
  exact Json.document_write Json.Layout.sound_ascii (writable_bodyValue h)

/-! ## Signed messages -/

def header (r : Request) (name : String) : Option String := r.headers.lookup name

def covered (r : Request) : Option String := do
  return Signing.message r.method path (← r.body) (← header r "x-timestamp")

/-- A request for a position that is signed as it is sent: its body is the document that the message has, and its
time is the time that the message has. -/
structure Opens (config : TradeConfig) (secret : String) (now : Int) (r : Request) : Prop where
  url : ∃ base, r.url = base ++ path
  method : r.method = "POST"
  timestamp : header r "x-timestamp" = some (Text.numeral (1000 * now))
  signature : ∃ text, r.body = some text ∧
    header r "x-signature" = some (Signing.sign secret "POST" path text (Text.numeral (1000 * now)))
  body : ∃ text ms, r.body = some text ∧ Json.documentOfBytes (Utf8.ofText text) = .ok (.record ms) ∧
    Carries config ms

theorem opens_request (h : FiniteNumbers config) (secret : String) (now : Int) :
    Opens config secret now (request config secret (now * 1000)) where
  url := ⟨_, rfl⟩
  method := rfl
  timestamp := by
    rw [mul_comm]
    rfl
  signature := ⟨_, rfl, by
    rw [mul_comm]
    rfl⟩
  body := ⟨_, _, rfl, documentOfBytes_body h, carries_members h⟩

theorem colons_numeral (n : Int) : Signing.colons (Text.numeral n) = 0 := by
  have hdigits : ∀ k, ':' ∉ Text.natDigits k := fun k h => absurd (Text.isDigit_of_mem_natDigits h) (by decide)
  rw [Signing.colons, Text.numeral, String.toList_ofList, List.count_eq_zero]
  cases n with
  | ofNat k => exact hdigits k
  | negSucc k =>
    intro h
    rcases List.mem_cons.mp h with h | h
    · cases h
    · exact hdigits _ h

theorem covered_request (config : TradeConfig) (secret : String) (timestamp : Int) :
    covered (request config secret timestamp) =
      some (Signing.message "POST" path (body config) (Text.numeral timestamp)) := rfl

/-- The message tells the body and the time, since there is no colon in a time. -/
theorem eq_of_covered {config' : TradeConfig} {secret secret' : String} {timestamp timestamp' : Int}
    (h : covered (request config secret timestamp) = covered (request config' secret' timestamp')) :
    body config = body config' ∧ Text.numeral timestamp = Text.numeral timestamp' := by
  rw [covered_request, covered_request, Option.some.injEq] at h
  obtain ⟨-, -, hbody, htimestamp⟩ := Signing.parts_eq_of_message h
    ((colons_numeral _).trans (colons_numeral _).symm) rfl rfl
  exact ⟨hbody, htimestamp⟩

theorem eq_request_of_mem {c : Collaborators} {r : Request} (h : r ∈ requests config c) :
    ∃ secret, Holds c secret ∧ r = request config secret (c.now * 1000) := by
  rw [requests_eq] at h
  cases hs : secret? c with
  | none =>
    rw [hs] at h
    cases h
  | some secret =>
    rw [hs] at h
    cases hc : c.sender with
    | none =>
      rw [hc] at h
      cases h
    | some sender =>
      rw [hc] at h
      exact ⟨secret, secret?_eq_some_iff.mp hs, List.mem_singleton.mp h⟩

/-- **What is signed is what is sent.** -/
theorem sent_as_signed {config : TradeConfig} (h : FiniteNumbers config) (c : Collaborators) :
    ((¬ ∃ secret, Holds c secret) → requests config c = []) ∧ (requests config c).length ≤ 1 ∧
      ∀ r ∈ requests config c, (∃ secret, Holds c secret ∧ Opens config secret c.now r) ∧
        ∀ config' c', ∀ r' ∈ requests config' c', covered r = covered r' →
          r.body = r'.body ∧ header r "x-timestamp" = header r' "x-timestamp" := by
  refine ⟨fun hnone => ?_, ?_, fun r hr => ?_⟩
  · have hs : secret? c = none := by
      rw [Option.eq_none_iff_forall_ne_some]
      exact fun secret hs => hnone ⟨secret, secret?_eq_some_iff.mp hs⟩
    rw [requests_eq, hs]
  · rw [requests_eq]
    split
    · exact le_refl _
    · exact Nat.zero_le _
  · obtain ⟨secret, hsecret, rfl⟩ := eq_request_of_mem hr
    refine ⟨⟨secret, hsecret, opens_request h secret c.now⟩, fun config' c' r' hr' hcovered => ?_⟩
    obtain ⟨secret', -, rfl⟩ := eq_request_of_mem hr'
    obtain ⟨hbody, htimestamp⟩ := eq_of_covered hcovered
    exact ⟨congrArg some hbody, congrArg some htimestamp⟩

def quotedTrade : TradeConfig :=
  ⟨"\"testnet\"", "BTC\\USD\n", "long é", .ofRatio false 1 10, .ofRatio false 5 1, "𝄞",
    "https://ostium.example.com/", some (.ofRatio false 3 2), none⟩

def keyedService : Collaborators where
  sender := some fun _ _ => .error .notUtf8
  secrets := some fun _ => some "key"
  now := 1700000000

theorem isNumber_ofRatio {num den : Nat} (hd : 0 < den) (h : (Binary64.ofRatio false num den).isFinite = true) :
    IsNumber (.ofRatio false num den) := ⟨h, Binary64.isDouble_ofRatio false num hd⟩

theorem finite_quotedTrade : FiniteNumbers quotedTrade where
  collateral := @isNumber_ofRatio 1 10 (by decide) (by decide +kernel)
  leverage := @isNumber_ofRatio 5 1 (by decide) (by decide +kernel)
  stopLoss x hx := by
    obtain rfl := Option.some.inj hx
    exact isNumber_ofRatio (by decide) (by decide +kernel)
  takeProfit x hx := by cases hx

/-- Quotes, backslashes, line ends and characters of any plane are sent and signed. -/
theorem some_sent_as_signed :
    ∃ r, requests quotedTrade keyedService = [r] ∧ Opens quotedTrade "key" 1700000000 r := by
  have hsent : requests quotedTrade keyedService = [request quotedTrade "key" (1700000000 * 1000)] := by
    rw [requests_eq]
    rfl
  refine ⟨_, hsent, ?_⟩
  obtain ⟨-, -, hopens⟩ := sent_as_signed finite_quotedTrade keyedService
  obtain ⟨⟨secret, ⟨lookup, hlookup, hsecret, -⟩, h⟩, -⟩ :=
    hopens _ (by rw [hsent]; exact List.mem_singleton_self _)
  obtain rfl : "key" = secret := by
    obtain rfl := Option.some.inj hlookup
    exact Option.some.inj hsecret
  exact h

end Workflow.Trade

end DefiActions
