import DefiActions.Proofs.JsonLemmas
import DefiActions.Proofs.RunLemmas
import DefiActions.Proofs.Utf8Sound
import DefiActions.Proofs.MembersLemmas
import DefiActions.Workflow.Trade

/-!
# Answers of the trading service

A position comes to a result whatever the service answers, short of one thing:
a document that gives something other than a text where the result takes a text,
which is the hash of an opened position or else the message of a refused one.
-/

namespace DefiActions.Workflow.Trade

open Config (TradeConfig)
open Run (exec exec_bind)

/-! ## Results of answers -/

def reported (answer : Value) : String × Value :=
  if (answer.member "success").isSet then
    ("transaction_hash", firstSet
      [(((answer.member "data").member "result").member "receipt").member "transactionHash",
      (answer.member "data").member "txHash"] "unknown")
  else ("error", firstSet [(answer.member "error").member "message"] unknownError)

def untyped (answer : Value) : Failure := .invalid "ActionResult" [⟨[.name (reported answer).1], .textType⟩]

theorem plain_firstSet {vs : List Value} (h : ∀ v ∈ vs, v.Plain) (fallback : String) :
    (firstSet vs fallback).Plain := by
  unfold firstSet
  cases hf : vs.find? (·.isSet) with
  | none => exact .text fallback
  | some v => exact h v (List.mem_of_find?_eq_some hf)

theorem plain_reported {answer : Value} (h : answer.Plain) : (reported answer).2.Plain := by
  unfold reported
  split
  · refine plain_firstSet (fun v hv => ?_) _
    rcases List.mem_pair.mp hv with rfl | rfl
    · exact (((h.member _).member _).member _).member _
    · exact (h.member _).member _
  · refine plain_firstSet (fun v hv => ?_) _
    rw [List.mem_singleton.mp hv]
    exact (h.member _).member _

theorem resultText_text (field s : String) : resultText field (.text s) = .ok s := rfl

theorem resultText_of_plain {v : Value} (h : v.Plain) (hs : ∀ s, v ≠ .text s) (field : String) :
    resultText field v = .error (.invalid "ActionResult" [⟨[.name field], .textType⟩]) := by
  cases h with
  | text s => exact absurd rfl (hs s)
  | _ => rfl

theorem resultOf_isOk {answer : Value} (h : ∀ ms, answer = .record ms → ∃ s, (reported answer).2 = .text s) :
    ∃ r, resultOf answer = .ok r := by
  cases answer with
  | record ms =>
    obtain ⟨s, hs⟩ := h ms rfl
    unfold reported at hs
    unfold resultOf
    dsimp only
    split at hs
    · rename_i hset
      dsimp only at hs
      rw [if_pos hset, hs, resultText_text]
      exact ⟨_, rfl⟩
    · rename_i hset
      dsimp only at hs
      rw [if_neg hset, hs, resultText_text]
      exact ⟨_, rfl⟩
  | _ => exact ⟨_, rfl⟩

theorem resultOf_of_untyped {ms : Members} (h : (Value.record ms).Plain)
    (hs : ∀ s, (reported (.record ms)).2 ≠ .text s) :
    resultOf (.record ms) = .error (untyped (.record ms)) := by
  have hplain := plain_reported h
  unfold untyped
  unfold reported at hs hplain ⊢
  unfold resultOf
  dsimp only
  split at hs
  · rename_i hset
    rw [if_pos hset] at hplain
    rw [if_pos hset, if_pos hset, resultText_of_plain hplain hs]
    rfl
  · rename_i hset
    rw [if_neg hset] at hplain
    rw [if_neg hset, if_neg hset, resultText_of_plain hplain hs]
    rfl

/-! ## Exchanges -/

def answerOf (sender : Sender) (request : Request) (t : Trace) : Except Failure Value := do
  let response ← sender t request
  let text ← response.text
  Json.document text.toList

theorem exec_exchange (sender : Sender) (request : Request) (t : Trace) :
    (exec (exchange sender request) t).1 = answerOf sender request t := by
  simp only [exchange, answerOf, Run.send, Run.fst_exec_bind, Run.exec_answer, Run.exec_lift, Run.exec_report,
    ok_bind]

theorem exec_tryExchange (sender : Sender) (request : Request) (t : Trace) :
    (exec (tryExchange sender request) t).1 =
      .ok (match answerOf sender request t with
        | .ok answer => .inl answer
        | .error f => .inr f.description) := by
  rw [tryExchange, Run.exec_tryCatch, exec_bind, ← exec_exchange]
  cases exec (exchange sender request) t with
  | mk x t' =>
    cases x with
    | error f => rfl
    | ok answer => rfl

def opening : Trace := { events := [⟨.info, "ostium_position_opening"⟩] }

def Answered (config : TradeConfig) (c : Collaborators) (answer : Value) : Prop :=
  ∃ secret sender, secret? c = some secret ∧ c.sender = some sender ∧
    answerOf sender (request config secret (c.now * 1000)) opening = .ok answer

theorem answered_iff {c : Collaborators} {secret : String} {sender : Sender} (hsecret : secret? c = some secret)
    (hsender : c.sender = some sender) (config : TradeConfig) (answer : Value) : Answered config c answer ↔
      answerOf sender (request config secret (c.now * 1000)) opening = .ok answer := by
  constructor
  · rintro ⟨secret', sender', hsecret', hsender', h⟩
    obtain rfl := Option.some.inj (hsecret.symm.trans hsecret')
    obtain rfl := Option.some.inj (hsender.symm.trans hsender')
    exact h
  · exact fun h => ⟨secret, sender, hsecret, hsender, h⟩

theorem plain_of_answered {config : TradeConfig} {c : Collaborators} {answer : Value}
    (h : Answered config c answer) :
    answer.Plain := by
  obtain ⟨secret, sender, -, -, h⟩ := h
  obtain ⟨response, -, h⟩ := bind_eq_ok.mp h
  obtain ⟨text, -, h⟩ := bind_eq_ok.mp h
  exact Json.plain_of_document h

/-! ## Runs -/

theorem exec_settle (result : ActionResult) (t : Trace) : (exec (settle result) t).1 = .ok result := by
  unfold settle
  cases result.success with
  | true => rfl
  | false => rfl

theorem exec_run_of_unasked {c : Collaborators} (h : secret? c = none ∨ c.sender = none) (config : TradeConfig) :
    ∃ r, (Run.start (run config c)).1 = .ok r := by
  rw [Run.start_eq, run, exec_bind, Run.exec_report]
  dsimp only
  rcases h with h | h
  · rw [h]
    exact ⟨_, rfl⟩
  · rw [h]
    cases secret? c with
    | none => exact ⟨_, rfl⟩
    | some secret => exact ⟨_, rfl⟩

theorem exec_run_of_asked {c : Collaborators} {secret : String} {sender : Sender}
    (hsecret : secret? c = some secret) (hsender : c.sender = some sender) (config : TradeConfig) :
    (Run.start (run config c)).1 =
      match answerOf sender (request config secret (c.now * 1000)) opening with
      | .ok answer => resultOf answer
      | .error f => .ok (.failed ("Failed to execute request: " ++ f.description)) := by
  have hopening : ({ events := ({} : Trace).events ++ [⟨.info, "ostium_position_opening"⟩] } : Trace) =
    opening := rfl
  rw [Run.start_eq, run, Run.fst_exec_bind, Run.exec_report, ok_bind, hsecret, hsender]
  dsimp only
  rw [hopening, Run.fst_exec_bind, exec_tryExchange, ok_bind]
  cases answerOf sender (request config secret (c.now * 1000)) opening with
  | error f => rfl
  | ok answer =>
    dsimp only
    rw [Run.fst_exec_bind, Run.exec_lift]
    cases resultOf answer with
    | error f => rfl
    | ok result => exact exec_settle result _

/-- A run comes to the result of the answer, or to a result without one. -/
theorem exec_run (config : TradeConfig) (c : Collaborators) :
    ((∃ r, (Run.start (run config c)).1 = .ok r) ∧ ∀ answer, ¬ Answered config c answer) ∨
      ∃ answer, (∀ a, Answered config c a ↔ a = answer) ∧ (Run.start (run config c)).1 = resultOf answer := by
  cases hsecret : secret? c with
  | none =>
    refine Or.inl ⟨exec_run_of_unasked (Or.inl hsecret) config, fun answer => ?_⟩
    rintro ⟨secret, _, h, -⟩
    cases hsecret.symm.trans h
  | some secret =>
    cases hsender : c.sender with
    | none =>
      refine Or.inl ⟨exec_run_of_unasked (Or.inr hsender) config, fun answer => ?_⟩
      rintro ⟨_, sender, -, h, -⟩
      cases hsender.symm.trans h
    | some sender =>
      have hanswered := answered_iff hsecret hsender config
      rw [exec_run_of_asked hsecret hsender]
      cases hanswer : answerOf sender (request config secret (c.now * 1000)) opening with
      | error f =>
        refine Or.inl ⟨⟨_, rfl⟩, fun answer h => ?_⟩
        cases hanswer.symm.trans ((hanswered answer).mp h)
      | ok answer =>
        refine Or.inr ⟨answer, fun a => ?_, rfl⟩
        rw [hanswered, hanswer, Except.ok.injEq]
        exact eq_comm

/-- **Opening a position fails exactly where the answer gives the result something other than a text.** -/
theorem run_eq_error_iff (config : TradeConfig) (c : Collaborators) (f : Failure) :
    (Run.start (run config c)).1 = .error f ↔
      ∃ ms, Answered config c (.record ms) ∧ (∀ s, (reported (.record ms)).2 ≠ .text s) ∧
        f = untyped (.record ms) := by
  rcases exec_run config c with ⟨⟨r, hr⟩, hnone⟩ | ⟨answer, hanswer, hrun⟩
  · rw [hr]
    constructor
    · intro h
      cases h
    · rintro ⟨ms, h, -⟩
      exact absurd h (hnone _)
  · have hplain := plain_of_answered ((hanswer answer).mpr rfl)
    rw [hrun]
    constructor
    · intro h
      by_cases hok : ∀ ms, answer = .record ms → ∃ s, (reported answer).2 = .text s
      · obtain ⟨r, hr⟩ := resultOf_isOk hok
        cases hr.symm.trans h
      · push Not at hok
        obtain ⟨ms, rfl, hs⟩ := hok
        rw [resultOf_of_untyped hplain hs] at h
        exact ⟨ms, (hanswer _).mpr rfl, hs, (Except.error.inj h).symm⟩
    · rintro ⟨ms, h, hs, rfl⟩
      obtain rfl := (hanswer _).mp h
      exact resultOf_of_untyped hplain hs

def numberedHash : String := "\x7b\"success\": true, \"data\": \x7b\"txHash\": 5\x7d\x7d"

def numberedService : Collaborators where
  sender := some fun _ _ => .ok ⟨200, Utf8.ofText numberedHash⟩
  secrets := some fun _ => some "key"

def someTrade : TradeConfig :=
  ⟨"testnet", "BTC-USD", "long", .finite false 10 0, .finite false 5 0,
    "0x4444444444444444444444444444444444444444", "https://ostium.example.com", none, none⟩

theorem document_numberedHash : Json.document numberedHash.toList =
    .ok (.record [("success", .bool true), ("data", .record [("txHash", .int 5)])]) :=
  eq_ok_of_isOk (by decide +kernel)

/-- A hash that is a number is such an answer. -/
theorem run_someTrade : (Run.start (run someTrade numberedService)).1 =
    .error (.invalid "ActionResult" [⟨[.name "transaction_hash"], .textType⟩]) := by
  have htext : Utf8.text? (Utf8.ofText numberedHash) = some numberedHash := Utf8.text?_ofText _
  rw [exec_run_of_asked (by rfl) rfl]
  simp only [answerOf, ok_bind, Response.text, htext, document_numberedHash]
  rfl

end DefiActions.Workflow.Trade
