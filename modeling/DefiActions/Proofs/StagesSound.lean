import DefiActions.Proofs.GuardLemmas
import DefiActions.Proofs.SettlementSound

/-!
# Actions in stages

An action gets ready, submits, and turns the outcome into its result. Getting
ready signs and submits nothing, and what follows the outcome cannot fail where
the outcome is a success. How a run ends is told by the stage that it reaches,
and everything else follows from that.
-/

namespace DefiActions

open Run (exec exec_bind exec_bind_of_ok exec_bind_of_error Keeps eventsOnly unsigned submitting)

/-! ## What the collaborators saw -/

namespace Trace

def eventsBefore (t : Trace) : List Event := t.events.takeWhile (· ≠ submitting)

/-- The trace when the signer was asked, where it made a report. -/
def atSigning (t : Trace) : Trace := { t with payloads := [], submissions := [], events := t.eventsBefore }

def atWriting (t : Trace) : Trace := { t with submissions := [], events := t.eventsBefore ++ [submitting] }

theorem eventsBefore_eq {t : Trace} {es rest : List Event} (h : submitting ∉ es)
    (he : t.events = es ++ submitting :: rest) : t.eventsBefore = es := by
  rw [eventsBefore, he, List.takeWhile_append_of_pos]
  · simp
  · intro e hm
    have : e ≠ submitting := fun h' => h (h' ▸ hm)
    simpa using this

end Trace

def Signed (c : Collaborators) (t : Trace) (payload : Bytes) (report : SignedReport) : Prop :=
  ∃ signer, c.signer = some signer ∧ t.payloads = [payload] ∧ signer t.atSigning payload = .ok report

/-- The writer was called with a signed report and returned this outcome. -/
def Wrote (c : Collaborators) (t : Trace) (o : Outcome) : Prop :=
  ∃ writer payload report s, c.writer = some writer ∧ Signed c t payload report ∧ t.submissions = [s] ∧
    writer t.atWriting s.receiver report s.gasLimit = .ok o

/-- What holds of the result of an action and of the trace that it leaves. -/
structure Disciplined (c : Collaborators) (receiver gas : String) (Encoded : Bytes → Prop)
    (result : Except Failure ActionResult) (t : Trace) : Prop where
  signed_once : t.payloads.length ≤ 1
  written_once : t.submissions.length ≤ 1
  /-- Signing waits for a writer, a payload and a gas limit. -/
  ready_of_signed : ∀ p ∈ t.payloads, c.writer.isSome = true ∧ Encoded p ∧ ∃ n, Workflow.gasLimit gas = .ok n
  /-- Writing waits for a signed report. -/
  signed_of_written : ∀ s ∈ t.submissions, (∃ p report, Signed c t p report) ∧ s.receiver = receiver ∧
    0 < s.gasLimit ∧ Text.readInt .ten gas.toList = .ok s.gasLimit
  success_iff : ∀ r, result = .ok r → (r.success = true ↔ ∃ o, Wrote c t o ∧ o.IsSuccess)
  /-- A submission that succeeded is reported as such, with its hash. -/
  reported : ∀ o, Wrote c t o → o.IsSuccess → ∃ r, result = .ok r ∧ r.success = true ∧ r.txHash = o.hash?

namespace Workflow

/-! ## How an action ends -/

section

variable {c : Collaborators} {receiver gas : String} {Encoded : Bytes → Prop} {result : Except Failure ActionResult}

theorem not_wrote {t : Trace} (hs : t.submissions = []) (o : Outcome) : ¬ Wrote c t o := by
  rintro ⟨_, _, _, s, -, -, hs', -⟩
  rw [hs] at hs'
  cases hs'

theorem success_iff_of_unwritten {t : Trace} (hs : t.submissions = []) {r : ActionResult} (hr : r.success = false) :
    r.success = true ↔ ∃ o, Wrote c t o ∧ o.IsSuccess := by
  rw [hr]
  constructor
  · intro h
    cases h
  · rintro ⟨o, h, -⟩
    exact absurd h (not_wrote hs o)

structure Unsubmitted (t : Trace) : Prop where
  payloads : t.payloads = []
  submissions : t.submissions = []
  events : submitting ∉ t.events

theorem Unsubmitted.later {t t' : Trace} (h : Unsubmitted t) (hl : eventsOnly.Rel t t') : Unsubmitted t' := by
  obtain ⟨es, hes, rfl⟩ := hl
  refine ⟨h.payloads, h.submissions, fun hm => ?_⟩
  rcases List.mem_append.mp hm with hm | hm
  · exact h.events hm
  · exact hes hm

def Fails (result : Except Failure ActionResult) : Prop := ∀ r, result = .ok r → r.success = false

theorem disciplined_of_unsigned {t : Trace} (ht : Unsubmitted t) (hf : Fails result) :
    Disciplined c receiver gas Encoded result t where
  signed_once := by simp [ht.payloads]
  written_once := by simp [ht.submissions]
  ready_of_signed := by simp [ht.payloads]
  signed_of_written := by simp [ht.submissions]
  success_iff r h := success_iff_of_unwritten ht.submissions (hf r h)
  reported o h := absurd h (not_wrote ht.submissions o)

theorem disciplined_of_unwritten {t : Trace} {payload : Bytes} {n : Int} (hp : t.payloads = [payload])
    (hs : t.submissions = []) (hw : c.writer.isSome = true) (he : Encoded payload) (hg : gasLimit gas = .ok n)
    (hf : Fails result) : Disciplined c receiver gas Encoded result t where
  signed_once := by simp [hp]
  written_once := by simp [hs]
  ready_of_signed p hm := by
    rw [hp, List.mem_singleton] at hm
    rw [hm]
    exact ⟨hw, he, n, hg⟩
  signed_of_written := by simp [hs]
  success_iff r h := success_iff_of_unwritten hs (hf r h)
  reported o h := absurd h (not_wrote hs o)

def submittedTrace (t : Trace) (payload : Bytes) (s : Submission) (later : List Event) : Trace :=
  { t with payloads := [payload], submissions := [s], events := t.events ++ submitting :: later }

theorem atSigning_submittedTrace {t : Trace} (h : Unsubmitted t) (payload : Bytes) (s : Submission)
    (later : List Event) : (submittedTrace t payload s later).atSigning = t := by
  have he : (submittedTrace t payload s later).eventsBefore = t.events := Trace.eventsBefore_eq h.events rfl
  rw [Trace.atSigning, he]
  cases t
  cases h.payloads
  cases h.submissions
  rfl

theorem atWriting_submittedTrace {t : Trace} (h : Unsubmitted t) (payload : Bytes) (s : Submission)
    (later : List Event) : (submittedTrace t payload s later).atWriting =
      { t with payloads := [payload], events := t.events ++ [submitting] } := by
  have he : (submittedTrace t payload s later).eventsBefore = t.events := Trace.eventsBefore_eq h.events rfl
  rw [Trace.atWriting, he]
  cases t
  cases h.submissions
  rfl

theorem exec_submit_of_unsubmitted {signer : Signer} {writer : Writer} (hs : c.signer = some signer)
    (hw : c.writer = some writer) {t : Trace} (ht : Unsubmitted t) (receiver : String) {payload : Bytes} (n : Int)
    {report : SignedReport} (h : signer t payload = .ok report) :
    exec (submit c receiver payload n) t =
      (writer { t with payloads := [payload], events := t.events ++ [submitting] } receiver report n,
        submittedTrace t payload ⟨receiver, n⟩ []) := by
  rw [exec_submit_of_signed hs hw h]
  cases t
  cases ht.payloads
  cases ht.submissions
  rfl

theorem submittedTrace_later (t : Trace) (payload : Bytes) (s : Submission) (es later : List Event) :
    { submittedTrace t payload s es with events := (submittedTrace t payload s es).events ++ later } =
      submittedTrace t payload s (es ++ later) := by
  simp [submittedTrace]

structure Reports (answer : Except Failure Outcome) (result : Except Failure ActionResult) : Prop where
  reported : ∀ o, answer = .ok o → o.IsSuccess → ∃ r, result = .ok r ∧ r.success = true ∧ r.txHash = o.hash?
  isSuccess : ∀ r, result = .ok r → r.success = true → ∃ o, answer = .ok o ∧ o.IsSuccess

theorem reports_of_fails {answer : Except Failure Outcome} (ha : ∀ o, answer = .ok o → ¬ o.IsSuccess)
    (hf : Fails result) : Reports answer result where
  reported o ho h := absurd h (ha o ho)
  isSuccess r hr h := by
    rw [hf r hr] at h
    cases h

theorem signed_submittedTrace {signer : Signer} (hs : c.signer = some signer) {t : Trace} (ht : Unsubmitted t)
    {payload : Bytes} {report : SignedReport} (h : signer t payload = .ok report) (s : Submission)
    (later : List Event) : Signed c (submittedTrace t payload s later) payload report :=
  ⟨signer, hs, rfl, by rw [atSigning_submittedTrace ht, h]⟩

/-- Collaborators are functions of what they see, so that the trace tells what they answered. -/
theorem wrote_submittedTrace_iff {signer : Signer} {writer : Writer} (hs : c.signer = some signer)
    (hw : c.writer = some writer) {t : Trace} (ht : Unsubmitted t) {payload : Bytes} {report : SignedReport}
    (h : signer t payload = .ok report) {s : Submission} {later : List Event} {o : Outcome} :
    Wrote c (submittedTrace t payload s later) o ↔
      writer { t with payloads := [payload], events := t.events ++ [submitting] } s.receiver report s.gasLimit =
        .ok o := by
  constructor
  · rintro ⟨writer', payload', report', s', hw', ⟨signer', hs', hp', hsign'⟩, hsub, hanswer⟩
    obtain rfl := Option.some.inj (hw.symm.trans hw')
    obtain rfl := Option.some.inj (hs.symm.trans hs')
    obtain rfl : payload = payload' := List.head_eq_of_cons_eq hp'
    obtain rfl : s = s' := List.head_eq_of_cons_eq hsub
    rw [atSigning_submittedTrace ht, h] at hsign'
    obtain rfl := Except.ok.inj hsign'
    rwa [atWriting_submittedTrace ht] at hanswer
  · intro hanswer
    refine ⟨writer, payload, report, s, hw, signed_submittedTrace hs ht h s later, rfl, ?_⟩
    rw [atWriting_submittedTrace ht, hanswer]

theorem disciplined_of_written {signer : Signer} {writer : Writer} (hs : c.signer = some signer)
    (hw : c.writer = some writer) {t : Trace} (ht : Unsubmitted t) {payload : Bytes} {n : Int}
    (he : Encoded payload)
    (hg : gasLimit gas = .ok n) {report : SignedReport} (hsign : signer t payload = .ok report) (later : List Event)
    {answer : Except Failure Outcome}
    (ha : writer { t with payloads := [payload], events := t.events ++ [submitting] } receiver report n = answer)
    (hc : Reports answer result) :
    Disciplined c receiver gas Encoded result (submittedTrace t payload ⟨receiver, n⟩ later) := by
  have hsigned := signed_submittedTrace hs ht hsign ⟨receiver, n⟩ later
  have hwrote : ∀ o, Wrote c (submittedTrace t payload ⟨receiver, n⟩ later) o ↔ answer = .ok o := by
    intro o
    rw [wrote_submittedTrace_iff hs hw ht hsign, ha]
  obtain ⟨hpos, hread⟩ := gasLimit_eq_ok.mp hg
  exact {
    signed_once := Nat.le_refl _
    written_once := Nat.le_refl _
    ready_of_signed := by
      intro p hm
      obtain rfl : p = payload := List.mem_singleton.mp hm
      exact ⟨by rw [hw]; rfl, he, n, hg⟩
    signed_of_written := by
      intro s hm
      obtain rfl : s = ⟨receiver, n⟩ := List.mem_singleton.mp hm
      exact ⟨⟨payload, report, hsigned⟩, rfl, hpos, hread⟩
    success_iff := by
      intro r h
      constructor
      · intro hr
        obtain ⟨o, ho, hsucc⟩ := hc.isSuccess r h hr
        exact ⟨o, (hwrote o).mpr ho, hsucc⟩
      · rintro ⟨o, ho, hsucc⟩
        obtain ⟨r', hr', hsuccess, -⟩ := hc.reported o ((hwrote o).mp ho) hsucc
        obtain rfl := Except.ok.inj (h.symm.trans hr')
        exact hsuccess
    reported := by
      intro o h hsucc
      exact hc.reported o ((hwrote o).mp h) hsucc }

end

/-! ## Actions in stages -/

/-- What follows an outcome leaves only events, and makes a successful result of a success and of nothing else. -/
structure Concludes (finish : Outcome → Run ActionResult) : Prop where
  keeps : ∀ o, Keeps eventsOnly (finish o)
  ok_of_success : ∀ o t, o.IsSuccess → ∃ r, (exec (finish o) t).1 = .ok r ∧ r.success = true ∧ r.txHash = o.hash?
  isSuccess : ∀ o t r, (exec (finish o) t).1 = .ok r → r.success = true → o.IsSuccess

structure Stages (α : Type) where
  workflow : String
  amountIn : Option String
  operation : Option String
  receiver : String
  ready : Run α
  payload : α → Bytes
  limit : α → Int
  finish : α → Outcome → Run ActionResult

namespace Stages

variable {α : Type} {s : Stages α} {c : Collaborators} {result : Except Failure ActionResult}

def run (s : Stages α) (c : Collaborators) : Run ActionResult :=
  guarded s.workflow s.amountIn s.operation
    (s.ready >>= fun x => submit c s.receiver (s.payload x) (s.limit x) >>= s.finish x)

/-- Only the stage in the middle signs, submits or announces a submission. -/
structure Sound (s : Stages α) : Prop where
  failed : s.workflow ++ "_failed" ≠ submitting.name
  error : s.workflow ++ "_error" ≠ submitting.name
  quiet : Keeps unsigned s.ready
  concludes : ∀ x, Concludes (s.finish x)

theorem Sound.unsubmitted (hs : s.Sound) {x : Except Failure α} {t : Trace} (h : exec s.ready {} = (x, t)) :
    Unsubmitted t := by
  obtain ⟨hp, hsub, es, hes, he⟩ := hs.quiet {}
  rw [h] at hp hsub he
  exact ⟨hp, hsub, by rw [he]; simpa using hes⟩

inductive Ends (s : Stages α) (c : Collaborators) : Except Failure ActionResult → Trace → Prop
  | unready {e : Failure} {t t' : Trace} {result : Except Failure ActionResult}
    (h : exec s.ready {} = (.error e, t))
    (hl : eventsOnly.Rel t t') (hf : Fails result) : Ends s c result t'
  | missing {x : α} {t t' : Trace} {result : Except Failure ActionResult} (h : exec s.ready {} = (.ok x, t))
    (hc : c.signer = none ∨ c.writer = none) (hl : eventsOnly.Rel t t') (hf : Fails result) : Ends s c result t'
  | refused {x : α} {t t' : Trace} {result : Except Failure ActionResult} {writer : Writer}
    (h : exec s.ready {} = (.ok x, t)) (hw : c.writer = some writer)
    (hl : eventsOnly.Rel { t with payloads := [s.payload x] } t') (hf : Fails result) : Ends s c result t'
  | submitted {x : α} {t : Trace} {result : Except Failure ActionResult} {signer : Signer} {writer : Writer}
    {report : SignedReport} {answer : Except Failure Outcome} (h : exec s.ready {} = (.ok x, t))
    (hs : c.signer = some signer) (hw : c.writer = some writer) (hr : signer t (s.payload x) = .ok report)
    (ha : writer { t with payloads := [s.payload x], events := t.events ++ [submitting] } s.receiver report
      (s.limit x) = answer) (hc : Reports answer result) (later : List Event) :
    Ends s c result (submittedTrace t (s.payload x) ⟨s.receiver, s.limit x⟩ later)

theorem Sound.exec_run_of_answer (hs : s.Sound) {x : α} {t : Trace} (hx : exec s.ready {} = (.ok x, t))
    {signer : Signer} {writer : Writer} (hsigner : c.signer = some signer) (hwriter : c.writer = some writer)
    {report : SignedReport} (hr : signer t (s.payload x) = .ok report) : ∃ result answer later,
      exec (s.run c) {} = (result, submittedTrace t (s.payload x) ⟨s.receiver, s.limit x⟩ later) ∧
      writer { t with payloads := [s.payload x], events := t.events ++ [submitting] } s.receiver report
        (s.limit x) = answer ∧ Reports answer result := by
  have hfail := exec_failedResult hs.failed hs.error s.amountIn s.operation
  have hsub := exec_submit_of_unsubmitted hsigner hwriter (hs.unsubmitted hx) s.receiver (s.limit x) hr
  rw [run, guarded, Run.exec_tryCatch, exec_bind_of_ok hx]
  cases ha : writer { t with payloads := [s.payload x], events := t.events ++ [submitting] } s.receiver report
      (s.limit x) with
  | error e =>
    rw [ha] at hsub
    rw [exec_bind_of_error hsub]
    obtain ⟨⟨later, -, hl⟩, hf⟩ := hfail e (submittedTrace t (s.payload x) ⟨s.receiver, s.limit x⟩ [])
    rw [submittedTrace_later, List.nil_append] at hl
    exact ⟨_, _, later, Prod.ext rfl hl, rfl, reports_of_fails nofun hf⟩
  | ok o =>
    rw [ha] at hsub
    rw [exec_bind_of_ok hsub]
    obtain ⟨later, -, hl⟩ := (hs.concludes x).keeps o (submittedTrace t (s.payload x) ⟨s.receiver, s.limit x⟩ [])
    have hsuccess := (hs.concludes x).ok_of_success o (submittedTrace t (s.payload x) ⟨s.receiver, s.limit x⟩ [])
    have honly := (hs.concludes x).isSuccess o (submittedTrace t (s.payload x) ⟨s.receiver, s.limit x⟩ [])
    rw [submittedTrace_later, List.nil_append] at hl
    cases hfin : exec (s.finish x o) (submittedTrace t (s.payload x) ⟨s.receiver, s.limit x⟩ []) with
    | mk result t' =>
      rw [hfin] at hl hsuccess honly
      obtain rfl : t' = submittedTrace t (s.payload x) ⟨s.receiver, s.limit x⟩ later := hl
      cases result with
      | ok r =>
        have hreports : Reports (.ok o) (.ok r) := by
          refine ⟨fun o' ho => ?_, fun r' hr' hsucc => ⟨o, rfl, honly r' hr' hsucc⟩⟩
          obtain rfl := Except.ok.inj ho
          exact hsuccess
        exact ⟨_, _, later, rfl, rfl, hreports⟩
      | error e =>
        -- The failure of what follows an outcome becomes a result, so the outcome was no success.
        obtain ⟨⟨later', -, hl'⟩, hf⟩ := hfail e (submittedTrace t (s.payload x) ⟨s.receiver, s.limit x⟩ later)
        rw [submittedTrace_later] at hl'
        refine ⟨_, _, later ++ later', Prod.ext rfl hl', rfl, reports_of_fails (fun o' ho hsucc => ?_) hf⟩
        obtain rfl := Except.ok.inj ho
        obtain ⟨r, h, -⟩ := hsuccess hsucc
        cases h

theorem Sound.ends_of_answer (hs : s.Sound) {x : α} {t : Trace} (hx : exec s.ready {} = (.ok x, t))
    {signer : Signer}
    {writer : Writer} (hsigner : c.signer = some signer) (hwriter : c.writer = some writer) {report : SignedReport}
    (hr : signer t (s.payload x) = .ok report) : Ends s c (exec (s.run c) {}).1 (exec (s.run c) {}).2 := by
  obtain ⟨result, answer, later, hrun, ha, hreports⟩ := hs.exec_run_of_answer hx hsigner hwriter hr
  rw [hrun]
  exact .submitted hx hsigner hwriter hr ha hreports later

theorem exec_run_of_unready {e : Failure} {t : Trace} (h : exec s.ready {} = (.error e, t)) :
    exec (s.run c) {} = exec (failedResult s.workflow s.amountIn s.operation e) t := by
  rw [run, guarded, Run.exec_tryCatch, exec_bind_of_error h]

theorem Sound.ends (hs : s.Sound) (c : Collaborators) : Ends s c (exec (s.run c) {}).1 (exec (s.run c) {}).2 := by
  have hfail := exec_failedResult hs.failed hs.error s.amountIn s.operation
  cases hx : exec s.ready {} with
  | mk x t =>
    cases x with
    | error e =>
      rw [exec_run_of_unready hx]
      exact .unready hx (hfail e t).1 (hfail e t).2
    | ok x =>
      by_cases hmissing : c.signer = none ∨ c.writer = none
      · obtain ⟨e, hsub⟩ := exec_submit_of_missing hmissing s.receiver (s.payload x) (s.limit x) t
        rw [run, guarded, Run.exec_tryCatch, exec_bind_of_ok hx, exec_bind_of_error hsub]
        exact .missing hx hmissing (hfail e t).1 (hfail e t).2
      rw [not_or, ← ne_eq, ← ne_eq, Option.ne_none_iff_exists', Option.ne_none_iff_exists'] at hmissing
      obtain ⟨⟨signer, hsigner⟩, writer, hwriter⟩ := hmissing
      cases hr : signer t (s.payload x) with
      | ok report => exact hs.ends_of_answer hx hsigner hwriter hr
      | error e =>
        have hsub := @exec_submit_of_refused c signer writer hsigner hwriter s.receiver _ (s.limit x) t e hr
        rw [(hs.unsubmitted hx).payloads, List.nil_append] at hsub
        rw [run, guarded, Run.exec_tryCatch, exec_bind_of_ok hx, exec_bind_of_error hsub]
        exact .refused hx hwriter (hfail e _).1 (hfail e _).2

/-- **An action in stages is disciplined.** -/
theorem Sound.disciplined (hs : s.Sound) (c : Collaborators) {gas : String} {Encoded : Bytes → Prop}
    (hready : ∀ x t, exec s.ready {} = (.ok x, t) → Encoded (s.payload x) ∧ gasLimit gas = .ok (s.limit x)) :
    Disciplined c s.receiver gas Encoded (exec (s.run c) {}).1 (exec (s.run c) {}).2 := by
  have hends := hs.ends c
  generalize exec (s.run c) {} = done at hends ⊢
  obtain ⟨result, t'⟩ := done
  cases hends with
  | unready h hl hf => exact disciplined_of_unsigned ((hs.unsubmitted h).later hl) hf
  | missing h hc hl hf => exact disciplined_of_unsigned ((hs.unsubmitted h).later hl) hf
  | refused h hw hl hf =>
    obtain ⟨hE, hg⟩ := hready _ _ h
    obtain ⟨es, -, rfl⟩ := hl
    exact disciplined_of_unwritten rfl (hs.unsubmitted h).submissions (by rw [hw]; rfl) hE hg hf
  | submitted h hsigner hw hr ha hc later =>
    obtain ⟨hE, hg⟩ := hready _ _ h
    exact disciplined_of_written hsigner hw (hs.unsubmitted h) hE hg hr later ha hc

theorem Sound.exists_ready_of_signed (hs : s.Sound) {p : Bytes} (hp : p ∈ (exec (s.run c) {}).2.payloads) :
    ∃ x t, exec s.ready {} = (.ok x, t) ∧ p = s.payload x ∧ (exec (s.run c) {}).2.reads = t.reads := by
  have hends := hs.ends c
  generalize exec (s.run c) {} = done at hends hp ⊢
  obtain ⟨result, t'⟩ := done
  cases hends with
  | unready h hl hf =>
    rw [((hs.unsubmitted h).later hl).payloads] at hp
    cases hp
  | missing h hc hl hf =>
    rw [((hs.unsubmitted h).later hl).payloads] at hp
    cases hp
  | refused h hw hl hf =>
    obtain ⟨es, -, rfl⟩ := hl
    exact ⟨_, _, h, List.mem_singleton.mp hp, rfl⟩
  | submitted h hsigner hw hr ha hc later => exact ⟨_, _, h, List.mem_singleton.mp hp, rfl⟩

theorem Sound.payloads_of_unready (hs : s.Sound) {e : Failure} {t : Trace} (h : exec s.ready {} = (.error e, t)) :
    (exec (s.run c) {}).2.payloads = [] := by
  rw [List.eq_nil_iff_forall_not_mem]
  intro p hp
  obtain ⟨x, t', hx, -⟩ := hs.exists_ready_of_signed hp
  rw [h] at hx
  cases hx

theorem Sound.mem_payloads_of_ready (hs : s.Sound) {signer : Signer} {writer : Writer}
    (hsigner : c.signer = some signer) (hwriter : c.writer = some writer) {x : α} {t : Trace}
    (hx : exec s.ready {} = (.ok x, t)) : s.payload x ∈ (exec (s.run c) {}).2.payloads := by
  have hends := hs.ends c
  generalize exec (s.run c) {} = done at hends ⊢
  obtain ⟨result, t'⟩ := done
  cases hends with
  | unready h hl hf => cases hx.symm.trans h
  | missing h hc hl hf =>
    rw [hsigner, hwriter] at hc
    rcases hc with hc | hc <;> cases hc
  | refused h hw hl hf =>
    obtain ⟨hx', rfl⟩ := Prod.mk.inj (hx.symm.trans h)
    obtain rfl := Except.ok.inj hx'
    obtain ⟨es, -, rfl⟩ := hl
    exact List.mem_singleton.mpr rfl
  | submitted h hsigner hw hr ha hc later =>
    obtain ⟨hx', rfl⟩ := Prod.mk.inj (hx.symm.trans h)
    obtain rfl := Except.ok.inj hx'
    exact List.mem_singleton.mpr rfl

theorem Sound.submissions_of_ready (hs : s.Sound) {signer : Signer} {writer : Writer}
    (hsigner : c.signer = some signer) (hwriter : c.writer = some writer) {x : α} {t : Trace}
    (hx : exec s.ready {} = (.ok x, t)) {report : SignedReport} (hr : signer t (s.payload x) = .ok report) :
    (exec (s.run c) {}).2.submissions = [⟨s.receiver, s.limit x⟩] := by
  obtain ⟨_, _, _, hrun, -⟩ := hs.exec_run_of_answer hx hsigner hwriter hr
  rw [hrun]
  rfl

/-- Whatever is read is read before the submission. -/
theorem Sound.reads_eq (hs : s.Sound) (c : Collaborators) :
    (exec (s.run c) {}).2.reads = (exec s.ready {}).2.reads := by
  have hends := hs.ends c
  generalize exec (s.run c) {} = done at hends ⊢
  obtain ⟨result, t'⟩ := done
  cases hends with
  | unready h hl hf | missing h hc hl hf | refused h hw hl hf =>
    obtain ⟨es, -, rfl⟩ := hl
    rw [h]
  | submitted h hsigner hw hr ha hc later => rw [h]

end Stages

end Workflow

end DefiActions
