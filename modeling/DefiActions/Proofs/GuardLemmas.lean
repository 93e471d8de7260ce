import DefiActions.Proofs.ExceptLemmas
import DefiActions.Proofs.RunLemmas
import DefiActions.Workflow.Guard

/-!
# Parts of every action

What a required field and a gas limit come to, what each way of submitting
leaves behind, and that the guard adds nothing but events and no success.
-/

namespace DefiActions.Workflow

open Run (exec exec_bind exec_bind_of_ok exec_bind_of_error eventsOnly submitting)

/-! ## Required fields -/

theorem require_eq_ok {s field n : String} {hint : Option String} (h : require (some s) field hint = .ok n) :
    n = s := by
  simp only [require] at h
  split at h
  · exact absurd h fail_ne_ok
  · exact (Except.ok.inj h).symm

theorem given_of_require {s field n : String} {hint : Option String} (h : require (some s) field hint = .ok n) :
    Text.isVacant s = false := by
  simp only [require] at h
  split at h
  · exact absurd h fail_ne_ok
  · rename_i hgiven
    exact Bool.eq_false_iff.mpr hgiven

theorem require_of_given {s : String} (h : Text.isVacant s = false) (field : String) (hint : Option String) :
    require (some s) field hint = .ok s := by
  simp [require, h]

/-! ## Submitting -/

theorem gasLimit_eq_ok {s : String} {n : Int} : gasLimit s = .ok n ↔
    0 < n ∧ Text.readInt .ten s.toList = .ok n := by
  unfold gasLimit
  cases h : Text.readInt .ten s.toList with
  | error e => simp
  | ok m =>
    by_cases hm : m ≤ 0
    · simp only [hm, ite_true, Except.ok.injEq]
      constructor
      · intro h; cases h
      · rintro ⟨hn, rfl⟩; omega
    · simp only [hm, ite_false, Except.ok.injEq]
      constructor
      · rintro rfl; exact ⟨by omega, rfl⟩
      · exact And.right

theorem exec_submit_of_missing {c : Collaborators} (h : c.signer = none ∨ c.writer = none) (receiver : String)
    (payload : Bytes) (gas : Int) (t : Trace) : ∃ e, exec (submit c receiver payload gas) t = (.error e, t) := by
  unfold submit
  rcases h with h | h
  · rw [h]
    exact ⟨_, rfl⟩
  · rw [h]
    cases c.signer with
    | none => exact ⟨_, rfl⟩
    | some signer => exact ⟨_, rfl⟩

theorem exec_submit_of_refused {c : Collaborators} {signer : Signer} {writer : Writer} (hs : c.signer = some signer)
    (hw : c.writer = some writer) {receiver : String} {payload : Bytes} {gas : Int} {t : Trace} {e : Failure}
    (h : signer t payload = .error e) :
    exec (submit c receiver payload gas) t = (.error e, { t with payloads := t.payloads ++ [payload] }) := by
  unfold submit
  rw [hs, hw]
  refine exec_bind_of_error ?_
  rw [Run.sign, Run.exec_answer, h]

theorem exec_submit_of_signed {c : Collaborators} {signer : Signer} {writer : Writer} (hs : c.signer = some signer)
    (hw : c.writer = some writer) {receiver : String} {payload : Bytes} {gas : Int} {t : Trace}
    {report : SignedReport} (h : signer t payload = .ok report) :
    exec (submit c receiver payload gas) t =
      (writer { t with payloads := t.payloads ++ [payload], events := t.events ++ [submitting] } receiver
          report gas,
        { t with payloads := t.payloads ++ [payload], events := t.events ++ [submitting],
                 submissions := t.submissions ++ [⟨receiver, gas⟩] }) := by
  unfold submit
  rw [hs, hw]
  have hr : exec (Run.sign signer payload) t = (.ok report, { t with payloads := t.payloads ++ [payload] }) := by
    rw [Run.sign, Run.exec_answer, h]
  refine (exec_bind_of_ok hr).trans ?_
  rw [exec_bind, Run.exec_report]
  exact Run.exec_answer _ _ _

/-! ## The guard -/

theorem exec_failedResult {workflow : String} (hf : workflow ++ "_failed" ≠ submitting.name)
    (he : workflow ++ "_error" ≠ submitting.name) (amountIn operation : Option String) (f : Failure) (t : Trace) :
    eventsOnly.Rel t (exec (failedResult workflow amountIn operation f) t).2 ∧
      ∀ r, (exec (failedResult workflow amountIn operation f) t).1 = .ok r → r.success = false := by
  unfold failedResult
  cases f with
  | action e =>
    refine ⟨Run.keeps_lift_bind (fun r => Run.keeps_bind (Run.keeps_report hf) fun _ => Run.keeps_pure r) t, ?_⟩
    intro r hr
    simp only at hr
    rw [exec_bind, Run.exec_lift] at hr
    cases hk : ActionResult.ofError e amountIn operation with
    | error e => rw [hk] at hr; cases hr
    | ok r' =>
      rw [hk] at hr
      obtain rfl := Except.ok.inj hr
      unfold ActionResult.ofError at hk
      split at hk
      · cases hk; rfl
      · cases hk
  | _ =>
    refine ⟨Run.keeps_bind (Run.keeps_report he) (fun _ => Run.keeps_pure _) t, ?_⟩
    intro r hr
    obtain rfl := Except.ok.inj hr
    rfl

theorem fst_exec_failedResult {f : Failure} (h : ∀ e, f ≠ .action e) (workflow : String)
    (amountIn operation : Option String) (t : Trace) :
    (exec (failedResult workflow amountIn operation f) t).1 = .ok (.failed f.summary amountIn operation) := by
  cases f with
  | action e => exact absurd rfl (h e)
  | _ => rfl

theorem fst_exec_failedResult_of_badResponse (workflow message : String) (amountIn operation : Option String)
    (t : Trace) : (exec (failedResult workflow amountIn operation (.badResponse message)) t).1 =
      .ok (.failed message amountIn operation (some .invalidCollaboratorResponse)) := rfl

end DefiActions.Workflow
