import DefiActions.Proofs.ConfinementSound

/-!
# ATokens of signed withdrawals

A withdrawal names the aToken that is configured, or else the one that the pool
gives for its asset. The zero address counts as none in the configuration but
not in the answer of the pool, so a withdrawal names an aToken exactly where it
was not looked up for an asset that the pool does not list.
-/

namespace DefiActions

theorem ContractCall.normalize_of_decodeReserveAToken {data : Bytes} {token : String}
    (h : decodeReserveAToken data = .ok token) : Address.normalize token = token := by
  obtain ⟨vs, -, hv⟩ := map_eq_ok.mp h
  split at hv
  · rw [← hv]
    exact Address.normalize_normalize _
  · rw [← hv, Address.zero_eq_literal]
    exact Address.normalize_literal _

namespace Workflow.Lending

open Config (LendingConfig)
open Run (exec exec_bind_of_ok exec_bind_eq_ok exec_lift_bind_eq_ok Keeps unread)

variable {config : LendingConfig} {c : Collaborators}

/-! ## The operation -/

def withdrawCode : Int := 1

theorem operationCode_eq_withdrawCode {operation : String} {code : Int} (h : operationCode operation = .ok code) :
    code = withdrawCode ↔ operation = "WITHDRAW" := by
  unfold operationCode at h
  split at h
  · rename_i found hl
    obtain rfl := Except.ok.inj h
    obtain ⟨before, after, he, -⟩ := List.lookup_eq_some_iff.mp hl
    have hmem : (operation, found) ∈ operationCodes := he ▸ List.mem_append_right _ List.mem_cons_self
    have hall : ∀ e ∈ operationCodes, e.2 = withdrawCode ↔ e.1 = "WITHDRAW" := by decide
    exact hall _ hmem
  · rw [fail] at h
    cases h

/-! ## The reading -/

/-- Whatever a prepared operation read, its run read. -/
theorem reads_of_prepare {report : Report.Descriptor} {t : Trace}
    (h : exec (prepare config c) {} = (.ok report, t)) :
    (Run.start (run config c)).2.reads = t.reads := by
  have hrest : Keeps unread (do
      let payload ← (liftM (Report.encode report) : Run Bytes)
      Run.report .info "aave_operation"
      let gas ← (liftM (gasLimit config.gasLimit) : Run Int)
      return (payload, gas)) := by
    refine Run.keeps_lift_bind fun _ => ?_
    refine Run.keeps_bind (Run.keeps_unread (Run.keeps_report (by decide))) fun _ => ?_
    exact Run.keeps_lift_bind fun _ => Run.keeps_pure _
  rw [Run.start_eq, run_eq, (stages_sound config c).reads_eq]
  have hready : exec (stages config c).ready {} = exec (ready config c) {} := rfl
  rw [hready, ready, exec_bind_of_ok h]
  exact hrest t

theorem exec_aToken_of_looksUp {pool token : String} {t : Trace} (h : LooksUp config)
    (ht : exec (aToken config c pool) {} = (.ok token, t)) : ∃ reader call answer, c.reader = some reader ∧
      ContractCall.reserveData config.asset.address = .ok call ∧ t.reads = [⟨pool, call⟩] ∧
      reader {} pool call = .ok answer ∧ ContractCall.decodeReserveAToken answer = .ok token := by
  rw [looksUp_iff, ← not_not (a := _ ∧ _), Classical.not_and_iff_not_or_not] at h
  rw [aToken, if_neg h] at ht
  cases hr : c.reader with
  | none =>
    rw [hr] at ht
    cases ht
  | some reader =>
    rw [hr] at ht
    obtain ⟨call, hcall, ht⟩ := exec_lift_bind_eq_ok.mp ht
    obtain ⟨answer, t₁, hanswer, ht⟩ := exec_bind_eq_ok.mp ht
    obtain ⟨found, hfound, ht⟩ := exec_lift_bind_eq_ok.mp ht
    obtain ⟨_, t₂, hreport, ht⟩ := exec_bind_eq_ok.mp ht
    obtain ⟨ha, rfl⟩ := Prod.mk.inj ((Run.exec_answer _ _ _).symm.trans hanswer)
    obtain ⟨-, rfl⟩ := Prod.mk.inj hreport
    obtain ⟨hf, rfl⟩ := Prod.mk.inj ht
    obtain rfl := Except.ok.inj hf
    exact ⟨reader, call, answer, rfl, hcall, rfl, ha, hfound⟩

def ReadUnlisted (config : LendingConfig) (c : Collaborators) (t : Trace) : Prop :=
  LooksUp config ∧ ∃ reader pool call answer, c.reader = some reader ∧ poolAddress config = .ok pool ∧
    ContractCall.reserveData config.asset.address = .ok call ∧ t.reads = [⟨pool, call⟩] ∧
    reader {} pool call = .ok answer ∧ ContractCall.decodeReserveAToken answer = .ok Address.zero

/-- A withdrawal that states the zero address looked it up. -/
theorem normalize_aToken_eq_zero_iff {pool token : String} {t t' : Trace} (hw : config.operation = "WITHDRAW")
    (hpool : poolAddress config = .ok pool) (ht : exec (aToken config c pool) {} = (.ok token, t))
    (hreads : t'.reads = t.reads) : Address.normalize token = Address.zero ↔ ReadUnlisted config c t' := by
  by_cases h : LooksUp config
  · obtain ⟨reader, call, answer, hreader, hcall, hread, hanswer, htoken⟩ := exec_aToken_of_looksUp h ht
    rw [ContractCall.normalize_of_decodeReserveAToken htoken]
    constructor
    · rintro rfl
      exact ⟨h, reader, pool, call, answer, hreader, hpool, hcall, hreads.trans hread, hanswer, htoken⟩
    · rintro ⟨-, reader', pool', call', answer', hreader', -, -, hread', hanswer', htoken'⟩
      obtain rfl := Option.some.inj (hreader.symm.trans hreader')
      obtain ⟨rfl, rfl⟩ := ContractRead.mk.inj
        (List.head_eq_of_cons_eq (hread.symm.trans (hreads.symm.trans hread')))
      obtain rfl := Except.ok.inj (hanswer.symm.trans hanswer')
      exact Except.ok.inj (htoken.symm.trans htoken')
  · refine iff_of_false (fun hz => ?_) fun hr => h hr.1
    rw [aToken_of_configured h] at ht
    obtain rfl := Except.ok.inj (Prod.mk.inj ht).1
    exact h (looksUp_iff.mpr ⟨hw, hz⟩)

/-- **A signed withdrawal names its aToken, unless it was looked up for an asset that the pool does not list.** -/
theorem withdrawal_names_aToken_iff (config : LendingConfig) (c : Collaborators) :
    ∀ payload ∈ (Run.start (run config c)).2.payloads, ∃ d operation token,
      Report.decode .lending payload = .ok d ∧ d.get "operation" = .int operation ∧
      d.get "a_token_address" = .text token ∧ (operation = withdrawCode ↔ config.operation = "WITHDRAW") ∧
      (operation = withdrawCode →
        (token ≠ Address.zero ↔ ¬ ReadUnlisted config c (Run.start (run config c)).2)) := by
  intro payload hmem
  obtain ⟨report, t, hprep, he⟩ := exists_prepared_of_signed hmem
  obtain ⟨operation, pool, amount, token, hoperation, hpool, -, htoken, hd⟩ := prepare_eq_ok hprep
  have hcode := operationCode_eq_withdrawCode hoperation
  have hget : report.filled.get "operation" = .int operation :=
    Report.get_filled_of_given hd (f := ⟨"operation", .uint 8, "operation", none⟩) (by simp [Report.schema]) rfl
      (Report.normalField_word (by decide) (by decide) rfl) rfl
  have hname : report.filled.get "a_token_address" = .text (Address.normalize token) :=
    Report.get_filled_of_given hd (f := ⟨"a_token_address", .address, "aTokenAddress", Report.zeroAddress⟩)
      (by simp [Report.schema]) rfl (Report.normalField_text rfl token) rfl
  refine ⟨report.filled, operation, Address.normalize token, Report.decode_payload hd he, hget, hname, hcode, ?_⟩
  intro hw
  exact not_congr (normalize_aToken_eq_zero_iff (hcode.mp hw) hpool htoken (reads_of_prepare hprep))

end Workflow.Lending

namespace Workflow

/-! ## A listed and an unlisted asset -/

/-- A withdrawal that looks its aToken up and finds it. -/
theorem some_withdrawal_names_aToken :
    ∃ payload ∈ (Run.start (Lending.run someWithdrawal (signing (reserveWith 8)))).2.payloads, ∃ d token,
      Report.decode .lending payload = .ok d ∧ d.get "operation" = .int Lending.withdrawCode ∧
      d.get "a_token_address" = .text token ∧ token ≠ Address.zero := by
  have hfound : ContractCall.decodeReserveAToken (reserveWith 8) = .ok (Hex.literal (Pool.Key.someOctets 8)) :=
    eq_ok_of_isOk (by decide +kernel)
  obtain ⟨⟨payload, hp, hd⟩, -⟩ := signed_someWithdrawal hfound (by decide +kernel)
  obtain ⟨d, operation, token, h, hoperation, hname, -, hiff⟩ :=
    Lending.withdrawal_names_aToken_iff someWithdrawal (signing (reserveWith 8)) payload hp
  obtain rfl := Except.ok.inj (h.symm.trans hd)
  obtain rfl : 1 = operation := Value.int.inj hoperation
  refine ⟨payload, hp, _, token, h, hoperation, hname, (hiff rfl).mpr ?_⟩
  rintro ⟨-, reader, _, _, answer, hreader, -, -, -, hanswer, hzero⟩
  obtain rfl := Option.some.inj hreader
  obtain rfl := Except.ok.inj hanswer
  exact absurd (Except.ok.inj (hfound.symm.trans hzero)) (by decide +kernel)

/-- The pool gives no aToken for an asset that it does not list, and the withdrawal is signed all the same. -/
theorem unlisted_withdrawal_signed :
    ∃ payload ∈ (Run.start (Lending.run someWithdrawal (signing (reserveWith 0)))).2.payloads, ∃ d,
      Report.decode .lending payload = .ok d ∧ d.get "operation" = .int Lending.withdrawCode ∧
      d.get "a_token_address" = .text Address.zero := by
  obtain ⟨⟨payload, hp, hd⟩, -⟩ := @signed_someWithdrawal 0 (eq_ok_of_isOk (by decide +kernel)) (by decide +kernel)
  have hzero : Hex.literal (Pool.Key.someOctets 0) = Address.zero := by decide +kernel
  refine ⟨payload, hp, _, hd, rfl, ?_⟩
  rw [← hzero]
  rfl

end Workflow

end DefiActions
