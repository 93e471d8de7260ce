import DefiActions.Proofs.ReportLemmas
import DefiActions.Proofs.SpellingSound
import DefiActions.Proofs.SubmissionSound

/-!
# Prepared lending operations

A lending operation states its configuration, but for the aToken of a
withdrawal that names none: that one is looked up, and nothing else is read.
-/

namespace DefiActions.Workflow.Lending

open Config (LendingConfig)
open Run (exec exec_bind exec_bind_of_ok exec_bind_eq_ok exec_lift_bind_eq_ok exec_lift_eq_ok Keeps unread)

/-! ## Preparing -/

def terms (config : LendingConfig) (operation : Int) (pool : String) (amount : Nat) : Members := [
  ("operation", .int operation), ("pool_address", .text pool), ("asset", .text config.asset.address),
  ("amount", .int amount), ("wallet_address", .text config.wallet),
  ("on_behalf_of", .text ((present? config.onBehalfOf).getD config.wallet)),
  ("interest_rate_mode", .int (rateModeCode config.rateMode)),
  ("referral_code", .int (config.referralCode.getD 0))]

theorem prepare_eq_ok {config : LendingConfig} {c : Collaborators} {report : Report.Descriptor} {t : Trace}
    (h : exec (prepare config c) {} = (.ok report, t)) :
    ∃ operation pool amount token, operationCode config.operation = .ok operation ∧ poolAddress config = .ok pool ∧
      Uint256.ofText config.amount = .ok amount ∧ exec (aToken config c pool) {} = (.ok token, t) ∧
      Report.Descriptor.make .lending (terms config operation pool amount ++ [("a_token_address", .text token)]) =
        .ok report := by
  obtain ⟨_, -, h⟩ := exec_lift_bind_eq_ok.mp h
  obtain ⟨operation, hoperation, h⟩ := exec_lift_bind_eq_ok.mp h
  obtain ⟨pool, hpool, h⟩ := exec_lift_bind_eq_ok.mp h
  obtain ⟨wallet, hwallet, h⟩ := exec_lift_bind_eq_ok.mp h
  obtain ⟨asset, hasset, h⟩ := exec_lift_bind_eq_ok.mp h
  obtain ⟨amount, hamount, h⟩ := exec_lift_bind_eq_ok.mp h
  obtain ⟨token, t₁, htoken, h⟩ := exec_bind_eq_ok.mp h
  obtain ⟨hreport, rfl⟩ := exec_lift_eq_ok.mp h
  rw [require_eq_ok hwallet, require_eq_ok hasset] at hreport
  exact ⟨operation, pool, amount, token, hoperation, hpool, hamount, htoken, hreport⟩

theorem exec_prepare {config : LendingConfig} {c : Collaborators} {operation : Int} {pool token : String}
    {amount : Nat} {report : Report.Descriptor} {t : Trace}
    (hgiven : ∀ s ∈ [config.receiver, config.wallet, config.asset.address], Text.isVacant s = false)
    (hoperation : operationCode config.operation = .ok operation) (hpool : poolAddress config = .ok pool)
    (hamount : Uint256.ofText config.amount = .ok amount) (htoken : exec (aToken config c pool) {} = (.ok token, t))
    (hmake : Report.Descriptor.make .lending
      (terms config operation pool amount ++ [("a_token_address", .text token)]) = .ok report) :
    exec (prepare config c) {} = (.ok report, t) := by
  simp only [List.forall_mem_cons] at hgiven
  obtain ⟨h₁, h₂, h₃, -⟩ := hgiven
  rw [terms] at hmake
  simp only [List.cons_append, List.nil_append] at hmake
  simp only [prepare, exec_bind, Run.exec_lift, hoperation, hpool, hamount, htoken, require_of_given h₁,
    require_of_given h₂, require_of_given h₃, hmake]

/-- What was signed is the encoding of the prepared report. -/
theorem exists_prepared_of_signed {config : LendingConfig} {c : Collaborators} {p : Bytes}
    (hp : p ∈ (Run.start (run config c)).2.payloads) : ∃ report t,
      exec (prepare config c) {} = (.ok report, t) ∧ Report.encode report = .ok p := by
  obtain ⟨-, ⟨report, hr, he⟩, -⟩ := (disciplined config c).ready_of_signed p hp
  exact ⟨report, _, Prod.ext hr rfl, he⟩

theorem exec_ready {config : LendingConfig} {c : Collaborators} {report : Report.Descriptor} {t : Trace}
    (hp : exec (prepare config c) {} = (.ok report, t)) {payload : Bytes} (he : Report.encode report = .ok payload)
    {gas : Int} (hg : gasLimit config.gasLimit = .ok gas) :
    ∃ t', exec (ready config c) {} = (.ok (payload, gas), t') := by
  rw [ready, exec_bind_of_ok hp, he, hg, exec_bind, Run.exec_lift]
  simp only
  rw [exec_bind, Run.exec_report]
  simp only
  rw [exec_bind, Run.exec_lift]
  exact ⟨_, rfl⟩

/-! ## Looking up the aToken -/

/-- A withdrawal whose aToken is not configured, or as the zero address. -/
def LooksUp (config : LendingConfig) : Prop :=
  config.operation = "WITHDRAW" ∧
    ∀ s, config.asset.aTokenAddress = some s → s = "" ∨ Address.Spells s (Bytes.zeros 20)

theorem looksUp_iff {config : LendingConfig} : LooksUp config ↔ config.operation = "WITHDRAW" ∧
    Address.normalize ((present? config.asset.aTokenAddress).getD Address.zero) = Address.zero := by
  rw [LooksUp, and_congr_right_iff]
  intro _
  cases config.asset.aTokenAddress with
  | none => exact ⟨fun _ => by decide +kernel, fun _ => nofun⟩
  | some s =>
    simp only [Option.some.injEq, forall_eq']
    rw [← Address.normalize_eq_literal_iff, ← Address.zero_eq_literal]
    by_cases he : s = ""
    · have hzero : Address.normalize Address.zero = Address.zero := by decide +kernel
      rw [he]
      exact ⟨fun _ => hzero, fun _ => Or.inl rfl⟩
    · have hpresent : present? (some s) = some s := by simp [present?, he]
      rw [hpresent]
      exact ⟨fun hor => hor.resolve_left he, Or.inr⟩

theorem aToken_of_configured {config : LendingConfig} (h : ¬ LooksUp config) (c : Collaborators) (pool : String) :
    aToken config c pool = pure ((present? config.asset.aTokenAddress).getD Address.zero) := by
  rw [looksUp_iff, Classical.not_and_iff_not_or_not] at h
  rw [aToken, if_pos h]

theorem exec_aToken_of_answer {config : LendingConfig} (h : LooksUp config) {c : Collaborators} {reader : Reader}
    (hr : c.reader = some reader) {pool token : String} {call answer : Bytes}
    (hcall : ContractCall.reserveData config.asset.address = .ok call) (ha : reader {} pool call = .ok answer)
    (htoken : ContractCall.decodeReserveAToken answer = .ok token) :
    ∃ t, exec (aToken config c pool) {} = (.ok token, t) := by
  rw [looksUp_iff, ← not_not (a := _ ∧ _), Classical.not_and_iff_not_or_not] at h
  have hread : exec (Run.readContract reader pool call) {} = (.ok answer, { reads := [⟨pool, call⟩] }) := by
    rw [Run.readContract, Run.exec_answer, ha]
    rfl
  rw [aToken, if_neg h, hr]
  simp only [hcall, exec_bind, Run.exec_lift, hread, htoken, Run.exec_report]
  exact ⟨_, rfl⟩

theorem keeps_unread_ready {config : LendingConfig} (h : ¬ LooksUp config) (c : Collaborators) :
    Keeps unread (ready config c) := by
  have hprepare : Keeps unread (prepare config c) := by
    unfold prepare
    refine Run.keeps_lift_bind fun _ => Run.keeps_lift_bind fun _ => ?_
    refine Run.keeps_lift_bind fun pool => Run.keeps_lift_bind fun _ => ?_
    refine Run.keeps_lift_bind fun _ => Run.keeps_lift_bind fun _ => ?_
    refine Run.keeps_bind ?_ fun _ => Run.keeps_lift _
    rw [aToken_of_configured h]
    exact Run.keeps_pure _
  refine Run.keeps_bind hprepare fun _ => Run.keeps_lift_bind fun _ => ?_
  refine Run.keeps_bind (Run.keeps_unread (Run.keeps_report (by decide))) fun _ => ?_
  exact Run.keeps_lift_bind fun _ => Run.keeps_pure _

/-- **Nothing is read where the aToken is configured or not needed.** -/
theorem reads_eq_nil {config : LendingConfig} (h : ¬ LooksUp config) (c : Collaborators) :
    (Run.start (run config c)).2.reads = [] := by
  rw [Run.start_eq, run_eq, (stages_sound config c).reads_eq]
  exact keeps_unread_ready h c {}

end DefiActions.Workflow.Lending
