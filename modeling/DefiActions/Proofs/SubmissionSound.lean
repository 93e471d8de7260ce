import DefiActions.Proofs.StagesSound
import DefiActions.Workflow.Lending
import DefiActions.Workflow.Route
import DefiActions.Workflow.Swap

/-!
# Submission discipline

Each workflow that submits a report is an action in stages: it gets ready
without signing or submitting, and its result follows from the outcome.
-/

namespace DefiActions.Workflow

open Run (exec exec_bind exec_bind_of_ok exec_bind_of_error Keeps eventsOnly unsigned submitting)

/-! ## Swaps -/

theorem concludes_classify (amountIn amountOut operation : Option String) :
    Concludes fun o => Settlement.classify o amountIn amountOut operation where
  keeps o := Settlement.keeps_classify o _ _ _
  ok_of_success o t h := by
    rw [Settlement.exec_classify_of_success h]
    exact ⟨_, rfl, rfl, rfl⟩
  isSuccess o t r hr hs := Settlement.success_of_exec_classify (Prod.ext hr rfl) hs

namespace Swap

open Config (SwapConfig)

def Encoded (config : SwapConfig) (c : Collaborators) (payload : Bytes) : Prop :=
  ∃ prepared, (Run.start (prepare config c)).1 = .ok prepared ∧ Report.encode prepared.report = .ok payload

theorem keeps_priceLimit (config : SwapConfig) (c : Collaborators) (key : Pool.Key) (zeroForOne : Bool) :
    Keeps unsigned (priceLimit config c key zeroForOne) := by
  unfold priceLimit
  split
  · exact Run.keeps_bind (Run.keeps_unsigned (Run.keeps_report (by decide))) fun _ => Run.keeps_pure _
  split
  · exact Run.keeps_throw _
  · refine Run.keeps_lift_bind fun id => Run.keeps_lift_bind fun call => ?_
    refine Run.keeps_bind (Run.keeps_readContract _ _ _) fun data => Run.keeps_lift_bind fun slot0 => ?_
    refine Run.keeps_bind (Run.keeps_unsigned (Run.keeps_report (by decide))) fun _ => ?_
    refine Run.keeps_ite ?_ (Run.keeps_lift _)
    exact Run.keeps_lift_bind fun _ => Run.keeps_bind (Run.keeps_fail _) fun _ => Run.keeps_lift _

theorem keeps_minimumOut (config : SwapConfig) : Keeps eventsOnly (minimumOut config) := by
  unfold minimumOut
  split
  · exact Run.keeps_pure _
  · refine Run.keeps_ite ?_ (Run.keeps_pure _)
    exact Run.keeps_bind (Run.keeps_report (by decide)) fun _ => Run.keeps_pure _

theorem keeps_prepare (config : SwapConfig) (c : Collaborators) : Keeps unsigned (prepare config c) := by
  unfold prepare
  refine Run.keeps_lift_bind fun _ => Run.keeps_lift_bind fun _ => ?_
  refine Run.keeps_lift_bind fun _ => Run.keeps_lift_bind fun pool => ?_
  refine Run.keeps_bind (Run.keeps_unsigned (keeps_minimumOut config)) fun _ => ?_
  refine Run.keeps_bind (keeps_priceLimit config c _ _) fun _ => Run.keeps_lift_bind fun _ => ?_
  refine Run.keeps_lift_bind fun _ => Run.keeps_lift_bind fun _ => ?_
  exact Run.keeps_lift_bind fun _ => Run.keeps_pure _

def ready (config : SwapConfig) (c : Collaborators) : Run (Prepared × Bytes × Int) := do
  let prepared ← prepare config c
  let payload ← Report.encode prepared.report
  Run.report .info "v4_swap"
  let gas ← gasLimit config.gasLimit
  return (prepared, payload, gas)

def stages (config : SwapConfig) (c : Collaborators) : Stages (Prepared × Bytes × Int) where
  workflow := "uniswap_swap"
  amountIn := config.input.amount
  operation := none
  receiver := config.receiver
  ready := ready config c
  payload x := x.2.1
  limit x := x.2.2
  finish x o := Settlement.classify o config.input.amount (some (Text.numeral x.1.minimumOut)) none

theorem run_eq (config : SwapConfig) (c : Collaborators) : run config c = (stages config c).run c := by
  simp only [run, action, Stages.run, stages, ready, bind_assoc, pure_bind]

theorem keeps_ready (config : SwapConfig) (c : Collaborators) : Keeps unsigned (ready config c) := by
  refine Run.keeps_bind (keeps_prepare config c) fun _ => Run.keeps_lift_bind fun _ => ?_
  refine Run.keeps_bind (Run.keeps_unsigned (Run.keeps_report (by decide))) fun _ => ?_
  exact Run.keeps_lift_bind fun _ => Run.keeps_pure _

theorem ready_eq_ok {config : SwapConfig} {c : Collaborators} {x : Prepared × Bytes × Int} {t : Trace}
    (h : exec (ready config c) {} = (.ok x, t)) : ∃ t₀, exec (prepare config c) {} = (.ok x.1, t₀) ∧
      t.reads = t₀.reads ∧ Report.encode x.1.report = .ok x.2.1 ∧ gasLimit config.gasLimit = .ok x.2.2 := by
  obtain ⟨prepared, t₁, hp, h⟩ := Run.exec_bind_eq_ok.mp h
  obtain ⟨payload, he, h⟩ := Run.exec_lift_bind_eq_ok.mp h
  obtain ⟨_, t₂, hr, h⟩ := Run.exec_bind_eq_ok.mp h
  obtain ⟨gas, hg, h⟩ := Run.exec_lift_bind_eq_ok.mp h
  obtain ⟨-, rfl⟩ := Prod.mk.inj hr
  obtain ⟨hx, rfl⟩ := Prod.mk.inj h
  obtain rfl := Except.ok.inj hx
  exact ⟨t₁, hp, rfl, he, hg⟩

theorem stages_sound (config : SwapConfig) (c : Collaborators) : (stages config c).Sound where
  failed := (by decide : "uniswap_swap" ++ "_failed" ≠ submitting.name)
  error := (by decide : "uniswap_swap" ++ "_error" ≠ submitting.name)
  quiet := keeps_ready config c
  concludes x := concludes_classify _ _ _

theorem disciplined (config : SwapConfig) (c : Collaborators) :
    Disciplined c config.receiver config.gasLimit (Encoded config c) (Run.start (run config c)).1
      (Run.start (run config c)).2 := by
  rw [Run.start_eq, run_eq]
  refine (stages_sound config c).disciplined c fun x t h => ?_
  obtain ⟨t₀, hp, -, he, hg⟩ := ready_eq_ok h
  exact ⟨⟨x.1, by rw [Run.start_eq, hp], he⟩, hg⟩

/-- What was signed is the encoding of the prepared report, and nothing was read since it was prepared. -/
theorem exists_prepared_of_signed {config : SwapConfig} {c : Collaborators} {p : Bytes}
    (hp : p ∈ (Run.start (run config c)).2.payloads) : ∃ prepared t₀,
      exec (prepare config c) {} = (.ok prepared, t₀) ∧ Report.encode prepared.report = .ok p ∧
      (Run.start (run config c)).2.reads = t₀.reads := by
  rw [Run.start_eq, run_eq] at hp ⊢
  obtain ⟨x, t₁, hx, rfl, hreads⟩ := (stages_sound config c).exists_ready_of_signed hp
  obtain ⟨t₀, hprep, hr, he, -⟩ := ready_eq_ok hx
  exact ⟨x.1, t₀, hprep, he, hreads.trans hr⟩

theorem exec_ready {config : SwapConfig} {c : Collaborators} {prepared : Prepared} {t : Trace}
    (hp : exec (prepare config c) {} = (.ok prepared, t)) {payload : Bytes}
    (he : Report.encode prepared.report = .ok payload) {gas : Int} (hg : gasLimit config.gasLimit = .ok gas) :
    ∃ t', exec (ready config c) {} = (.ok (prepared, payload, gas), t') := by
  rw [ready, exec_bind_of_ok hp, he, hg, exec_bind, Run.exec_lift]
  simp only
  rw [exec_bind, Run.exec_report]
  simp only
  rw [exec_bind, Run.exec_lift]
  exact ⟨_, rfl⟩

theorem mem_payloads_of_prepared {config : SwapConfig} {c : Collaborators} {signer : Signer} {writer : Writer}
    (hs : c.signer = some signer) (hw : c.writer = some writer) {prepared : Prepared} {t : Trace}
    (hp : exec (prepare config c) {} = (.ok prepared, t)) {payload : Bytes}
    (he : Report.encode prepared.report = .ok payload) {gas : Int} (hg : gasLimit config.gasLimit = .ok gas) :
    payload ∈ (Run.start (run config c)).2.payloads := by
  obtain ⟨t', hx⟩ := exec_ready hp he hg
  rw [Run.start_eq, run_eq]
  exact (stages_sound config c).mem_payloads_of_ready hs hw hx

end Swap

/-! ## Lending operations -/

namespace Lending

open Config (LendingConfig)

def Encoded (config : LendingConfig) (c : Collaborators) (payload : Bytes) : Prop :=
  ∃ report, (Run.start (prepare config c)).1 = .ok report ∧ Report.encode report = .ok payload

theorem keeps_aToken (config : LendingConfig) (c : Collaborators) (pool : String) :
    Keeps unsigned (aToken config c pool) := by
  unfold aToken
  refine Run.keeps_ite (Run.keeps_pure _) ?_
  split
  · exact Run.keeps_throw _
  · refine Run.keeps_lift_bind fun call => Run.keeps_bind (Run.keeps_readContract _ _ _) fun data => ?_
    refine Run.keeps_lift_bind fun found => ?_
    exact Run.keeps_bind (Run.keeps_unsigned (Run.keeps_report (by decide))) fun _ => Run.keeps_pure _

theorem keeps_prepare (config : LendingConfig) (c : Collaborators) : Keeps unsigned (prepare config c) := by
  unfold prepare
  refine Run.keeps_lift_bind fun _ => Run.keeps_lift_bind fun _ => ?_
  refine Run.keeps_lift_bind fun pool => Run.keeps_lift_bind fun _ => ?_
  refine Run.keeps_lift_bind fun _ => Run.keeps_lift_bind fun _ => ?_
  exact Run.keeps_bind (keeps_aToken config c pool) fun _ => Run.keeps_lift _

def ready (config : LendingConfig) (c : Collaborators) : Run (Bytes × Int) := do
  let payload ← Report.encode (← prepare config c)
  Run.report .info "aave_operation"
  let gas ← gasLimit config.gasLimit
  return (payload, gas)

def stages (config : LendingConfig) (c : Collaborators) : Stages (Bytes × Int) where
  workflow := "aave_lending"
  amountIn := config.amount
  operation := config.operation
  receiver := config.receiver
  ready := ready config c
  payload x := x.1
  limit x := x.2
  finish _ o := Settlement.classify o config.amount none config.operation

theorem run_eq (config : LendingConfig) (c : Collaborators) : run config c = (stages config c).run c := by
  simp only [run, action, Stages.run, stages, ready, bind_assoc, pure_bind]

theorem stages_sound (config : LendingConfig) (c : Collaborators) : (stages config c).Sound where
  failed := (by decide : "aave_lending" ++ "_failed" ≠ submitting.name)
  error := (by decide : "aave_lending" ++ "_error" ≠ submitting.name)
  quiet := by
    refine Run.keeps_bind (keeps_prepare config c) fun _ => Run.keeps_lift_bind fun _ => ?_
    refine Run.keeps_bind (Run.keeps_unsigned (Run.keeps_report (by decide))) fun _ => ?_
    exact Run.keeps_lift_bind fun _ => Run.keeps_pure _
  concludes x := concludes_classify _ _ _

theorem disciplined (config : LendingConfig) (c : Collaborators) :
    Disciplined c config.receiver config.gasLimit (Encoded config c) (Run.start (run config c)).1
      (Run.start (run config c)).2 := by
  rw [Run.start_eq, run_eq]
  refine (stages_sound config c).disciplined c fun x t h => ?_
  obtain ⟨report, t₁, hp, h⟩ := Run.exec_bind_eq_ok.mp h
  obtain ⟨payload, he, h⟩ := Run.exec_lift_bind_eq_ok.mp h
  obtain ⟨_, t₂, -, h⟩ := Run.exec_bind_eq_ok.mp h
  obtain ⟨gas, hg, h⟩ := Run.exec_lift_bind_eq_ok.mp h
  obtain rfl := Except.ok.inj (Prod.mk.inj h).1
  exact ⟨⟨report, by rw [Run.start_eq, hp], he⟩, hg⟩

end Lending

/-! ## Swaps along a route -/

namespace Route

open Config (RouteConfig)

def Encoded (config : RouteConfig) (c : Collaborators) (payload : Bytes) : Prop :=
  ∃ quote report, (Run.start (fetchQuote config c)).1 = .ok quote ∧ prepare config quote = .ok report ∧
    Report.encode report = .ok payload

theorem keeps_fetchQuote (config : RouteConfig) (c : Collaborators) : Keeps unsigned (fetchQuote config c) := by
  unfold fetchQuote
  split
  · exact Run.keeps_throw _
  · refine Run.keeps_bind (Run.keeps_unsigned (Run.keeps_report (by decide))) fun _ => ?_
    exact Run.keeps_bind (Run.keeps_send _ _) fun _ => Run.keeps_lift _

def ready (config : RouteConfig) (c : Collaborators) : Run (String × Bytes × Int) := do
  let _ ← require config.receiver "swapReceiverAddress" (some "deploy LifiReceiver and set in config")
  let quote ← fetchQuote config c
  let report ← prepare config quote
  let expected ← expectedOut quote
  Run.report .info "lifi_quote_received"
  let payload ← Report.encode report
  let gas ← gasLimit config.gasLimit
  return (expected, payload, gas)

def finish (config : RouteConfig) (expected : String) (o : Outcome) : Run ActionResult := do
  let result ← Settlement.classify o config.input.amount (some expected) none
  if result.success ∧ result.txHash.isSome then Run.report .info "lifi_swap_executed"
  return result

def stages (config : RouteConfig) (c : Collaborators) : Stages (String × Bytes × Int) where
  workflow := "lifi_swap"
  amountIn := config.input.amount
  operation := none
  receiver := config.receiver
  ready := ready config c
  payload x := x.2.1
  limit x := x.2.2
  finish x := finish config x.1

theorem run_eq (config : RouteConfig) (c : Collaborators) : run config c = (stages config c).run c := by
  simp only [run, action, Stages.run, stages, ready, bind_assoc, pure_bind]
  rfl

theorem exec_finish {config : RouteConfig} {expected : String} {o : Outcome} {t t' : Trace} {r : ActionResult}
    (h : exec (Settlement.classify o config.input.amount (some expected) none) t = (.ok r, t')) :
    (exec (finish config expected o) t).1 = .ok r := by
  rw [finish, exec_bind_of_ok h]
  split <;> rfl

theorem concludes_finish (config : RouteConfig) (expected : String) : Concludes (finish config expected) where
  keeps o := by
    refine Run.keeps_bind (Settlement.keeps_classify o _ _ _) fun r => Run.keeps_ite ?_ (Run.keeps_pure _)
    exact Run.keeps_bind (Run.keeps_report (by decide)) fun _ => Run.keeps_pure _
  ok_of_success o t h := ⟨_, exec_finish (Settlement.exec_classify_of_success h _ _ _ t), rfl, rfl⟩
  isSuccess o t r hr hs := by
    cases hc : exec (Settlement.classify o config.input.amount (some expected) none) t with
    | mk x t' =>
      cases x with
      | error e =>
        rw [finish, exec_bind_of_error hc] at hr
        cases hr
      | ok r' =>
        obtain rfl := Except.ok.inj ((exec_finish hc).symm.trans hr)
        exact Settlement.success_of_exec_classify hc hs

theorem stages_sound (config : RouteConfig) (c : Collaborators) : (stages config c).Sound where
  failed := (by decide : "lifi_swap" ++ "_failed" ≠ submitting.name)
  error := (by decide : "lifi_swap" ++ "_error" ≠ submitting.name)
  quiet := by
    refine Run.keeps_lift_bind fun _ => Run.keeps_bind (keeps_fetchQuote config c) fun _ => ?_
    refine Run.keeps_lift_bind fun _ => Run.keeps_lift_bind fun _ => ?_
    refine Run.keeps_bind (Run.keeps_unsigned (Run.keeps_report (by decide))) fun _ => ?_
    exact Run.keeps_lift_bind fun _ => Run.keeps_lift_bind fun _ => Run.keeps_pure _
  concludes x := concludes_finish config x.1

theorem disciplined (config : RouteConfig) (c : Collaborators) :
    Disciplined c config.receiver config.gasLimit (Encoded config c) (Run.start (run config c)).1
      (Run.start (run config c)).2 := by
  rw [Run.start_eq, run_eq]
  refine (stages_sound config c).disciplined c fun x t h => ?_
  obtain ⟨_, -, h⟩ := Run.exec_lift_bind_eq_ok.mp h
  obtain ⟨quote, t₁, hq, h⟩ := Run.exec_bind_eq_ok.mp h
  obtain ⟨report, hp, h⟩ := Run.exec_lift_bind_eq_ok.mp h
  obtain ⟨expected, t₂, -, h⟩ := Run.exec_bind_eq_ok.mp h
  obtain ⟨_, t₃, -, h⟩ := Run.exec_bind_eq_ok.mp h
  obtain ⟨payload, he, h⟩ := Run.exec_lift_bind_eq_ok.mp h
  obtain ⟨gas, hg, h⟩ := Run.exec_lift_bind_eq_ok.mp h
  obtain rfl := Except.ok.inj (Prod.mk.inj h).1
  exact ⟨⟨quote, report, by rw [Run.start_eq, hq], hp, he⟩, hg⟩

end Route

/-- **Every workflow that submits reports submits at most one, and tells what came of it.** -/
theorem submission_discipline (c : Collaborators) :
    (∀ config : Config.SwapConfig, Disciplined c config.receiver config.gasLimit (Swap.Encoded config c)
      (Run.start (Swap.run config c)).1 (Run.start (Swap.run config c)).2) ∧
    (∀ config : Config.LendingConfig, Disciplined c config.receiver config.gasLimit (Lending.Encoded config c)
      (Run.start (Lending.run config c)).1 (Run.start (Lending.run config c)).2) ∧
    (∀ config : Config.RouteConfig, Disciplined c config.receiver config.gasLimit (Route.Encoded config c)
      (Run.start (Route.run config c)).1 (Run.start (Route.run config c)).2) :=
  ⟨fun config => Swap.disciplined config c, fun config => Lending.disciplined config c,
    fun config => Route.disciplined config c⟩

end DefiActions.Workflow
