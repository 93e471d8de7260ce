import DefiActions.Proofs.OverrideSound
import DefiActions.Proofs.TradeSound
import DefiActions.Workflow.Catalog

/-!
# Well-formed results

The record of an action tells a hash and an amount out of a success only, and an
error of a failure only; a plan has all of its fields or none. Both hold of
every record that a workflow hands back. Swaps and lending operations also tell
the configured amount, whether they succeed or fail.
-/

namespace DefiActions

/-! ## Records -/

theorem member_presentFields {fields : List (String × Option Value)} (h : (fields.map Prod.fst).Nodup)
    (name : String) :
    (presentFields fields).member name = ((fields.lookup name).join).getD .null := by
  rw [presentFields, Value.member]
  induction fields with
  | nil => rfl
  | cons f fields ih =>
    obtain ⟨key, v⟩ := f
    obtain ⟨hkey, hrest⟩ := List.nodup_cons.mp h
    rw [List.filterMap_cons, List.lookup_cons]
    by_cases hn : name = key
    · subst hn
      cases v with
      | some v => simp [Members.get?_cons]
      | none =>
        have hnone : fields.lookup name = none := by
          rw [List.lookup_eq_none_iff]
          intro p hp
          rw [bne_iff_ne]
          rintro rfl
          exact hkey (List.mem_map.mpr ⟨p, hp, rfl⟩)
        rw [Option.map_none, ih hrest, hnone, beq_self_eq_true]
        rfl
    · rw [beq_eq_false_iff_ne.mpr hn]
      cases v with
      | some v => simpa [Members.get?_cons, hn] using ih hrest
      | none => exact ih hrest

def Unset (v : Value) (names : List String) : Prop := ∀ name ∈ names, v.member name = .null

/-- The record of a swap, a lending operation or a trade is that of a success or that of a failure. -/
inductive ActionRecord (v : Value) : Prop
  | succeeded (success : v.member "success" = .bool true) (unset : Unset v ["error", "errorKind"])
  | failed (message : String) (success : v.member "success" = .bool false)
    (error : v.member "error" = .text message)
    (unset : Unset v ["txHash", "amountOut"])

def planFields : List String :=
  ["poolId", "currency0", "currency1", "tickLower", "tickUpper", "sqrtPriceX96", "liquidity", "amount0", "amount1",
    "unlockData"]

/-- The record of a plan has all fields of the plan, or an error and none of them. -/
inductive PlanRecord (v : Value) : Prop
  | planned (success : v.member "success" = .bool true) (all : ∀ name ∈ planFields, v.member name ≠ .null)
    (unset : Unset v ["error", "errorKind"])
  | failed (message : String) (success : v.member "success" = .bool false)
    (error : v.member "error" = .text message)
    (unset : Unset v planFields)

namespace ActionResult

structure WellFormed (r : ActionResult) : Prop where
  succeeded : r.success = true → r.error = none ∧ r.errorKind = none
  failed : r.success = false → r.error.isSome = true ∧ r.txHash = none ∧ r.amountOut = none

theorem wellFormed_failed (message : String) (amountIn operation : Option String) (kind : Option ErrorKind) :
    (failed message amountIn operation kind).WellFormed := ⟨nofun, fun _ => ⟨rfl, rfl, rfl⟩⟩

theorem member_toValue (r : ActionResult) (name : String) : r.toValue.member name = (([
    ("success", some (.bool r.success)), ("txHash", textField r.txHash), ("operation", textField r.operation),
    ("amountIn", textField r.amountIn), ("amountOut", textField r.amountOut), ("error", textField r.error),
    ("errorKind", r.errorKind.map ErrorKind.toValue)].lookup name).join).getD .null :=
  member_presentFields (by simp only [List.map_cons, List.map_nil]; decide) name

theorem member_amountIn (r : ActionResult) : r.toValue.member "amountIn" = (textField r.amountIn).getD .null :=
  r.member_toValue "amountIn"

theorem WellFormed.record {r : ActionResult} (h : r.WellFormed) : ActionRecord r.toValue := by
  have hsuccess : r.toValue.member "success" = .bool r.success := r.member_toValue "success"
  have hhash : r.toValue.member "txHash" = (textField r.txHash).getD .null := r.member_toValue "txHash"
  have hout : r.toValue.member "amountOut" = (textField r.amountOut).getD .null := r.member_toValue "amountOut"
  have herror : r.toValue.member "error" = (textField r.error).getD .null := r.member_toValue "error"
  have hkind : r.toValue.member "errorKind" = (r.errorKind.map ErrorKind.toValue).getD .null :=
    r.member_toValue "errorKind"
  cases hs : r.success with
  | true =>
    obtain ⟨he, hk⟩ := h.succeeded hs
    refine .succeeded (by rw [hsuccess, hs]) ?_
    simp only [Unset, List.forall_mem_cons]
    exact ⟨by rw [herror, he]; rfl, by rw [hkind, hk]; rfl, nofun⟩
  | false =>
    obtain ⟨he, hh, ho⟩ := h.failed hs
    obtain ⟨message, hm⟩ := Option.isSome_iff_exists.mp he
    refine .failed message (by rw [hsuccess, hs]) (by rw [herror, hm]; rfl) ?_
    simp only [Unset, List.forall_mem_cons]
    exact ⟨by rw [hhash, hh]; rfl, by rw [hout, ho]; rfl, nofun⟩

end ActionResult

theorem PlanResult.record (r : PlanResult) : PlanRecord r.toValue := by
  cases r with
  | planned p =>
    refine .planned rfl ?_ ?_
    · simp only [planFields, List.forall_mem_cons]
      exact ⟨nofun, nofun, nofun, nofun, nofun, nofun, nofun, nofun, nofun, nofun, nofun⟩
    · simp only [Unset, List.forall_mem_cons]
      exact ⟨rfl, rfl, nofun⟩
  | failed message kind =>
    have hmember (name : String) : (PlanResult.failed message kind).toValue.member name = (([
        ("success", some (.bool false)), ("error", some (.text message)),
        ("errorKind", kind.map ErrorKind.toValue)].lookup name).join).getD .null :=
      member_presentFields (by simp only [List.map_cons, List.map_nil]; decide) name
    refine .failed message (hmember "success") (hmember "error") ?_
    simp only [planFields, Unset, List.forall_mem_cons]
    exact ⟨hmember _, hmember _, hmember _, hmember _, hmember _, hmember _, hmember _, hmember _, hmember _,
      hmember _, nofun⟩

/-! ## Actions -/

def Tells (amountIn : Option String) (r : ActionResult) : Prop := r.WellFormed ∧ r.amountIn = amountIn

theorem Settlement.tells_classify (o : Outcome) (amountIn amountOut operation : Option String) :
    Run.Yields (Tells amountIn) (classify o amountIn amountOut operation) := by
  unfold classify
  refine Run.yields_after fun succeeded => ?_
  split
  · exact Run.yields_after fun _ => Run.yields_pure ⟨⟨fun _ => ⟨rfl, rfl⟩, nofun⟩, rfl⟩
  · refine Run.yields_after fun message => Run.yields_after fun _ => Run.yields_pure ?_
    exact ⟨ActionResult.wellFormed_failed .., rfl⟩

namespace Workflow

theorem tells_failedResult (workflow : String) (amountIn operation : Option String) (f : Failure) :
    Run.Yields (Tells amountIn) (failedResult workflow amountIn operation f) := by
  unfold failedResult
  split
  · rename_i e
    refine Run.yields_bind (P := Tells amountIn) (Run.yields_lift fun r hr => ?_) fun r hr =>
      Run.yields_after fun _ => Run.yields_pure hr
    unfold ActionResult.ofError at hr
    split at hr
    · obtain rfl := Except.ok.inj hr
      exact ⟨ActionResult.wellFormed_failed .., rfl⟩
    · cases hr
  · exact Run.yields_after fun _ => Run.yields_pure ⟨ActionResult.wellFormed_failed .., rfl⟩

theorem tells_guarded {workflow : String} {amountIn operation : Option String} {action : Run ActionResult}
    (h : Run.Yields (Tells amountIn) action) :
    Run.Yields (Tells amountIn) (guarded workflow amountIn operation action) :=
  Run.yields_tryCatch h fun f => tells_failedResult workflow amountIn operation f

theorem Swap.tells_run (config : Config.SwapConfig) (c : Collaborators) :
    Run.Yields (Tells config.input.amount) (run config c) := by
  refine tells_guarded ?_
  unfold action
  refine Run.yields_after fun prepared => Run.yields_after fun payload => Run.yields_after fun _ => ?_
  exact Run.yields_after fun gas => Run.yields_after fun outcome => Settlement.tells_classify outcome _ _ _

theorem Lending.tells_run (config : Config.LendingConfig) (c : Collaborators) :
    Run.Yields (Tells config.amount) (run config c) := by
  refine tells_guarded ?_
  unfold action
  refine Run.yields_after fun prepared => Run.yields_after fun payload => Run.yields_after fun _ => ?_
  exact Run.yields_after fun gas => Run.yields_after fun outcome => Settlement.tells_classify outcome _ _ _

theorem Route.tells_run (config : Config.RouteConfig) (c : Collaborators) :
    Run.Yields (Tells config.input.amount) (run config c) := by
  refine tells_guarded ?_
  unfold action
  refine Run.yields_after fun _ => Run.yields_after fun quote => Run.yields_after fun report => ?_
  refine Run.yields_after fun expected => Run.yields_after fun _ => Run.yields_after fun payload => ?_
  refine Run.yields_after fun gas => Run.yields_after fun outcome => ?_
  refine Run.yields_bind (Settlement.tells_classify outcome _ _ _) fun r hr => ?_
  split
  · exact Run.yields_after fun _ => Run.yields_pure hr
  · exact Run.yields_pure hr

namespace Trade

theorem wellFormed_resultOf {answer : Value} {r : ActionResult} (h : resultOf answer = .ok r) : r.WellFormed := by
  unfold resultOf at h
  split at h
  · dsimp only at h
    split at h
    · obtain ⟨hash, -, h⟩ := bind_eq_ok.mp h
      obtain rfl := Except.ok.inj h
      exact ⟨fun _ => ⟨rfl, rfl⟩, nofun⟩
    · obtain ⟨message, -, h⟩ := bind_eq_ok.mp h
      obtain rfl := Except.ok.inj h
      exact ActionResult.wellFormed_failed ..
  · obtain rfl := Except.ok.inj h
    exact ActionResult.wellFormed_failed ..

theorem wellFormed_settle {r : ActionResult} (h : r.WellFormed) :
    Run.Yields ActionResult.WellFormed (settle r) := by
  unfold settle
  split
  · exact Run.yields_after fun _ => Run.yields_pure h
  · exact Run.yields_after fun _ => Run.yields_pure h

theorem wellFormed_run (config : Config.TradeConfig) (c : Collaborators) :
    Run.Yields ActionResult.WellFormed (run config c) := by
  unfold run
  refine Run.yields_after fun _ => ?_
  split
  · exact Run.yields_after fun _ => Run.yields_pure (ActionResult.wellFormed_failed ..)
  · exact Run.yields_pure (ActionResult.wellFormed_failed ..)
  · refine Run.yields_after fun answered => ?_
    split
    · exact Run.yields_bind (Run.yields_lift fun r => wellFormed_resultOf) fun r => wellFormed_settle
    · exact Run.yields_pure (ActionResult.wellFormed_failed ..)

end Trade

end Workflow

/-! ## Configured amounts -/

namespace Config

theorem exists_member {title : String} {fs : List (Label × Shape)} {v n : Value}
    (ha : fs.Pairwise fun e f => e.1.Apart f.1) (h : (Shape.object title (.ofList fs)).check v = .ok n)
    {wire name : String} {s : Shape} (he : required wire name s ∈ fs) : ∃ v', s.check v' = .ok (n.member wire) := by
  have hchecked := checkGiven_of_object ha h he
  cases hg : given (required wire name s).1 v.members with
  | none =>
    rw [hg] at hchecked
    cases hchecked
  | some v' =>
    rw [hg] at hchecked
    exact ⟨v', hchecked⟩

theorem exists_text {v n : Value} (h : Shape.text.check v = .ok n) : ∃ s, n = .text s := by
  obtain ⟨s, -, rfl⟩ := map_eq_ok.mp h
  exact ⟨s, rfl⟩

theorem amount_of_swapInput {v n : Value} (h : swapInputShape.check v = .ok n) :
    ∃ s, n.member "amount" = .text s := by
  obtain ⟨v', hv⟩ := @exists_member _ _ _ _ (by decide) h "amount" "amount" .text (by simp)
  exact exists_text hv

theorem amount_of_lendingInput {v n : Value} (h : lendingInputShape.check v = .ok n) :
    ∃ s, n.member "amount" = .text s := by
  obtain ⟨v', hv⟩ := @exists_member _ _ _ _ (by decide) h "amount" "amount" .text (by simp)
  exact exists_text hv

end Config

namespace Workflow

open Config

def IsPaying (w : Workflow) : Prop := w = uniswapSwap ∨ w = aaveLending ∨ w = lifiSwap

def configuredAmount (config : Value) : Value := (config.member "inputConfig").member "amount"

theorem exists_configuredAmount {w : Workflow} (hw : w.IsPaying) {wire config : Value}
    (h : w.configure wire = .ok config) :
    ∃ s, configuredAmount config = .text s := by
  have hc := mapError_eq_ok.mp h
  rcases hw with rfl | rfl | rfl
  · obtain ⟨v, hv⟩ := @exists_member _ _ _ _ (by decide) hc "inputConfig" "input_config" swapInputShape (by simp)
    exact amount_of_swapInput hv
  · obtain ⟨v, hv⟩ := @exists_member _ _ _ _ (by decide) hc "inputConfig" "input_config" lendingInputShape (by simp)
    exact amount_of_lendingInput hv
  · obtain ⟨v, hv⟩ := @exists_member _ _ _ _ (by decide) hc "inputConfig" "input_config" swapInputShape (by simp)
    exact amount_of_swapInput hv

theorem textAt_eq {v : Value} {name s : String} (h : v.member name = .text s) :
    .text (textAt v name) = v.member name := by
  rw [textAt, h]
  rfl

/-! ## Every record -/

/-- What an action yields: a record that is well formed, and tells the amount where there is one. -/
def Acts (w : Workflow) (config : Value) (r : WorkflowResult) : Prop :=
  ∃ a : ActionResult, r = .action a ∧ a.WellFormed ∧
    (w.IsPaying → a.amountIn = some (textAt (config.member "inputConfig") "amount"))

theorem acts_of_tells {w : Workflow} {config : Value} {action : Run ActionResult}
    (h : Run.Yields (Tells (textAt (config.member "inputConfig") "amount")) action) :
    Run.Yields (Acts w config) (do return .action (← action)) :=
  Run.yields_bind h fun a ha => Run.yields_pure ⟨a, rfl, ha.1, fun _ => ha.2⟩

theorem acts_run {w : Workflow} (hf : w ≠ readFeeds) (hp : w ≠ liquidityPosition) (config : Value)
    (c : Collaborators) :
    Run.Yields (Acts w config) (w.run config c) := by
  cases w with
  | readFeeds => exact absurd rfl hf
  | uniswapSwap => exact acts_of_tells (Swap.tells_run (.ofValue config) c)
  | aaveLending => exact acts_of_tells (Lending.tells_run (.ofValue config) c)
  | lifiSwap => exact acts_of_tells (Route.tells_run (.ofValue config) c)
  | ostiumTrading =>
    refine Run.yields_bind (Trade.wellFormed_run (.ofValue config) c) fun a ha => Run.yields_pure ⟨a, rfl, ha, ?_⟩
    rintro (h | h | h) <;> cases h
  | liquidityPosition => exact absurd rfl hp

/-- **Every record that is handed back is well formed**, and
swaps and lending operations tell the configured amount. -/
theorem records_well_formed (w : Workflow) (config : Value) (c : Collaborators) (r : WorkflowResult)
    (h : (Run.start (w.run config c)).1 = .ok r) :
    (w ≠ readFeeds → w ≠ liquidityPosition → ActionRecord r.toValue) ∧
    (w = liquidityPosition → PlanRecord r.toValue) ∧
    (w.IsPaying → ∀ wire, w.configure wire = .ok config →
      ∃ s, configuredAmount config = .text s ∧ r.toValue.member "amountIn" = .text s) := by
  rw [Run.start_eq] at h
  refine ⟨fun hf hp => ?_, ?_, fun hw wire hc => ?_⟩
  · obtain ⟨a, rfl, ha, -⟩ := acts_run hf hp config c {} r h
    exact ha.record
  · rintro rfl
    have hrun : Run.Yields (fun r => ∃ p, r = .position p) (liquidityPosition.run config c) :=
      Run.yields_after fun p => Run.yields_pure ⟨p, rfl⟩
    obtain ⟨p, rfl⟩ := hrun {} r h
    exact p.record
  · obtain ⟨s, hs⟩ := exists_configuredAmount hw hc
    have hf : w ≠ readFeeds ∧ w ≠ liquidityPosition := by
      rcases hw with rfl | rfl | rfl <;> exact ⟨nofun, nofun⟩
    obtain ⟨a, rfl, -, ha⟩ := acts_run hf.1 hf.2 config c {} r h
    refine ⟨s, hs, ?_⟩
    rw [WorkflowResult.toValue, a.member_amountIn, ha hw, ← hs]
    exact textAt_eq hs

/-! ## A failure and a success -/

def supplyForm : Value :=
  .record [("schedule", .text ""), ("chain", .text "ETHEREUM"), ("chainSelectorName", .text ""),
    ("provider", .text "AAVE"), ("aaveReceiverAddress", .text ""), ("poolAddress", .text ""),
    ("gasLimit", .text "500000"),
    ("inputConfig", .record [("operation", .text "SUPPLY"), ("asset", tokenForm "0xa"), ("amount", .text "1000"),
      ("walletAddress", .text "0xb"), ("interestRateMode", .null), ("onBehalfOf", .null),
      ("referralCode", .null)])]

def openingForm : Value :=
  .record [("schedule", .text ""), ("network", .text "testnet"), ("market", .text "BTC-USD"),
    ("side", .text "long"), ("collateral", .float (.finite false 10 0)), ("leverage", .float (.finite false 5 0)),
    ("traderAddress", .text "0xb"), ("serviceUrl", .text "https://ostium.example.com"), ("slPrice", .null),
    ("tpPrice", .null)]

def acceptance : String := "\x7b\"success\": true\x7d"

def obliging : Collaborators where
  sender := some fun _ _ => .ok ⟨200, Utf8.ofText acceptance⟩
  secrets := some fun _ => some "key"

theorem run_obliging (config : Value) : (Run.start (ostiumTrading.run config obliging)).1 =
    .ok (.action { success := true, txHash := some "unknown" }) := by
  have htext : Utf8.text? (Utf8.ofText acceptance) = some acceptance := Utf8.text?_ofText _
  have hdoc : Json.document acceptance.toList = .ok (.record [("success", .bool true)]) :=
    eq_ok_of_isOk (by decide +kernel)
  have htrade : (Run.start (Trade.run (.ofValue config) obliging)).1 =
      .ok { success := true, txHash := some "unknown" } := by
    rw [Trade.exec_run_of_asked (by rfl) rfl]
    simp only [Trade.answerOf, ok_bind, Response.text, htext, hdoc]
    rfl
  rw [Run.start_eq, run, Run.fst_exec_bind, ← Run.start_eq, htrade]
  rfl

/-- A supply without a receiver fails and still tells its amount; a position is opened. -/
theorem some_records_well_formed :
    (∃ r, (Run.start (aaveLending.run supplyForm {})).1 = .ok r ∧ ActionRecord r.toValue ∧
      r.toValue.member "amountIn" = .text "1000") ∧
    ∃ r, (Run.start (ostiumTrading.run openingForm obliging)).1 = .ok r ∧ ActionRecord r.toValue := by
  have hconfig : aaveLending.configure supplyForm = .ok supplyForm := rfl
  have hfailed : ∃ r, (Run.start (aaveLending.run supplyForm {})).1 = .ok r := ⟨_, rfl⟩
  obtain ⟨r, hr⟩ := hfailed
  obtain ⟨hrecord, -, hamount⟩ := records_well_formed aaveLending supplyForm {} r hr
  obtain ⟨s, hs, hin⟩ := hamount (.inr (.inl rfl)) supplyForm hconfig
  have hopened := run_obliging openingForm
  obtain ⟨hopen, -, -⟩ := records_well_formed ostiumTrading openingForm obliging _ hopened
  refine ⟨⟨r, hr, hrecord nofun nofun, ?_⟩, _, hopened, hopen nofun nofun⟩
  rw [hin, ← hs]
  rfl

end Workflow

end DefiActions
