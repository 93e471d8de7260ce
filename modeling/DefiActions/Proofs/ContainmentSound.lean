import DefiActions.Proofs.BlameLemmas
import DefiActions.Proofs.GuardLemmas
import DefiActions.Proofs.ReadingSound
import DefiActions.Workflow.Lending
import DefiActions.Workflow.Position
import DefiActions.Workflow.Route
import DefiActions.Workflow.Swap

/-!
# Failures end at the workflow

Every workflow turns whatever a collaborator raises into a result, with one
exception: an action error of no category. There the result is not built, since
it is to carry the category, and the failure is that there is none.
-/

namespace DefiActions

open Run (exec exec_bind_of_ok exec_bind_of_error Blameless eventsOnly)

variable {α β : Type} {c : Collaborators}

/-! ## Containment -/

def Collaborators.Unclassified (c : Collaborators) (t : Trace) : Prop :=
  ∃ t₀ message, c.Raised (.action (.unclassified message)) t₀ ∧ eventsOnly.Rel t₀ t

/-- The run comes to a result, unless it was stopped by an action error of no category. -/
def Contained (c : Collaborators) (r : Run α) : Prop :=
  ∀ t, (∃ a, (exec r t).1 = .ok a) ∨ ((exec r t).1 = .error .missingMember ∧ c.Unclassified (exec r t).2)

theorem contained_pure (a : α) : Contained c (pure a : Run α) := fun _ => Or.inl ⟨a, rfl⟩

theorem contained_bind {r : Run α} {f : α → Run β} (hr : Contained c r) (hf : ∀ a, Contained c (f a)) :
    Contained c (r >>= f) := by
  intro t
  cases hx : exec r t with
  | mk x t₁ =>
    have h := hr t
    rw [hx] at h
    cases x with
    | ok a =>
      rw [exec_bind_of_ok hx]
      exact hf a t₁
    | error e =>
      rw [exec_bind_of_error hx]
      rcases h with ⟨a, ha⟩ | h
      · cases ha
      · cases h.1
        exact Or.inr ⟨rfl, h.2⟩

/-- A handler that comes to a result for every classified failure contains what a blameless run fails with. -/
theorem contained_tryCatch {r : Run α} {handle : Failure → Run α} (hr : Blameless c r)
    (hok : ∀ f t, f.IsClassified → ∃ a, (exec (handle f) t).1 = .ok a)
    (herror : ∀ message t, (exec (handle (.action (.unclassified message))) t).1 = .error .missingMember)
    (hkeeps : ∀ f, Run.Keeps eventsOnly (handle f)) : Contained c (tryCatch r handle) := by
  intro t
  rw [Run.exec_tryCatch]
  cases hx : exec r t with
  | mk x t₁ =>
    cases x with
    | ok a => exact Or.inl ⟨a, rfl⟩
    | error f =>
      by_cases hf : f.IsClassified
      · exact Or.inl (hok f t₁ hf)
      -- The run is blameless, so a failure that has no category was raised by a collaborator.
      · have hraised := (hr t f t₁ hx).resolve_left hf
        cases f with
        | action e =>
          cases e with
          | unclassified message => exact Or.inr ⟨herror message t₁, t₁, message, hraised, hkeeps _ t₁⟩
          | _ => exact absurd rfl hf
        | _ => exact absurd trivial hf

/-! ## Guarded actions -/

namespace Workflow

theorem contained_guarded {workflow : String} (hf : workflow ++ "_failed" ≠ Run.submitting.name)
    (he : workflow ++ "_error" ≠ Run.submitting.name) (amountIn operation : Option String)
    {action : Run ActionResult}
    (h : Blameless c action) : Contained c (guarded workflow amountIn operation action) := by
  refine contained_tryCatch h (fun f t hc => ?_) (fun _ _ => rfl)
    fun f t => (exec_failedResult hf he amountIn operation f t).1
  cases f with
  | action e =>
    cases e with
    | unclassified message => cases hc
    | _ => exact ⟨_, rfl⟩
  | _ => exact ⟨_, rfl⟩

namespace Swap

open Config (SwapConfig)

theorem blameless_priceLimit (config : SwapConfig) (c : Collaborators) (key : Pool.Key) (zeroForOne : Bool) :
    Blameless c (priceLimit config c key zeroForOne) := by
  unfold priceLimit
  split
  · exact Run.blameless_report_bind (Run.blameless_pure _)
  split
  · exact Run.blameless_throw rfl
  · rename_i reader hr
    refine Run.blameless_lift_bind (Pool.Key.classified_id key) fun id => ?_
    refine Run.blameless_lift_bind (ContractCall.classified_slot0 id) fun call => ?_
    refine Run.blameless_bind (Run.blameless_readContract hr _ _) fun data => ?_
    refine Run.blameless_lift_bind (ContractCall.classified_decodeSlot0 _) fun _ => ?_
    refine Run.blameless_report_bind ?_
    refine Run.blameless_ite ?_ (Run.blameless_lift (classified_priceLimit _ _ _))
    refine Run.blameless_lift_bind (failsAs_map (Pool.Key.classified_id key)) fun _ => ?_
    exact Run.blameless_bind (Run.blameless_fail rfl) fun _ => Run.blameless_lift (classified_priceLimit _ _ _)

theorem blameless_prepare (config : SwapConfig) (c : Collaborators) : Blameless c (prepare config c) := by
  have hminimum : Blameless c (minimumOut config) := by
    unfold minimumOut
    split
    · exact Run.blameless_pure _
    · exact Run.blameless_ite (Run.blameless_report_bind (Run.blameless_pure _)) (Run.blameless_pure _)
  unfold prepare
  refine Run.blameless_lift_bind (classified_require _ _ _) fun _ => ?_
  refine Run.blameless_lift_bind (classified_require _ _ _) fun _ => ?_
  refine Run.blameless_lift_bind (classified_require _ _ _) fun _ => ?_
  refine Run.blameless_lift_bind (Pool.Key.classified_forSwap _ _ _ _ _) fun pool => ?_
  refine Run.blameless_bind hminimum fun _ => Run.blameless_bind (blameless_priceLimit config c _ _) fun _ => ?_
  refine Run.blameless_lift_bind (Uint256.classified_ofText _) fun _ => ?_
  refine Run.blameless_lift_bind (Uint256.classified_ofText _) fun _ => ?_
  refine Run.blameless_lift_bind (classified_require _ _ _) fun _ => ?_
  exact Run.blameless_lift_bind (Report.classified_make _ _) fun _ => Run.blameless_pure _

theorem contained_run (config : SwapConfig) (c : Collaborators) : Contained c (run config c) := by
  refine contained_guarded (by decide) (by decide) _ _ ?_
  refine Run.blameless_bind (blameless_prepare config c) fun prepared => ?_
  refine Run.blameless_lift_bind (Report.classified_encode _) fun _ => ?_
  refine Run.blameless_report_bind ?_
  refine Run.blameless_lift_bind (classified_gasLimit _) fun _ => ?_
  exact Run.blameless_bind (blameless_submit c _ _ _) fun _ => Settlement.blameless_classify c _ _ _ _

end Swap

namespace Lending

open Config (LendingConfig)

theorem blameless_aToken (config : LendingConfig) (c : Collaborators) (pool : String) :
    Blameless c (aToken config c pool) := by
  unfold aToken
  refine Run.blameless_ite (Run.blameless_pure _) ?_
  split
  · exact Run.blameless_throw rfl
  · rename_i reader hr
    refine Run.blameless_lift_bind (ContractCall.classified_reserveData _) fun call => ?_
    refine Run.blameless_bind (Run.blameless_readContract hr _ _) fun data => ?_
    refine Run.blameless_lift_bind (ContractCall.classified_decodeReserveAToken _) fun _ => ?_
    exact Run.blameless_report_bind (Run.blameless_pure _)

theorem classified_operationCode (operation : String) : Classified (operationCode operation) := by
  unfold operationCode
  split
  · exact failsAs_ok
  · exact classified_fail rfl

theorem classified_poolAddress (config : LendingConfig) : Classified (poolAddress config) := by
  unfold poolAddress
  split
  · exact failsAs_ok
  split
  · exact failsAs_ok
  · exact failsAs_throw rfl

theorem blameless_prepare (config : LendingConfig) (c : Collaborators) : Blameless c (prepare config c) := by
  unfold prepare
  refine Run.blameless_lift_bind (classified_require _ _ _) fun _ => ?_
  refine Run.blameless_lift_bind (classified_operationCode _) fun _ => ?_
  refine Run.blameless_lift_bind (classified_poolAddress _) fun pool => ?_
  refine Run.blameless_lift_bind (classified_require _ _ _) fun _ => ?_
  refine Run.blameless_lift_bind (classified_require _ _ _) fun _ => ?_
  refine Run.blameless_lift_bind (Uint256.classified_ofText _) fun _ => ?_
  exact Run.blameless_bind (blameless_aToken config c pool) fun _ => Run.blameless_lift (Report.classified_make _ _)

theorem contained_run (config : LendingConfig) (c : Collaborators) : Contained c (run config c) := by
  refine contained_guarded (by decide) (by decide) _ _ ?_
  refine Run.blameless_bind (blameless_prepare config c) fun report => ?_
  refine Run.blameless_lift_bind (Report.classified_encode _) fun _ => ?_
  refine Run.blameless_report_bind ?_
  refine Run.blameless_lift_bind (classified_gasLimit _) fun _ => ?_
  exact Run.blameless_bind (blameless_submit c _ _ _) fun _ => Settlement.blameless_classify c _ _ _ _

end Lending

namespace Route

open Config (RouteConfig)

theorem blameless_fetchQuote (config : RouteConfig) (c : Collaborators) : Blameless c (fetchQuote config c) := by
  have hparse : ∀ body, Classified (parseQuote body) := by
    intro body
    refine failsAs_bind (failsAs_mapError (fun _ _ => trivial) fun f _ => ?_) fun v => ?_
    · unfold unreadable
      split
      · trivial
      · rfl
    · split
      · exact failsAs_pure
      · exact failsAs_throw rfl
  unfold fetchQuote
  split
  · exact Run.blameless_throw rfl
  · rename_i sender hs
    refine Run.blameless_report_bind ?_
    exact Run.blameless_bind (Run.blameless_send hs _) fun response => Run.blameless_lift (hparse response.body)

theorem refusing_shown (v : Value) : Refusing (shown v) := by
  unfold shown
  split
  · exact failsAs_ok
  · exact refusing_refuse _

theorem refusing_readNumeral (base : Text.Base) (s : String) : Refusing (readNumeral base s) := by
  unfold readNumeral
  split
  · exact failsAs_ok
  · exact refusing_refuse _

theorem refusing_readOctets (bs : Bytes) : Refusing (readOctets bs) := by
  unfold readOctets
  split
  · exact failsAs_ok
  · exact refusing_refuse _
  · exact refusing_refuse _

theorem classified_callValue (v : Value) : Classified (callValue v) := by
  refine failsAs_bind (refusing_shown v).classified fun _ => ?_
  split
  · exact (refusing_readNumeral _ _).classified
  · exact failsAs_pure
  · exact failsAs_pure
  · exact (refusing_readOctets _).classified
  · split
    · exact failsAs_pure
    · exact classified_refuse _
    · exact failsAs_throw trivial
  · exact failsAs_throw trivial

theorem classified_readCall (request : Value) : Classified (readCall request) :=
  failsAs_bind (refusing_shown _).classified fun _ =>
    failsAs_bind (Address.refusing_normalizeValid _).classified fun _ =>
      failsAs_bind (refusing_shown _).classified fun _ =>
        failsAs_bind (refusing_ofDigits _).classified fun _ =>
          failsAs_bind (classified_callValue _) fun _ => failsAs_pure

theorem classified_quotedCall (quote : Value) : Classified (quotedCall quote) := by
  unfold quotedCall
  split
  · dsimp only
    split
    · refine failsAs_mapError (classified_readCall _) fun f hf => ?_
      unfold malformed
      split
      · rfl
      · exact hf
    · exact classified_fail rfl
  · exact classified_fail rfl

theorem classified_prepare (config : RouteConfig) (quote : Value) : Classified (prepare config quote) :=
  failsAs_bind (classified_quotedCall quote) fun _ => failsAs_bind (Uint256.classified_ofText _) fun _ =>
    failsAs_bind (classified_require _ _ _) fun _ => Report.classified_make _ _

theorem classified_expectedOut (quote : Value) : Classified (expectedOut quote) := by
  unfold expectedOut
  dsimp only
  split
  · exact (refusing_shown _).classified
  · exact failsAs_ok

theorem contained_run (config : RouteConfig) (c : Collaborators) : Contained c (run config c) := by
  refine contained_guarded (by decide) (by decide) _ _ ?_
  refine Run.blameless_lift_bind (classified_require _ _ _) fun _ => ?_
  refine Run.blameless_bind (blameless_fetchQuote config c) fun quote => ?_
  refine Run.blameless_lift_bind (classified_prepare _ _) fun _ => ?_
  refine Run.blameless_lift_bind (classified_expectedOut quote) fun _ => ?_
  refine Run.blameless_report_bind ?_
  refine Run.blameless_lift_bind (Report.classified_encode _) fun _ => ?_
  refine Run.blameless_lift_bind (classified_gasLimit _) fun _ => ?_
  refine Run.blameless_bind (blameless_submit c _ _ _) fun _ => ?_
  refine Run.blameless_bind (Settlement.blameless_classify c _ _ _ _) fun _ => ?_
  exact Run.blameless_ite (Run.blameless_report_bind (Run.blameless_pure _)) (Run.blameless_pure _)

end Route

/-! ## Plans -/

namespace Position

open Config (PositionConfig)

theorem blameless_currentPrice (config : PositionConfig) (c : Collaborators) (key : Pool.Key) :
    Blameless c (currentPrice config c key) := by
  unfold currentPrice
  split
  · rename_i view reader hview hr
    refine Run.blameless_lift_bind (Pool.Key.classified_id key) fun id => ?_
    refine Run.blameless_lift_bind (ContractCall.classified_slot0 id) fun call => ?_
    refine Run.blameless_bind (Run.blameless_readContract hr _ _) fun data => ?_
    refine Run.blameless_lift_bind (ContractCall.classified_decodeSlot0 _) fun _ => ?_
    exact Run.blameless_ite (Run.blameless_report_bind (Run.blameless_pure _)) (Run.blameless_pure _)
  · refine Run.blameless_lift_bind (failsAs_map (Pool.Key.classified_id key)) fun _ => ?_
    exact Run.blameless_report_bind (Run.blameless_pure _)

theorem classified_desired (config : PositionConfig) (key : Pool.Key) : Classified (desired config key) := by
  have hcheck : ∀ field amount, Classified (checkAmount field amount) := by
    intro field amount
    unfold checkAmount
    split
    · exact failsAs_ok
    · exact failsAs_throw rfl
  exact failsAs_bind (Uint256.classified_ofText _) fun _ => failsAs_bind (Uint256.classified_ofText _) fun _ =>
    failsAs_bind (hcheck _ _) fun _ => failsAs_bind (hcheck _ _) fun _ => failsAs_pure

theorem blameless_plan (config : PositionConfig) (c : Collaborators) : Blameless c (plan config c) := by
  unfold plan
  refine Run.blameless_lift_bind (classified_require _ _ _) fun _ => ?_
  refine Run.blameless_lift_bind (failsAs_map (Pool.Key.classified_forSwap _ _ _ _ _)) fun key => ?_
  refine Run.blameless_lift_bind (Tick.classified_checkRange _ _ _) fun _ => ?_
  refine Run.blameless_lift_bind (classified_desired config key) fun _ => ?_
  refine Run.blameless_bind (blameless_currentPrice config c key) fun _ => ?_
  refine Run.blameless_lift_bind (Liquidity.classified_maxForTicks _ _ _ _ _ _) fun liquidity => ?_
  split
  · refine Run.blameless_throw_bind ?_ _
    exact rfl
  · refine Run.blameless_lift_bind (Tick.classified_sqrtRatio _) fun lower => ?_
    refine Run.blameless_lift_bind (Tick.classified_sqrtRatio _) fun upper => ?_
    refine Run.blameless_lift_bind (Liquidity.classified_amounts _ _ _ _) fun used => ?_
    refine Run.blameless_lift_bind (Pool.classified_mint _) fun _ => ?_
    refine Run.blameless_lift_bind (failsAs_map (Pool.Key.classified_id key)) fun _ => ?_
    exact Run.blameless_pure _

theorem contained_run (config : PositionConfig) (c : Collaborators) : Contained c (run config c) := by
  refine contained_tryCatch ?_ (fun f t hc => ?_) (fun _ _ => rfl) fun f => ?_
  · exact Run.blameless_bind (blameless_plan config c) fun _ =>
      Run.blameless_report_bind (Run.blameless_pure _)
  · cases f with
    | action e =>
      cases e with
      | unclassified message => cases hc
      | _ => exact ⟨_, rfl⟩
    | _ =>
      unfold failedResult
      dsimp only
      split
      · exact ⟨_, rfl⟩
      · exact ⟨_, rfl⟩
  · unfold failedResult
    split
    · split
      · exact Run.keeps_throw _
      · exact Run.keeps_bind (Run.keeps_report (by decide)) fun _ => Run.keeps_pure _
    · refine Run.keeps_ite ?_ ?_
      · exact Run.keeps_bind (Run.keeps_report (by decide)) fun _ => Run.keeps_pure _
      · exact Run.keeps_bind (Run.keeps_report (by decide)) fun _ => Run.keeps_pure _

end Position

end Workflow

/-! ## Feeds -/

namespace PriceFeed

open Config (Feed FeedsConfig)

theorem classified_checkAge (updatedAt now : Int) (window : Option Int) (feed address : String) :
    Classified (checkAge updatedAt now window feed address) := by
  unfold checkAge
  split
  · exact failsAs_ok
  split
  · exact classified_fail rfl
  · exact failsAs_ok

theorem classified_formatSigned (raw decimals : Int) : Classified (Amount.formatSigned raw decimals) := by
  have hformat : ∀ raw, Classified (Amount.format raw decimals) := by
    intro raw
    unfold Amount.format
    split
    · exact classified_refuse _
    split
    · exact classified_refuse _
    split
    · exact classified_refuse _
    split
    · exact failsAs_throw trivial
    · exact failsAs_ok
  unfold Amount.formatSigned
  split
  · exact failsAs_map (hformat _)
  · exact hformat _

theorem blameless_read {reader : Reader} (hr : c.reader = some reader) (chain : String) (feed : Feed) (now : Int)
    (window : Option Int) : Blameless c (read reader chain feed now window) := by
  have hdescription : Blameless c (readDescription reader feed.address) := by
    intro t f t' h
    rw [exec_readDescription] at h
    cases h
  unfold read
  refine Run.blameless_bind (Run.blameless_readContract hr _ _) fun _ => ?_
  refine Run.blameless_lift_bind (ContractCall.classified_decodeDecimals _) fun _ => ?_
  refine Run.blameless_bind hdescription fun _ => Run.blameless_bind (Run.blameless_readContract hr _ _) fun _ => ?_
  refine Run.blameless_lift_bind (ContractCall.classified_decodeRound _) fun _ => ?_
  refine Run.blameless_lift_bind (classified_checkAge _ _ _ _ _) fun _ => ?_
  refine Run.blameless_lift_bind (classified_formatSigned _ _) fun _ => ?_
  exact Run.blameless_report_bind (Run.blameless_pure _)

def failureFor (feed : Feed) : Failure → FeedFailure
  | .action e => ⟨feed.name, feed.address, e.message, e.kind?⟩
  | f => ⟨feed.name, feed.address, "Failed to read feed: " ++ f.description, some .invalidCollaboratorResponse⟩

theorem fst_exec_failureOf {f : Failure} (h : f.IsClassified) (feed : Feed) (t : Trace) :
    (exec (failureOf feed f) t).1 = .ok (failureFor feed f) := by
  cases f with
  | action e =>
    cases e with
    | unclassified message => cases h
    | _ => rfl
  | _ => rfl

theorem contained_attempt {reader : Reader} (hr : c.reader = some reader) (config : FeedsConfig) (now : Int)
    (feed : Feed) : Contained c (attempt reader config now feed) := by
  refine contained_tryCatch ?_ (fun f t hc => ?_) (fun _ _ => rfl) fun f => ?_
  · exact Run.blameless_bind (blameless_read hr _ _ _ _) fun _ => Run.blameless_pure _
  · rw [Run.fst_exec_bind, fst_exec_failureOf hc]
    exact ⟨_, rfl⟩
  · refine Run.keeps_bind ?_ fun _ => Run.keeps_pure _
    unfold failureOf
    split
    · refine Run.keeps_bind (Run.keeps_report (by decide)) fun _ => ?_
      split
      · exact Run.keeps_pure _
      · exact Run.keeps_throw _
    · exact Run.keeps_bind (Run.keeps_report (by decide)) fun _ => Run.keeps_pure _

theorem contained_readEach {reader : Reader} (hr : c.reader = some reader) (config : FeedsConfig) (now : Int)
    (feeds : List Feed) : Contained c (readEach reader config now feeds) := by
  induction feeds with
  | nil => exact contained_pure _
  | cons feed feeds ih =>
    refine contained_bind (contained_attempt hr config now feed) fun entry => contained_bind ih fun rest => ?_
    cases entry with
    | inl reading => exact contained_pure _
    | inr failure => exact contained_pure _

theorem contained_readAll (config : FeedsConfig) (c : Collaborators) : Contained c (readAll config c) := by
  unfold readAll
  split
  · exact contained_pure _
  · rename_i reader hr
    exact contained_readEach hr config c.now config.feeds

end PriceFeed

/-! ## All of them -/

/-- **A workflow comes to a result whatever its collaborators raise, short of an action error of no category.** -/
theorem workflows_contained (c : Collaborators) :
    (∀ config, Contained c (Workflow.Swap.run config c)) ∧
    (∀ config, Contained c (Workflow.Lending.run config c)) ∧
    (∀ config, Contained c (Workflow.Route.run config c)) ∧
    (∀ config, Contained c (Workflow.Position.run config c)) ∧
    (∀ config, Contained c (PriceFeed.readAll config c)) :=
  ⟨fun config => Workflow.Swap.contained_run config c, fun config => Workflow.Lending.contained_run config c,
    fun config => Workflow.Route.contained_run config c, fun config => Workflow.Position.contained_run config c,
    fun config => PriceFeed.contained_readAll config c⟩

def denyingReader : Reader := fun _ _ _ => .error (.action (.unclassified "denied"))

def deniedFeeds : Config.FeedsConfig :=
  ⟨"ETHEREUM", [⟨"ETH/USD", "0x639fe6ab55c921f74e7fac1ee960c0b6293ba612"⟩], none⟩

/-- Such an error leaves the feeds without a result. -/
theorem readAll_deniedFeeds :
    (Run.start (PriceFeed.readAll deniedFeeds { reader := some denyingReader })).1 = .error .missingMember := rfl

end DefiActions
