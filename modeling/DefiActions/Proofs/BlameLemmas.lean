import DefiActions.ContractCall
import DefiActions.Liquidity
import DefiActions.Pool.Mint
import DefiActions.Pool.PriceLimit
import DefiActions.Proofs.AnswerSound
import DefiActions.Proofs.ReportSound
import DefiActions.Proofs.RunLemmas
import DefiActions.Workflow.Guard
import DefiActions.Uint256

/-!
# Who is to blame for a failure

An action error of no category can only come from a collaborator: every step
that the library takes itself fails with an error that has one, or with no
action error at all. A run is blameless when whatever else it fails with was
raised by the collaborator that it asked last.
-/

namespace DefiActions

/-! ## Categories -/

namespace Failure

/-- No action error, or one that has a category. -/
def IsClassified : Failure → Prop
  | action e => e.kind?.isSome = true
  | _ => True

theorem isClassified_writing {f : Failure} (h : f.IsClassified) (integers : List Int) :
    (writing integers f).IsClassified := by
  unfold writing
  split
  · exact h
  · trivial

def IsRejected (f : Failure) : Prop := ∃ r, f = rejected r

theorem isRejected_ofRejection (r : Rejection) : (ofRejection r).IsRejected := by
  unfold ofRejection writing
  split
  · exact ⟨_, rfl⟩
  · exact ⟨_, rfl⟩

theorem label_ofRejection (r : Rejection) : (ofRejection r).label = "ValueError" := by
  obtain ⟨r', h⟩ := isRejected_ofRejection r
  rw [h, label]

theorem IsRejected.isClassified {f : Failure} (h : f.IsRejected) : f.IsClassified := by
  obtain ⟨r, rfl⟩ := h
  trivial

theorem isClassified_ofAction {e : ActionError} (h : e.kind?.isSome = true) : (ofAction e).IsClassified :=
  isClassified_writing (f := action e) h _

end Failure

abbrev Classified {α : Type} (x : Except Failure α) : Prop := FailsAs Failure.IsClassified x

variable {α β : Type}

abbrev Refusing {α : Type} (x : Except Failure α) : Prop := FailsAs Failure.IsRejected x

theorem Refusing.classified {x : Except Failure α} (h : Refusing x) : Classified x :=
  fun e he => (h e he).isClassified

theorem refusing_refuse (r : Rejection) : Refusing (refuse r : Except Failure α) :=
  failsAs_throw (Failure.isRejected_ofRejection r)

theorem classified_refuse (r : Rejection) : Classified (refuse r : Except Failure α) :=
  (refusing_refuse r).classified

theorem classified_fail {e : ActionError} (h : e.kind?.isSome = true) : Classified (fail e : Except Failure α) :=
  failsAs_throw (Failure.isClassified_ofAction h)

/-! ## Texts, addresses and encodings -/

theorem refusing_ofDigits (cs : List Char) : Refusing (Blob.ofDigits cs) := by
  unfold Blob.ofDigits
  split
  · exact failsAs_ok
  · exact refusing_refuse _

theorem classified_blob (v : Value) : Classified (Blob.ofValue v) := by
  unfold Blob.ofValue
  split
  · exact failsAs_ok
  · exact (refusing_ofDigits _).classified
  · exact failsAs_throw trivial

namespace Address

theorem refusing_normalizeValid (address : String) : Refusing (normalizeValid address) := by
  unfold normalizeValid
  dsimp only
  split
  · exact failsAs_ok
  · exact refusing_refuse _

theorem refusing_toBytes (address : String) : Refusing (toBytes address) :=
  failsAs_bind (refusing_normalizeValid address) fun _ => refusing_ofDigits _

end Address

namespace Uint256

theorem refusing_shown (v : Value) : Refusing (shown v) := by
  unfold shown
  split
  · exact failsAs_ok
  · exact refusing_refuse _

theorem refusing_integer (v : Value) : Refusing (integer v) := by
  unfold integer
  split
  · exact failsAs_ok
  · split
    · exact failsAs_ok
    · exact refusing_refuse _
  · exact refusing_refuse _

theorem refusing_read (v : Value) : Refusing (read v) := by
  refine failsAs_bind (refusing_integer v) fun n => ?_
  split
  · exact failsAs_bind (refusing_shown v) fun _ => refusing_refuse _
  split
  · exact failsAs_bind (refusing_shown v) fun _ => refusing_refuse _
  · exact failsAs_pure

theorem refusing_ofText (s : String) : Refusing (ofText s) := refusing_read (.text s)

theorem classified_ofText (s : String) : Classified (ofText s) := (refusing_ofText s).classified

end Uint256

namespace Abi

theorem classified_unfit {f : Failure} (h : f.IsClassified) (v : Value) :
    Classified (throw (unfit f v) : Except Failure α) := by
  refine failsAs_throw ?_
  unfold unfit
  split
  · exact h
  · trivial

theorem classified_wrongType (v : Value) : Classified (throw (unfit .fieldType v) : Except Failure α) :=
  classified_unfit (f := .fieldType) trivial v

theorem classified_outOfRange (v : Value) : Classified (throw (unfit .fieldRange v) : Except Failure α) :=
  classified_unfit (f := .fieldRange) trivial v

theorem classified_encodeWord (w : WordKind) (v : Value) : Classified (w.encode v) := by
  unfold WordKind.encode
  split
  · split
    · exact failsAs_ok
    · exact classified_outOfRange _
  · split
    · exact failsAs_ok
    · exact classified_outOfRange _
  · exact failsAs_ok
  · split
    · exact failsAs_ok
    · exact classified_wrongType _
  · split
    · exact failsAs_ok
    · exact classified_outOfRange _
  · exact classified_wrongType _

theorem classified_encodeAll (ws : List WordKind) (vs : List Value) : Classified (WordKind.encodeAll ws vs) := by
  induction ws generalizing vs with
  | nil => exact failsAs_ok
  | cons w ws ih =>
    exact failsAs_bind (classified_encodeWord w _) fun _ => failsAs_bind (ih _) fun _ => failsAs_pure

theorem classified_assemble (ps : List Part) : Classified (Part.assemble ps) := by
  unfold Part.assemble
  dsimp only
  split
  · exact failsAs_ok
  · exact failsAs_throw trivial

theorem classified_blobPart (bs : Bytes) : Classified (blobPart bs) := by
  unfold blobPart
  split
  · exact failsAs_ok
  · exact classified_outOfRange _

theorem classified_octets (v : Value) : Classified (octetsOf v >>= blobPart) := by
  refine failsAs_bind ?_ classified_blobPart
  unfold octetsOf
  split
  · exact failsAs_ok
  · exact classified_wrongType _

theorem classified_encodeKind (k : Kind) (v : Value) : Classified (k.encode v) := by
  cases k with
  | word w => exact failsAs_map (classified_encodeWord w v)
  | words ws =>
    simp only [Kind.encode]
    split
    · split
      · exact failsAs_map (classified_encodeAll ws _)
      · exact classified_outOfRange _
    · exact classified_wrongType _
  | bytes => exact classified_octets v
  | text =>
    simp only [Kind.encode]
    split
    · exact classified_blobPart _
    · exact classified_wrongType _
  | bytesList =>
    simp only [Kind.encode]
    split
    · exact failsAs_bind (failsAs_mapM classified_octets _) fun _ =>
        failsAs_bind (classified_assemble _) fun _ => failsAs_pure
    · exact classified_wrongType _

theorem classified_encode (ks : List Kind) (vs : List Value) : Classified (encode ks vs) := by
  refine failsAs_bind ?_ classified_assemble
  induction ks generalizing vs with
  | nil => exact failsAs_ok
  | cons k ks ih =>
    exact failsAs_bind (classified_encodeKind k _) fun _ => failsAs_bind (ih _) fun _ => failsAs_pure

end Abi

/-! ## Pools, prices and liquidity -/

namespace Pool

theorem classified_order (a b : String) : Classified (Pair.order a b) := by
  unfold Pair.order
  simp only
  split
  · exact classified_refuse _
  · exact failsAs_ok

namespace Key

theorem classified_make (c0 c1 : String) (fee spacing : Whole) (hooks : String) :
    Classified (make c0 c1 fee spacing hooks) := by
  refine failsAs_bind (Address.refusing_normalizeValid _).classified fun _ =>
    failsAs_bind (Address.refusing_normalizeValid _).classified fun _ => ?_
  split
  · exact classified_refuse _
  split
  · unfold refuseSpacing
    split <;> exact classified_refuse _
  split
  · exact classified_refuse _
  · exact failsAs_bind (Address.refusing_normalizeValid _).classified fun _ => failsAs_pure

theorem classified_forSwap (a b : String) (fee spacing : Whole) (hooks : String) :
    Classified (forSwap a b fee spacing hooks) :=
  failsAs_bind (classified_order a b) fun _ => failsAs_bind (classified_make _ _ _ _ _) fun _ => failsAs_pure

theorem classified_parts (k : Key) : Classified k.parts :=
  failsAs_bind (Address.refusing_toBytes _).classified fun _ =>
    failsAs_bind (Address.refusing_toBytes _).classified fun _ =>
      failsAs_bind (Address.refusing_toBytes _).classified fun _ => failsAs_pure

theorem classified_id (k : Key) : Classified k.id :=
  failsAs_bind (classified_order _ _) fun _ => failsAs_bind (Address.refusing_toBytes _).classified fun _ =>
    failsAs_bind (Address.refusing_toBytes _).classified fun _ =>
      failsAs_bind (Address.refusing_toBytes _).classified fun _ =>
        failsAs_bind (Abi.classified_encodeAll _ _) fun _ => failsAs_pure

end Key

theorem classified_mint (p : Mint.Position) : Classified (Mint.encode p) := by
  have hclose : ∀ currency, Classified (Mint.closeParameter currency) := fun currency =>
    failsAs_bind (Address.refusing_toBytes currency).classified fun _ => Abi.classified_encode _ _
  have hmint : Classified (Mint.mintParameter p) :=
    failsAs_bind (Key.classified_parts _) fun _ => failsAs_bind (Address.refusing_toBytes _).classified fun _ =>
      failsAs_bind (classified_blob _) fun _ => Abi.classified_encode _ _
  exact failsAs_bind hmint fun _ => failsAs_bind (hclose _) fun _ => failsAs_bind (hclose _) fun _ =>
    Abi.classified_encode _ _

end Pool

theorem classified_priceLimit (bounds : PriceLimit.Bounds) (price : Int) (zeroForOne : Bool) :
    Classified (PriceLimit.after bounds price zeroForOne) := by
  unfold PriceLimit.after
  split
  · exact classified_fail rfl
  split
  · exact failsAs_ok
  split
  · exact classified_fail rfl
  · exact failsAs_ok

namespace Tick

theorem classified_sqrtRatio (t : Int) : Classified (sqrtRatio t) := by
  unfold sqrtRatio
  split
  · exact classified_refuse _
  · exact failsAs_ok

theorem classified_checkRange (lower upper : Int) (spacing : Option Int) :
    Classified (checkRange lower upper spacing) := by
  unfold checkRange
  split
  · exact classified_refuse _
  split
  · exact classified_refuse _
  split
  · exact failsAs_ok
  split
  · exact failsAs_throw trivial
  split
  · exact classified_refuse _
  · exact failsAs_ok

end Tick

namespace Liquidity

theorem classified_ordered (a b : Int) : Classified (ordered a b) := by
  unfold ordered
  split
  · exact failsAs_ok
  split
  · exact classified_refuse _
  · exact failsAs_ok

theorem classified_quotient (num den : Int) : Classified (quotient num den) := by
  unfold quotient
  split
  · exact failsAs_throw trivial
  · exact failsAs_ok

theorem classified_forAmount0 (a b amount : Int) (precision : Precision) :
    Classified (forAmount0 a b amount precision) := by
  refine failsAs_bind (classified_ordered a b) fun _ => ?_
  cases precision with
  | full => exact classified_quotient _ _
  | early => exact classified_quotient _ _

theorem classified_forAmount1 (a b amount : Int) : Classified (forAmount1 a b amount) :=
  failsAs_bind (classified_ordered a b) fun _ => classified_quotient _ _

theorem classified_maxForTicks (lower upper price amount0 amount1 : Int) (precision : Precision) :
    Classified (maxForTicks lower upper price amount0 amount1 precision) := by
  refine failsAs_bind (Tick.classified_sqrtRatio _) fun a => failsAs_bind (Tick.classified_sqrtRatio _) fun b => ?_
  unfold maxForRatios
  split
  · exact classified_refuse _
  split
  · exact classified_refuse _
  refine failsAs_bind (classified_ordered a b) fun ⟨a, b⟩ => ?_
  dsimp only
  split
  · exact classified_forAmount0 _ _ _ _
  split
  · exact failsAs_bind (classified_forAmount0 _ _ _ _) fun _ =>
      failsAs_bind (classified_forAmount1 _ _ _) fun _ => failsAs_pure
  · exact classified_forAmount1 _ _ _

theorem classified_amount0 (a b liquidity : Int) : Classified (amount0 a b liquidity) :=
  failsAs_bind (classified_ordered a b) fun _ => failsAs_bind (classified_quotient _ _) fun _ =>
    classified_quotient _ _

theorem classified_amount1 (a b liquidity : Int) : Classified (amount1 a b liquidity) :=
  failsAs_bind (classified_ordered a b) fun _ => failsAs_pure

theorem classified_amounts (price a b liquidity : Int) : Classified (amounts price a b liquidity) := by
  refine failsAs_bind (classified_ordered a b) fun ⟨a, b⟩ => ?_
  dsimp only
  split
  · exact failsAs_bind (classified_amount0 _ _ _) fun _ => failsAs_pure
  split
  · exact failsAs_bind (classified_amount0 _ _ _) fun _ =>
      failsAs_bind (classified_amount1 _ _ _) fun _ => failsAs_pure
  · exact failsAs_bind (classified_amount1 _ _ _) fun _ => failsAs_pure

end Liquidity

/-! ## Calls, reports and settlement -/

namespace ContractCall

theorem classified_decodeAnswer (what : String) (kinds : List Abi.Kind) (data : Bytes) :
    Classified (decodeAnswer what kinds data) := by
  intro f hf
  obtain ⟨text, rfl⟩ := badResponse_of_decodeAnswer hf
  rfl

theorem classified_decodeDecimals (data : Bytes) : Classified (decodeDecimals data) :=
  failsAs_map (classified_decodeAnswer _ _ _)

theorem classified_decodeRound (data : Bytes) : Classified (decodeRound data) :=
  failsAs_map (classified_decodeAnswer _ _ _)

theorem classified_decodeSlot0 (data : Bytes) : Classified (decodeSlot0 data) :=
  failsAs_map (classified_decodeAnswer _ _ _)

theorem classified_decodeReserveAToken (data : Bytes) : Classified (decodeReserveAToken data) :=
  failsAs_map (classified_decodeAnswer _ _ _)

theorem classified_slot0 (poolId : Bytes) : Classified (slot0 poolId) := by
  unfold slot0
  split
  · exact classified_refuse _
  · exact failsAs_bind (Abi.classified_encode _ _) fun _ => failsAs_pure

theorem classified_reserveData (asset : String) : Classified (reserveData asset) :=
  failsAs_bind (Address.refusing_toBytes asset).classified fun _ =>
    failsAs_bind (Abi.classified_encode _ _) fun _ => failsAs_pure

end ContractCall

namespace Report

open Descriptor in
theorem classified_make (kind : Kind) (given : Members) : Classified (make kind given) := by
  have haddress : ∀ v, Classified (normalAddress v) := by
    intro v
    unfold normalAddress
    split
    · exact failsAs_ok
    · exact failsAs_throw trivial
    · exact failsAs_throw trivial
  have hfield : ∀ f v, Classified (normalField f v) := by
    intro f v
    unfold normalField
    split
    · exact failsAs_ok
    split
    · exact haddress v
    split
    · exact failsAs_map (classified_blob v)
    · exact failsAs_ok
  unfold make
  simp only
  split
  · exact failsAs_throw trivial
  · exact failsAs_bind (failsAs_mapM (fun f => hfield f _) _) fun _ => failsAs_pure

theorem classified_wire (f : Field) (v : Value) : Classified (wire f v) := by
  unfold wire
  split
  · exact failsAs_map (Address.refusing_toBytes _).classified
  · exact failsAs_ok

theorem classified_resolveField (kind : Kind) (f : Field) (v : Value) :
    Classified (Descriptor.resolveField kind f v) := by
  by_cases hn : v.isNull = true
  · cases hd : f.default? with
    | none =>
      rw [resolveField_of_required kind hn hd]
      exact failsAs_throw rfl
    | some d =>
      rw [resolveField_of_default kind hn hd]
      exact classified_wire f d
  · rw [resolveField_of_set kind f (by simpa using hn)]
    exact classified_wire f v

theorem classified_encode (d : Descriptor) : Classified (encode d) := by
  refine failsAs_bind (failsAs_mapM (fun e => ?_) _) fun _ => Abi.classified_encode _ _
  exact classified_resolveField d.kind e.1 e.2

end Report

theorem classified_statusName (o : Outcome) : Classified o.statusName := by
  unfold Outcome.statusName
  split
  · exact failsAs_ok
  · exact classified_refuse _

theorem classified_failureMessage (o : Outcome) : Classified o.failureMessage := by
  unfold Outcome.failureMessage
  split
  · exact failsAs_ok
  · exact failsAs_map (classified_statusName o)

namespace Workflow

theorem classified_require (value : Option String) (field : String) (hint : Option String) :
    Classified (require value field hint) := by
  unfold require
  split
  · split
    · exact classified_fail rfl
    · exact failsAs_ok
  · exact classified_fail rfl

theorem classified_gasLimit (s : String) : Classified (gasLimit s) := by
  unfold gasLimit
  split
  · exact failsAs_throw rfl
  split
  · exact failsAs_throw rfl
  · exact failsAs_ok

end Workflow

/-! ## Failures of a run -/

/-- The collaborator that was asked last failed with this. -/
inductive Collaborators.Raised (c : Collaborators) (f : Failure) : Trace → Prop
  | read {reader : Reader} {t : Trace} {address : String} {data : Bytes} (hc : c.reader = some reader)
    (h : reader t address data = .error f) : Raised c f { t with reads := t.reads ++ [⟨address, data⟩] }
  | sign {signer : Signer} {t : Trace} {payload : Bytes} (hc : c.signer = some signer)
    (h : signer t payload = .error f) : Raised c f { t with payloads := t.payloads ++ [payload] }
  | submit {writer : Writer} {t : Trace} {receiver : String} {report : SignedReport} {gas : Int}
    (hc : c.writer = some writer) (h : writer t receiver report gas = .error f) :
    Raised c f { t with submissions := t.submissions ++ [⟨receiver, gas⟩] }
  | send {sender : Sender} {t : Trace} {request : Request} (hc : c.sender = some sender)
    (h : sender t request = .error f) : Raised c f { t with requests := t.requests ++ [request] }

namespace Run

/-- What the run fails with has a category, or was raised by the collaborator that it asked last. -/
def Blameless (c : Collaborators) (r : Run α) : Prop :=
  ∀ t f t', exec r t = (.error f, t') → f.IsClassified ∨ c.Raised f t'

variable {c : Collaborators}

theorem blameless_pure (a : α) : Blameless c (pure a : Run α) := by
  intro t f t' h
  cases h

theorem blameless_throw {f : Failure} (hf : f.IsClassified) : Blameless c (throw f : Run α) := by
  intro t f' t' h
  cases h
  exact Or.inl hf

theorem blameless_fail {e : ActionError} (he : e.kind?.isSome = true) : Blameless c (fail e : Run α) :=
  blameless_throw (Failure.isClassified_ofAction he)

theorem blameless_lift {x : Except Failure α} (hx : Classified x) : Blameless c (liftM x : Run α) := by
  intro t f t' h
  rw [exec_lift] at h
  exact Or.inl (hx f (Prod.mk.inj h).1)

theorem blameless_bind {r : Run α} {f : α → Run β} (hr : Blameless c r) (hf : ∀ a, Blameless c (f a)) :
    Blameless c (r >>= f) := by
  intro t e t' h
  cases hx : exec r t with
  | mk x t₁ =>
    cases x with
    | error e' =>
      rw [exec_bind_of_error hx] at h
      cases h
      exact hr t e t' hx
    | ok a =>
      rw [exec_bind_of_ok hx] at h
      exact hf a t₁ e t' h

theorem blameless_lift_bind {x : Except Failure α} {f : α → Run β} (hx : Classified x)
    (hf : ∀ a, Blameless c (f a)) : Blameless c ((liftM x : Run α) >>= f) :=
  blameless_bind (blameless_lift hx) hf

theorem blameless_throw_bind {f : Failure} (hf : f.IsClassified) (g : α → Run β) :
    Blameless c ((throw f : Run α) >>= g) := by
  intro t f' t' h
  cases h
  exact Or.inl hf

theorem blameless_ite {p : Prop} [Decidable p] {r s : Run α} (hr : Blameless c r) (hs : Blameless c s) :
    Blameless c (if p then r else s) := by
  split
  · exact hr
  · exact hs

theorem blameless_report (level : Level) (name : String) : Blameless c (report level name) := by
  intro t f t' h
  cases h

theorem blameless_report_bind {level : Level} {name : String} {r : Run α} (hr : Blameless c r) :
    Blameless c (report level name >>= fun _ => r) :=
  blameless_bind (blameless_report level name) fun _ => hr

theorem blameless_answer {ask : Trace → Except Failure α} {record : Trace → Trace}
    (h : ∀ t f, ask t = .error f → c.Raised f (record t)) : Blameless c (answer ask record) := by
  intro t f t' he
  rw [exec_answer] at he
  obtain ⟨ha, rfl⟩ := Prod.mk.inj he
  exact Or.inr (h t f ha)

theorem blameless_readContract {reader : Reader} (hc : c.reader = some reader) (address : String) (data : Bytes) :
    Blameless c (readContract reader address data) :=
  blameless_answer fun _ _ h => .read hc h

theorem blameless_send {sender : Sender} (hc : c.sender = some sender) (request : Request) :
    Blameless c (send sender request) :=
  blameless_answer fun _ _ h => .send hc h

end Run

theorem Workflow.blameless_submit (c : Collaborators) (receiver : String) (payload : Bytes) (gas : Int) :
    Run.Blameless c (submit c receiver payload gas) := by
  unfold submit
  split
  · exact Run.blameless_throw rfl
  · exact Run.blameless_throw rfl
  · rename_i signer writer hs hw
    have hsign : Run.Blameless c (Run.sign signer payload) := Run.blameless_answer fun _ _ h => .sign hs h
    have hsubmit : ∀ report, Run.Blameless c (Run.submit writer receiver report gas) := fun report =>
      Run.blameless_answer fun _ _ h => .submit hw h
    exact Run.blameless_bind hsign fun report => Run.blameless_report_bind (hsubmit report)

theorem Settlement.blameless_classify (c : Collaborators) (o : Outcome)
    (amountIn amountOut operation : Option String) :
    Run.Blameless c (classify o amountIn amountOut operation) := by
  refine Run.blameless_lift_bind (failsAs_map (classified_statusName o)) fun b => ?_
  cases b with
  | true => exact Run.blameless_report_bind (Run.blameless_pure _)
  | false =>
    exact Run.blameless_lift_bind (classified_failureMessage o) fun _ =>
      Run.blameless_report_bind (Run.blameless_pure _)

end DefiActions
