import DefiActions.Proofs.PlanSound
import DefiActions.Proofs.SwapSound

/-!
# The pool of a pair

A swap and a position of the same two tokens fill in what their pool settings
leave open in the same way, but for a spacing of zero: a swap keeps it, and no
key has such a spacing, where a position counts it as not given. Which of the
two tokens comes first makes no difference, neither to the pool nor to a plan.
-/

namespace DefiActions.Workflow

open Config (PoolSettings SwapConfig PositionConfig)

structure SamePool (swap : SwapConfig) (position : PositionConfig) : Prop where
  tokens : (swap.input.source.address = position.tokenA.address ∧
      swap.input.destination.address = position.tokenB.address) ∨
    (swap.input.source.address = position.tokenB.address ∧
      swap.input.destination.address = position.tokenA.address)
  pool : swap.pool = position.pool
  feeTier : swap.feeTier = none

def Agree (swap : SwapConfig) (position : PositionConfig) : Prop :=
  ∀ key, (∃ zeroForOne, Swap.poolKey swap = .ok (key, zeroForOne)) ↔ Position.poolKey position = .ok key

def spacing? (position : PositionConfig) : Option Int := position.pool.bind (·.spacing)

def keyWith (position : PositionConfig) (spacing : Int) : Except Failure Pool.Key :=
  let fee := (position.pool.bind (·.fee)).getD Pool.defaultFee
  let hooks := ((position.pool.bind (·.hooks)).filter (!·.isEmpty)).getD Address.zero
  Pool.Key.create position.tokenA.address position.tokenB.address (.int fee) (.int spacing) hooks

theorem position_poolKey_eq (position : PositionConfig) : Position.poolKey position =
    keyWith position (((spacing? position).filter (· ≠ 0)).getD Pool.defaultSpacing) := rfl

theorem swap_poolKey_iff {swap : SwapConfig} {position : PositionConfig} (h : SamePool swap position)
    (key : Pool.Key) : (∃ zeroForOne, Swap.poolKey swap = .ok (key, zeroForOne)) ↔
      keyWith position ((spacing? position).getD Pool.defaultSpacing) = .ok key := by
  have hcreate : (∃ zeroForOne, Swap.poolKey swap = .ok (key, zeroForOne)) ↔
      Pool.Key.create swap.input.source.address swap.input.destination.address
        (.int ((position.pool.bind (·.fee)).getD Pool.defaultFee))
        (.int ((spacing? position).getD Pool.defaultSpacing))
        (((position.pool.bind (·.hooks)).filter (!·.isEmpty)).getD Address.zero) = .ok key := by
    simp only [Swap.poolKey, Swap.present?, h.pool, h.feeTier, Option.or_none, spacing?, Pool.Key.create, map_eq_ok,
      Prod.exists]
    constructor
    · rintro ⟨z, hz⟩
      exact ⟨key, z, hz, rfl⟩
    · rintro ⟨_, z, hz, rfl⟩
      exact ⟨z, hz⟩
  rw [hcreate, keyWith]
  rcases h.tokens with ⟨hs, hd⟩ | ⟨hs, hd⟩
  · rw [hs, hd]
  · rw [hs, hd]
    exact ⟨Pool.Key.create_swap, Pool.Key.create_swap⟩

theorem keyWith_zero_ne_ok {position : PositionConfig} {key : Pool.Key} : keyWith position 0 ≠ .ok key := by
  intro h
  obtain ⟨_, -, hk⟩ := Pool.Key.create_eq_ok.mp h
  obtain ⟨rfl, hc⟩ := Pool.Key.make_eq_ok hk
  exact Int.lt_irrefl _ hc.spacing

theorem swap_poolKey_ne_ok {swap : SwapConfig} {position : PositionConfig} (h : SamePool swap position)
    (hzero : spacing? position = some 0) (r : Pool.Key × Bool) : Swap.poolKey swap ≠ .ok r := by
  intro hr
  have hkey := (swap_poolKey_iff h r.1).mp ⟨r.2, hr⟩
  rw [hzero] at hkey
  exact keyWith_zero_ne_ok hkey

theorem filter_of_ne_zero {o : Option Int} (h : o ≠ some 0) : o.filter (· ≠ 0) = o := by
  cases o with
  | none => rfl
  | some n => exact Option.filter_some_pos (decide_eq_true fun e => h (congrArg some e))

/-- **A swap and a position of the same two tokens and pool settings agree on their pool, unless the settings
have a spacing of zero and are otherwise those of a pool.** With that spacing no swap has a pool, and a position
has the pool of the default spacing. -/
theorem agree_iff {swap : SwapConfig} {position : PositionConfig} (h : SamePool swap position) :
    (Agree swap position ↔ ¬ (spacing? position = some 0 ∧ ∃ key, Position.poolKey position = .ok key)) ∧
      (spacing? position = some 0 → (∀ r, Swap.poolKey swap ≠ .ok r) ∧
        Position.poolKey position = keyWith position Pool.defaultSpacing) := by
  by_cases hzero : spacing? position = some 0
  · have hswap := swap_poolKey_ne_ok h hzero
    refine ⟨⟨?_, ?_⟩, fun _ => ⟨hswap, by rw [position_poolKey_eq, hzero]; rfl⟩⟩
    · rintro hagree ⟨-, key, hk⟩
      obtain ⟨z, hz⟩ := (hagree key).mpr hk
      exact hswap _ hz
    · intro hn key
      exact ⟨fun ⟨z, hz⟩ => absurd hz (hswap _), fun hk => absurd ⟨hzero, key, hk⟩ hn⟩
  · refine ⟨⟨fun _ hk => hzero hk.1, fun _ key => ?_⟩, fun he => absurd he hzero⟩
    rw [swap_poolKey_iff h, position_poolKey_eq, filter_of_ne_zero hzero]

/-! ## Two configurations -/

open Pool.Key (someKey)

theorem samePool_some : SamePool Swap.someSwap Position.somePosition where
  tokens := .inl ⟨rfl, rfl⟩
  pool := rfl
  feeTier := rfl

theorem some_agree : SamePool Swap.someSwap Position.somePosition ∧ Agree Swap.someSwap Position.somePosition ∧
    Swap.poolKey Swap.someSwap = .ok (someKey, false) :=
  ⟨samePool_some, (agree_iff samePool_some).1.mpr fun h => (nomatch h.1), Swap.poolKey_someSwap⟩

def zeroSpacing : PoolSettings := ⟨none, some 0, none⟩

theorem zeroSpacing_disagree :
    SamePool { Swap.someSwap with pool := zeroSpacing } { Position.somePosition with pool := zeroSpacing } ∧
      Position.poolKey { Position.somePosition with pool := zeroSpacing } = .ok someKey ∧
      ∀ r, Swap.poolKey { Swap.someSwap with pool := zeroSpacing } ≠ .ok r := by
  have hs : SamePool { Swap.someSwap with pool := zeroSpacing }
      { Position.somePosition with pool := zeroSpacing } := {
    tokens := samePool_some.tokens
    pool := rfl
    feeTier := rfl }
  have hkey : keyWith Position.somePosition Pool.defaultSpacing = .ok someKey :=
    (swap_poolKey_iff samePool_some someKey).mp ⟨_, Swap.poolKey_someSwap⟩
  exact ⟨hs, hkey, swap_poolKey_ne_ok hs rfl⟩

end DefiActions.Workflow

namespace DefiActions.Workflow.Position

open Config (PositionConfig)
open Run (exec)

/-! ## Exchanged tokens -/

def exchanged (config : PositionConfig) : PositionConfig :=
  { config with
    tokenA := config.tokenB, tokenB := config.tokenA, amountA := config.amountB, amountB := config.amountA }

theorem exchanged_exchanged (config : PositionConfig) : exchanged (exchanged config) = config := rfl

theorem poolKey_exchanged {config : PositionConfig} {key : Pool.Key} (h : poolKey config = .ok key) :
    poolKey (exchanged config) = .ok key := Pool.Key.create_swap h

theorem desired_exchanged {config : PositionConfig} {key : Pool.Key} {want : Desired} {forward : Bool}
    (ho : key.Orders config.tokenA.address config.tokenB.address forward) (h : desired config key = .ok want) :
    desired (exchanged config) key = .ok want := by
  obtain ⟨a, b, ha, hb, hla, hlb, rfl⟩ := (desired_eq_ok_iff ho).mp h
  have ho' : key.Orders (exchanged config).tokenA.address (exchanged config).tokenB.address (!forward) := ho.symm
  refine (desired_eq_ok_iff ho').mpr ⟨b, a, hb, ha, hlb, hla, ?_⟩
  -- Each amount goes with its token, whichever of the two is named first.
  cases forward with
  | true => rfl
  | false => rfl

theorem plan_exchanged {config : PositionConfig} {key : Pool.Key} {want : Desired} {forward : Bool}
    (ho : key.Orders config.tokenA.address config.tokenB.address forward) (hkey : poolKey config = .ok key)
    (hwant : desired config key = .ok want) (c : Collaborators) : plan (exchanged config) c = plan config c := by
  -- With the pool and the desired amounts the rest of the plan is settled.
  have hprice : currentPrice (exchanged config) c key = currentPrice config c key := rfl
  have hwant' := desired_exchanged ho hwant
  simp only [plan, hkey, poolKey_exchanged hkey, Run.lift_ok_bind, hwant, hwant', hprice]
  rfl

theorem run_exchanged {config : PositionConfig} {c : Collaborators} {p : Plan} {t : Trace}
    (h : Run.start (run config c) = (.ok (.planned p), t)) :
    Run.start (run (exchanged config) c) = (.ok (.planned p), t) := by
  obtain ⟨_, hplan, -⟩ := run_eq_ok h
  obtain ⟨key, want, _, _, _, _, _, _, _, hkey, hwant, -⟩ := plan_eq_ok hplan
  obtain ⟨forward, ho, -⟩ := poolKey_eq_ok hkey
  rw [run, plan_exchanged ho hkey hwant]
  exact h

/-- **A position can be planned exactly when it can be planned with its tokens exchanged, and the two plans are
the same.** So is all that is asked of the collaborators on the way. -/
theorem planned_exchanged_iff (config : PositionConfig) (c : Collaborators) (p : Plan) (t : Trace) :
    Run.start (run (exchanged config) c) = (.ok (.planned p), t) ↔
      Run.start (run config c) = (.ok (.planned p), t) := by
  constructor
  · intro h
    have := run_exchanged h
    rwa [exchanged_exchanged] at this
  · exact run_exchanged

end DefiActions.Workflow.Position
