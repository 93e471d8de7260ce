import DefiActions.Abi
import DefiActions.Address
import DefiActions.Value

/-!
# Report schemas

A receiver contract decodes a report by position, so the order and the kinds of
its fields are fixed. A field without a default has to be given: no report goes
out with a zero target, recipient or amount by omission.
-/

namespace DefiActions.Report

inductive Kind
  | lending
  | swap
  | genericCall
  deriving DecidableEq, Repr

namespace Kind

def all : List Kind := [lending, swap, genericCall]

def wireName : Kind → String
  | lending => "lending_report"
  | swap => "v4_swap_report"
  | genericCall => "generic_call_report"

def ofWireName (name : String) : Except Failure Kind :=
  match all.find? (·.wireName = name) with
  | some k => .ok k
  | none => refuse (.unknownReportKind name)

end Kind

structure Field where
  name : String
  kind : Abi.Kind
  wireName : String
  default? : Option Value := none

def variableRate : Int := 2

def zeroAddress : Option Value := some (.text Address.zero)

def zeroNumber : Option Value := some (.int 0)

open Abi.Kind in
def schema : Kind → List Field
  | .lending => [
    ⟨"operation", uint 8, "operation", none⟩,
    ⟨"pool_address", address, "poolAddress", none⟩,
    ⟨"asset", address, "asset", none⟩,
    ⟨"amount", uint 256, "amount", none⟩,
    ⟨"wallet_address", address, "walletAddress", none⟩,
    ⟨"on_behalf_of", address, "onBehalfOf", none⟩,
    ⟨"interest_rate_mode", uint 256, "interestRateMode", some (.int variableRate)⟩,
    ⟨"referral_code", uint 16, "referralCode", zeroNumber⟩,
    ⟨"a_token_address", address, "aTokenAddress", zeroAddress⟩]
  | .swap => [
    ⟨"currency0", address, "currency0", none⟩,
    ⟨"currency1", address, "currency1", none⟩,
    ⟨"fee", uint 24, "fee", none⟩,
    ⟨"tick_spacing", int 24, "tickSpacing", none⟩,
    ⟨"hooks", address, "hooks", zeroAddress⟩,
    ⟨"zero_for_one", bool, "zeroForOne", none⟩,
    ⟨"amount_in", uint 256, "amountIn", none⟩,
    ⟨"amount_out_min", uint 256, "amountOutMin", zeroNumber⟩,
    ⟨"hook_data", bytes, "hookData", some (.bytes [])⟩,
    ⟨"recipient", address, "recipient", none⟩,
    ⟨"deadline", uint 256, "deadline", none⟩,
    ⟨"pool_swap_test_address", address, "poolSwapTestAddress", none⟩,
    ⟨"pool_manager_address", address, "poolManagerAddress", none⟩,
    ⟨"sqrt_price_limit_x96", uint 160, "sqrtPriceLimitX96", none⟩]
  | .genericCall => [
    ⟨"target", address, "target", none⟩,
    ⟨"call_data", bytes, "callData", none⟩,
    ⟨"value", uint 256, "value", zeroNumber⟩,
    ⟨"token_in", address, "tokenIn", zeroAddress⟩,
    ⟨"amount_in", uint 256, "amountIn", none⟩,
    ⟨"recipient", address, "recipient", none⟩]

def kinds (k : Kind) : List Abi.Kind := (schema k).map (·.kind)

def signature (k : Kind) : String :=
  ", ".intercalate ((schema k).map fun f => f.kind.name ++ " " ++ f.wireName)

end DefiActions.Report
