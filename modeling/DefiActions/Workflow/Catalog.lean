import DefiActions.Config.Validation
import DefiActions.PriceFeed
import DefiActions.Workflow.Lending
import DefiActions.Workflow.Position
import DefiActions.Workflow.Route
import DefiActions.Workflow.Swap
import DefiActions.Workflow.Trade

/-!
# The workflows by name

Every workflow has a name, a shape for its configuration and a run.
-/

namespace DefiActions

inductive Workflow
  | readFeeds
  | uniswapSwap
  | aaveLending
  | lifiSwap
  | ostiumTrading
  | liquidityPosition
  deriving DecidableEq, Repr

namespace Workflow

def all : List Workflow :=
  [readFeeds, uniswapSwap, aaveLending, lifiSwap, ostiumTrading, liquidityPosition]

def name : Workflow → String
  | readFeeds => "read-feeds"
  | uniswapSwap => "uniswap-swap"
  | aaveLending => "aave-lending"
  | lifiSwap => "lifi-swap"
  | ostiumTrading => "ostium-trading"
  | liquidityPosition => "liquidity-position"

def ofName? (name : String) : Option Workflow := all.find? (·.name = name)

open Config in
def shape : Workflow → Shape
  | readFeeds => readFeedsShape
  | uniswapSwap => uniswapSwapShape
  | aaveLending => aaveLendingShape
  | lifiSwap => lifiSwapShape
  | ostiumTrading => ostiumTradeShape
  | liquidityPosition => liquidityPositionShape

def configure (w : Workflow) (v : Value) : Except Failure Value := Config.validate w.shape v

def override (w : Workflow) (config v : Value) : Except Failure Value := Config.merge w.shape config v

def run (w : Workflow) (config : Value) (c : Collaborators) : Run WorkflowResult :=
  match w with
  | readFeeds => return .feeds (← PriceFeed.readAll (.ofValue config) c)
  | uniswapSwap => return .action (← Swap.run (.ofValue config) c)
  | aaveLending => return .action (← Lending.run (.ofValue config) c)
  | lifiSwap => return .action (← Route.run (.ofValue config) c)
  | ostiumTrading => return .action (← Trade.run (.ofValue config) c)
  | liquidityPosition => return .position (← Position.run (.ofValue config) c)

end Workflow

end DefiActions
