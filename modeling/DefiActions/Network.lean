import DefiActions.Address

/-!
# Networks

What is known of the chains: which are test networks, and the addresses, numbers
and pages that belong to them.
-/

namespace DefiActions

namespace Text

/-- Whether `part` stands somewhere in the text. -/
def contains (part : List Char) : List Char → Bool
  | [] => part.isEmpty
  | c :: rest => part.isPrefixOf (c :: rest) || contains part rest

end Text

namespace Network

def isTest (chain : String) : Bool :=
  let low := Text.lower chain.toList
  chain = "ARBITRUM_SEPOLIA" || Text.contains "sepolia".toList low || Text.contains "testnet".toList low

def testStateView : String := "0x9d467fa9062b6e9b1a46e26007ad82db116c67cb"

def lendingPools : List (String × String) := [
  ("ARBITRUM", "0x794a61358D6845594F94dc1DB02A252b5b4814aD"),
  ("ARBITRUM_SEPOLIA", "0xBfC91D59fdAA134A4ED45f7B584cAf96D7792Eff")]

def routeChains : List (String × Int) := [("ARBITRUM", 42161), ("ARBITRUM_SEPOLIA", 421614)]

def routeChain (chain : String) : Int := (routeChains.lookup chain).getD 42161

def testExplorer : String := "https://sepolia.arbiscan.io/tx/"

def explorers : List (String × String) := [
  ("ARBITRUM", "https://arbiscan.io/tx/"), ("ARBITRUM_SEPOLIA", testExplorer)]

def explorerLink (chain txHash : String) : String := (explorers.lookup chain).getD testExplorer ++ txHash

/-- The view of pool states to ask: the configured one, or that of the test networks. -/
def stateView? (configured : Option String) (chain : String) : Option String :=
  match configured.filter (!·.isEmpty) with
  | some address => some address
  | none => if isTest chain then some testStateView else none

end Network

end DefiActions
