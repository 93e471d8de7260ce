import DefiActions.CommandLine.Command
import DefiActions.Files
import DefiActions.Host
import DefiActions.Json.Reader
import DefiActions.Text.Character

/-!
# Execution of commands

A command prints lines and ends with a code. A value that is refused on the way
ends it with code 1 and an error report, after what has been printed so far;
any other failure leaves the program.
-/

namespace DefiActions.CommandLine

/-- A command under execution, with the text printed so far. -/
abbrev Execution := ExceptT Failure (StateM String)

def printLine (line : String) : Execution Unit := modify fun printed => printed ++ line ++ "\n"

/-- The numeral of an integer, which must keep the numeral limit. -/
def numeral (n : Int) : Except Failure String :=
  if Text.isWritable n then .ok (Text.numeral n) else refuse (.numeralTooLong none)

def readInteger (s : String) : Except Failure Int :=
  (Text.readInt .ten s.toList).mapError fun fault => Failure.ofRejection (.ofNumeral .ten s fault)

/-! ## The commands -/

def printPoolId (key : Pool.Key) : Execution Nat := do
  printLine ("currency0: " ++ key.currency0)
  printLine ("currency1: " ++ key.currency1)
  printLine ("poolId:    " ++ (← key.idText))
  return 0

def scaled (value : String) (decimals : Int) (toRaw : Bool) : Except Failure String := do
  if toRaw then numeral (← Amount.parse value decimals)
  else Amount.format (← readInteger value) decimals

/-- The liquidity of the amounts and what it uses of them, as a record of numerals. -/
def sized (lower upper amount0 amount1 price : Int) (precision : Liquidity.Precision) :
    Except Failure Value := do
  let liquidity ← Liquidity.maxForTicks lower upper price amount0 amount1 precision
  let (used0, used1) ←
    Liquidity.amounts price (← Tick.sqrtRatio lower) (← Tick.sqrtRatio upper) liquidity
  return .record [("liquidity", .text (← numeral liquidity)), ("amount0", .text (← numeral used0)),
    ("amount1", .text (← numeral used1))]

/-- The configuration in a file with an override put over it, if there is one. -/
def configuration (files : Files) (w : Workflow) (config override : String) : Except Failure Value := do
  let base ← w.configure (← Json.documentOfBytes (← files.read (.ofText config)))
  if override = "" then return base else w.override base (← Json.document override.toList)

/-- Prints the result of a workflow. The code tells whether it is a success. -/
def runWorkflow (h : Host) (w : Workflow) (config : Value) (node : String) : Execution Nat := do
  let (result, _) := Run.start (w.run config (h.collaborators node h.connect))
  let result ← result
  printLine (Json.write .lines result.toValue)
  return if result.success then 0 else 1

def Command.execute (h : Host) (files : Files) : Command → Execution Nat
  | poolId tokenA tokenB fee spacing hooks => do
    printPoolId (← Pool.Key.create tokenA tokenB (.int fee) (.int spacing) hooks)
  | scale value decimals toRaw => do
    printLine (← scaled value decimals toRaw)
    return 0
  | liquidity lower upper amount0 amount1 price precision => do
    printLine (Json.write .spaced (← sized lower upper amount0 amount1 price precision))
    return 0
  | sign secret method path body timestamp => do
    printLine (Signing.sign secret method path body timestamp)
    return 0
  | run w config override node => do
    runWorkflow h w (← configuration files w config override) node

/-! ## How a program ends -/

inductive Ending
  | misused
  | helped
  | finished (code : Nat) (output : String)
  /-- With the first line of the error report. -/
  | refused (output error : String)
  deriving DecidableEq, Repr

namespace Ending

def code : Ending → Nat
  | misused => 2
  | helped => 0
  | finished code _ => code
  | refused .. => 1

def output : Ending → String
  | misused | helped => ""
  | finished _ output | refused output _ => output

def error? : Ending → Option String
  | refused _ error => some error
  | _ => none

def lineEnds : Text.CharSet := [(0x0A, 0x0D), (0x1C, 0x1E), (0x85, 0x85), (0x2028, 0x2029)]

def firstLine (s : String) : String := String.ofList (s.toList.takeWhile (!lineEnds.contains ·))

def issueCount (model : String) (n : Nat) : String :=
  Text.numeral n ++ (if n = 1 then " validation error for " else " validation errors for ") ++ model

/-- The first line of the report on a failure. -/
def errorLine (f : Failure) : String :=
  match f with
  | .invalid model issues => "Error: " ++ issueCount model issues.length
  | f => firstLine ("Error: " ++ f.description)

def ofStop : Stop → Ending
  | .misuse => misused
  | .help => helped

end Ending

def Command.finish (h : Host) (files : Files) (command : Command) : Except Failure Ending :=
  match (command.execute h files).run.run "" with
  | (.ok code, output) => .ok (.finished code output)
  | (.error f, output) => if f.isRefusal then .ok (.refused output (Ending.errorLine f)) else throw f

def execute (h : Host) (files : Files) (args : List String) : Except Failure Ending :=
  match Command.ofArguments args with
  | .error stop => .ok (.ofStop stop)
  | .ok command => command.finish h files

end DefiActions.CommandLine
