import DefiActions.CommandLine.Arguments
import DefiActions.Liquidity
import DefiActions.Pool.Key
import DefiActions.Workflow.Catalog

/-!
# Commands

A command line names one command, before it the options of the whole program,
and behind it the arguments of the command.
-/

namespace DefiActions.CommandLine

inductive Command
  /-- The currencies of two tokens in order, and the id of their pool. -/
  | poolId (tokenA tokenB : String) (fee spacing : Int) (hooks : String)
  /-- A raw amount as decimal text, or the other way round. -/
  | scale (value : String) (decimals : Int) (toRaw : Bool)
  /-- The liquidity of two amounts in a range, and the amounts it uses. -/
  | liquidity (lower upper amount0 amount1 price : Int) (precision : Liquidity.Precision)
  | sign (secret method path body timestamp : String)
  | run (workflow : Workflow) (config : String) (override : String) (node : String)
  deriving DecidableEq, Repr

/-! ## Forms of the commands -/

def textOption (name : String) : OptionForm := { name, kind := .text }

def integerOption (name : String) : OptionForm := { name, kind := .integer }

def flagOption (name : String) : OptionForm := { name, kind := .flag }

def OptionForm.required (o : OptionForm) : OptionForm := { o with isRequired := true }

def poolIdForm : Form where
  options := [integerOption "--fee", integerOption "--tick-spacing", textOption "--hooks"]
  values := [[], []]

def scaleForm : Form where
  options := [(integerOption "--decimals").required, flagOption "--to-raw"]
  values := [[]]

def liquidityForm : Form where
  options := [(integerOption "--tick-lower").required, (integerOption "--tick-upper").required,
    (integerOption "--amount0").required, (integerOption "--amount1").required,
    integerOption "--sqrt-price", flagOption "--imprecise"]

def signForm : Form where
  options := [(textOption "--secret").required, textOption "--method", (textOption "--path").required,
    textOption "--body", (textOption "--timestamp").required]

def runForm : Form where
  options := [(textOption "--config").required, textOption "--override", textOption "--rpc-url"]
  values := [Workflow.all.map Workflow.name]

/-! ## Commands of arguments -/

namespace Command

def ofPoolId? (a : Arguments) : Option Command :=
  match a.values with
  | [tokenA, tokenB] =>
    some (.poolId tokenA tokenB ((a.integer? "--fee").getD Pool.defaultFee)
      ((a.integer? "--tick-spacing").getD Pool.defaultSpacing) ((a.text? "--hooks").getD Address.zero))
  | _ => none

def ofScale? (a : Arguments) : Option Command := do
  match a.values with
  | [value] => return .scale value (← a.integer? "--decimals") (a.has "--to-raw")
  | _ => none

def ofLiquidity? (a : Arguments) : Option Command := do
  return .liquidity (← a.integer? "--tick-lower") (← a.integer? "--tick-upper")
    (← a.integer? "--amount0") (← a.integer? "--amount1") ((a.integer? "--sqrt-price").getD Tick.unit)
    (if a.has "--imprecise" then .early else .full)

def ofSign? (a : Arguments) : Option Command := do
  return .sign (← a.text? "--secret") ((a.text? "--method").getD "POST") (← a.text? "--path")
    ((a.text? "--body").getD "") (← a.text? "--timestamp")

def ofRun? (a : Arguments) : Option Command := do
  match a.values with
  | [name] =>
    return .run (← Workflow.ofName? name) (← a.text? "--config") ((a.text? "--override").getD "")
      ((a.text? "--rpc-url").getD "")
  | _ => none

/-- The form of each command, and what its arguments mean. -/
def catalog : List (String × Form × (Arguments → Option Command)) := [
  ("pool-id", poolIdForm, ofPoolId?),
  ("scale", scaleForm, ofScale?),
  ("liquidity", liquidityForm, ofLiquidity?),
  ("sign", signForm, ofSign?),
  ("run", runForm, ofRun?)]

def ofNamed (name : String) (args : List String) : Except Stop Command :=
  match catalog.lookup name with
  | none => throw .misuse
  | some (form, meaning) => do
    match meaning (← Arguments.ofList form args) with
    | some command => return command
    | none => throw .misuse

def programForm : Form where
  options := [{ name := "--verbose", kind := .flag, letter := some 'v' }]

/-- The command of a command line. Its name is the first argument that is a value; what stands before
it must be options of the program. -/
def ofList (isExtra : Bool) : List String → Except Stop Command
  | [] => throw .misuse
  | arg :: rest =>
    if arg = "--" then throw .misuse
    else
      match programForm.token? arg with
      | some (.value name) => do
        let command ← ofNamed name rest
        if isExtra then throw .misuse else return command
      | some (.flags os) => do
        let _ ← os.foldlM (fun a o => Arguments.withOption a o "") {}
        ofList isExtra rest
      | some .unknown => ofList true rest
      | _ => throw .misuse

def ofArguments (args : List String) : Except Stop Command := ofList false args

end Command

end DefiActions.CommandLine
