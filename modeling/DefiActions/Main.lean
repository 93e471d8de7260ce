import DefiActions.CommandLine.Execution

/-!
# The program

Reads the file that the command line names, executes the command and prints what
came of it. The program has no network.
-/

namespace DefiActions.CommandLine

def usage : String :=
  "usage: defi-actions [-v] (pool-id | scale | liquidity | sign | run) [argument ...]"

def secretVariables : IO (List (String × String)) := do
  let names := [Workflow.Trade.secretId]
  return (← names.mapM fun name => return (← IO.getEnv name).toList.map (name, ·)).flatten

def filesOf : Except Stop Command → IO Files
  | .ok (.run _ config _ _) => do
    let path := FilePath.ofText config
    try return [(path, (← IO.FS.readBinFile path.text).toList)] catch _ => return []
  | _ => return []

def report (ending : Ending) : IO Unit := do
  IO.print ending.output
  match ending with
  | .misused => IO.eprintln usage
  | .helped => IO.println usage
  | .refused _ error => IO.eprintln error
  | .finished .. => return

def runProgram (args : List String) : IO UInt32 := do
  let host := Host.offline (← secretVariables)
  let files ← filesOf (Command.ofArguments args)
  match execute host files args with
  | .ok ending =>
    report ending
    return ending.code.toUInt32
  | .error f =>
    IO.eprintln f.summary
    return 1

end DefiActions.CommandLine

def main (args : List String) : IO UInt32 := DefiActions.CommandLine.runProgram args
