import TypedRecords.Command.Run
/-!
# The program

Reads the files that the arguments name, runs the command on them and prints its outcome.
-/

namespace TypedRecords.Program

open Command

def paths (invocation : Invocation) : List String :=
  invocation.options.toList ++
    match invocation.task with
    | .infer input _ _ => [input]
    | .normalize input schema => input :: schema.toList

def stateOf (path : String) : IO FileState := do
  try
    return .bytes (← IO.FS.readBinFile path)
  catch e =>
    match e with
    | .inappropriateType _ _ _ => return .directory
    | _ => return .missing

def usage : String :=
  "usage: typed-records [-o FILE] [-v] infer -i FILE [--sampling-ratio R] [--pretty]\n" ++
  "       typed-records [-o FILE] [-v] normalize -i FILE [-s FILE]"

def report (e : UsageError) : IO UInt32 := do
  match e with
  | .displayHelp =>
    IO.println usage
    return 0
  | .displayVersion =>
    IO.println "typed-records 0.1.0"
    return 0
  | .missingRequiredArgument =>
    IO.eprintln ("error: a required option is missing\n" ++ usage)
    return 2
  | .valueValidation =>
    IO.eprintln ("error: a value is not a number\n" ++ usage)
    return 2
  | _ =>
    IO.eprintln usage
    return 2

def execute (invocation : Invocation) : IO UInt32 := do
  let states ← (paths invocation).mapM fun path => do return (path, ← stateOf path)
  let outcome := run (fun path => (states.lookup path).getD .missing) invocation
  IO.print outcome.output
  match outcome.failure with
  | none => return 0
  | some .panic =>
    IO.eprintln Error.panic.message
    return 101
  | some e =>
    IO.eprintln ("Error: " ++ e.message)
    return 1

end TypedRecords.Program

def main (args : List String) : IO UInt32 :=
  match TypedRecords.Command.Invocation.ofArguments args with
  | .ok invocation => TypedRecords.Program.execute invocation
  | .error e => TypedRecords.Program.report e
