import JvsSharp.Command

/-!
# The program

Reads what the command may ask for, runs it, and does the one write it asks
for. Everything else is decided by the command.
-/

set_option autoImplicit false

namespace JvsSharp.Program

def faultOf : IO.Error → Fault
  | .noFileOrDirectory .. => .notFound
  | .inappropriateType _ code details =>
      if code = 20 then .notDirectory
      else if code = 21 then .isDirectory
      else .other details code.toNat
  | .permissionDenied _ code details => .other details code.toNat
  | .resourceExhausted _ code details => .other details code.toNat
  | e => .other (toString e) 0

def probe (path : String) : IO (Except Fault (List UInt8)) := do
  try
    return .ok (← IO.FS.readBinFile path).toList
  catch e => return .error (faultOf e)

def isFileResult : Except Fault (List UInt8) → Bool
  | .ok _ => true
  | .error .notFound | .error .notDirectory | .error .isDirectory => false
  | .error _ => true

def diskOf (paths : List String) : IO Disk := do
  let probes ← paths.mapM fun path => return (path, ← probe path)
  let find (path : String) : Except Fault (List UInt8) :=
    (probes.lookup path).getD (.error .notFound)
  return ⟨fun path => isFileResult (find path), find⟩

def write (path : String) (bytes : List UInt8) : IO (Option Fault) := do
  try
    IO.FS.writeBinFile path ⟨bytes.toArray⟩
    return none
  catch e => return some (faultOf e)

def run (args : Arguments) : IO Outcome := do
  let paths := args.input.toList ++ [args.config.getD Settings.projectPath]
  let disk ← diskOf paths
  let directory := (← IO.currentDir).toString
  match Command.plan disk directory args with
  | .done outcome => return outcome
  | .write path bytes outcome => return outcome (← write path bytes)

def report (filter : Filter) (outcome : Outcome) : IO UInt32 := do
  IO.eprint (String.ofList (Command.logText filter outcome))
  IO.print (String.ofList outcome.stdout)
  match outcome.error with
  | none => return 0
  | some e =>
      IO.eprintln e.report
      return 1

end JvsSharp.Program

open JvsSharp in
def main (args : List String) : IO UInt32 := do
  match Arguments.parse args with
  | .error .help =>
      IO.print (String.ofList Command.helpText)
      return 0
  | .error .version =>
      IO.print (String.ofList Command.versionText)
      return 0
  | .error why =>
      IO.eprintln why.message
      return 2
  | .ok args =>
      let filter := Filter.choose args.verbosity (← IO.getEnv "RUST_LOG")
      Program.report filter (← Program.run args)
