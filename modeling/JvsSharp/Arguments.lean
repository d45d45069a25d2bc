import JvsSharp.Mode

/-!
# Command line arguments

Arguments are read from left to right. A value is kept aside until the next
argument shows that it is complete and is checked only then, so an unknown
flag is reported before a bad value in front of it.
-/

set_option autoImplicit false

namespace JvsSharp

structure Arguments where
  mode : Option String := none
  input : Option String := none
  output : Option String := none
  listRules : Option Mode := none
  json : Bool := false
  config : Option String := none
  verbosity : Nat := 0
  deriving DecidableEq, Repr

inductive ArgumentStop where
  | unknownArgument
  | invalidValue
  | argumentConflict
  | missingRequired
  | tooManyValues
  | help
  | version
  deriving DecidableEq, Repr

def ArgumentStop.message : ArgumentStop → String
  | .unknownArgument => "error: unexpected argument found"
  | .invalidValue => "error: a value is missing or invalid"
  | .argumentConflict => "error: an argument cannot be used with another or more than once"
  | .missingRequired => "error: --json needs --list-rules"
  | .tooManyValues => "error: a value was given to a flag that takes none"
  | .help => ""
  | .version => ""

inductive Slot where
  | mode
  | input
  | output
  | listRules
  | config
  deriving DecidableEq, Repr

namespace Arguments

structure Reading where
  args : Arguments := {}
  pending : Option (Slot × Option String) := none
  position : Nat := 0
  positionalOnly : Bool := false

def maxVerbosity : Nat := 255

def positional? : Nat → Option Slot
  | 0 => some .mode
  | 1 => some .input
  | 2 => some .output
  | _ => none

def isPath : Slot → Bool
  | .input | .output | .config => true
  | _ => false

def assign (args : Arguments) (slot : Slot) (value : String) : Except ArgumentStop Arguments :=
  if (slot = .config ∧ args.config.isSome) ∨ (slot = .listRules ∧ args.listRules.isSome) then
    .error .argumentConflict
  else if isPath slot ∧ value = "" then .error .invalidValue
  else
    match slot with
    | .mode => .ok { args with mode := some value }
    | .input => .ok { args with input := some value }
    | .output => .ok { args with output := some value }
    | .config => .ok { args with config := some value }
    | .listRules =>
        match Mode.ofName? value with
        | some m => .ok { args with listRules := some m }
        | none => .error .invalidValue

namespace Reading

def settle (r : Reading) : Except ArgumentStop Reading :=
  match r.pending with
  | none => .ok r
  | some (_, none) => .error .invalidValue
  | some (slot, some value) => do
      return { r with args := ← r.args.assign slot value, pending := none }

def verbose (r : Reading) : Except ArgumentStop Reading := do
  let r ← r.settle
  return { r with args := { r.args with verbosity := min maxVerbosity (r.args.verbosity + 1) } }

def json (r : Reading) : Except ArgumentStop Reading := do
  let r ← r.settle
  if r.args.json then .error .argumentConflict
  else return { r with args := { r.args with json := true } }

def stop (r : Reading) (why : ArgumentStop) : Except ArgumentStop Reading := do
  let _ ← r.settle
  .error why

def option (r : Reading) (slot : Slot) (value : Option String) : Except ArgumentStop Reading := do
  let r ← r.settle
  match value with
  | none => return { r with pending := some (slot, none) }
  | some v => settle { r with pending := some (slot, some v) }

def flag (value : Option String) (act : Except ArgumentStop Reading) :
    Except ArgumentStop Reading :=
  if value.isSome then .error .tooManyValues else act

def long (r : Reading) (name : Line) (value : Option String) : Except ArgumentStop Reading :=
  if name = "list-rules".toList then r.option .listRules value
  else if name = "config".toList then r.option .config value
  else if name = "json".toList then flag value r.json
  else if name = "verbose".toList then flag value r.verbose
  else if name = "help".toList then flag value (r.stop .help)
  else if name = "version".toList then flag value (r.stop .version)
  else .error .unknownArgument

def short (r : Reading) (c : Char) : Except ArgumentStop Reading :=
  if c = 'v' then r.verbose
  else if c = 'h' then r.stop .help
  else if c = 'V' then r.stop .version
  else .error .unknownArgument

def positional (r : Reading) (value : String) : Except ArgumentStop Reading :=
  match positional? r.position with
  | none => .error .unknownArgument
  | some slot => do
      let r ← r.settle
      return { r with pending := some (slot, some value), position := r.position + 1 }

def plain (r : Reading) (value : String) : Except ArgumentStop Reading :=
  match r.pending with
  | some (slot, none) => .ok { r with pending := some (slot, some value) }
  | _ => r.positional value

def cutValue (cs : Line) : Line × Option String :=
  match cs.dropWhile (· != '=') with
  | [] => (cs, none)
  | _ :: value => (cs.takeWhile (· != '='), some (String.ofList value))

def step (r : Reading) (arg : String) : Except ArgumentStop Reading :=
  if r.positionalOnly then r.positional arg
  else
    match arg.toList with
    | ['-', '-'] => .ok { r with positionalOnly := true }
    | '-' :: '-' :: rest => r.long (cutValue rest).1 (cutValue rest).2
    | '-' :: c :: cs => (c :: cs).foldlM short r
    | _ => r.plain arg

/-- Listing rules takes no mode to convert in, and the form of the list can be chosen only
where a list may be asked for. -/
def finish (r : Reading) : Except ArgumentStop Arguments := do
  let args := (← r.settle).args
  if args.listRules.isSome ∧ args.mode.isSome then .error .argumentConflict
  else if args.json ∧ args.listRules.isNone ∧ args.mode.isNone then .error .missingRequired
  else return args

end Reading

def parse (args : List String) : Except ArgumentStop Arguments := do
  Reading.finish (← args.foldlM Reading.step {})

end Arguments

end JvsSharp
