import JvsSharp.Arguments
import JvsSharp.Disk
import JvsSharp.Document
import JvsSharp.Log.Filter
import JvsSharp.Settings

/-!
# The command

The command lists the rules of a mode, explains its usage, or converts one
file into another. It decides everything from what it reads and then asks for
at most one write, so a run that fails leaves the disk as it was.
-/

set_option autoImplicit false

namespace JvsSharp

inductive CommandError where
  | unsupportedMode (text : String)
  | settingsUnreadable (path : String) (fault : Fault)
  | settingsInvalid (path : String)
  | inputUnreadable (path : String) (fault : Fault)
  | outputUnwritable (path : String) (fault : Fault)
  deriving DecidableEq, Repr

namespace CommandError

def message : CommandError → String
  | .unsupportedMode text => "unsupported conversion mode: " ++ text
  | .settingsUnreadable path fault => "failed to read config " ++ path ++ ": " ++ fault.message
  | .settingsInvalid path => "invalid config " ++ path ++ ": TOML parse error"
  | .inputUnreadable path fault => "failed to read " ++ path ++ ": " ++ fault.message
  | .outputUnwritable path fault => "failed to write " ++ path ++ ": " ++ fault.message

/-- The message followed by its causes, of which that of unreadable settings is named in
the message as well. -/
def report : CommandError → String
  | .settingsUnreadable path fault =>
      (CommandError.settingsUnreadable path fault).message ++ ": " ++ fault.message
  | e => e.message

end CommandError

namespace Settings

def projectPath : String := ".jvs2ntk/config.toml"

def shownPath (directory : String) : String :=
  if directory.isEmpty then projectPath
  else if directory.toList.getLast? = some '/' then directory ++ projectPath
  else directory ++ "/" ++ projectPath

def loadFrom (parse : Line → Option Settings) (disk : Disk) (path shown : String) :
    Except CommandError Settings := do
  match disk.readText path with
  | .error fault => .error (.settingsUnreadable shown fault)
  | .ok text =>
      match parse text with
      | some settings => .ok settings
      | none => .error (.settingsInvalid shown)

def load (disk : Disk) (directory : String) (explicit : Option String)
    (parse : Line → Option Settings := parse?) : Except CommandError (Settings × Event) := do
  match explicit with
  | some path => return (← loadFrom parse disk path path, .settingsLoaded path)
  | none =>
      let shown := shownPath directory
      if disk.isFile projectPath then
        return (← loadFrom parse disk projectPath shown, .settingsLoaded shown)
      else return (default, .settingsMissing shown)

end Settings

structure Outcome where
  stdout : Line := []
  events : List Event := []
  error : Option CommandError := none
  deriving DecidableEq, Repr

inductive Plan where
  | done (outcome : Outcome)
  /-- Write the bytes; the outcome depends on whether that fails. -/
  | write (path : String) (bytes : List UInt8) (outcome : Option Fault → Outcome)

namespace Command

def usage : Line :=
  ("Usage: jvs2ntk [OPTIONS] [MODE] [INPUT] [OUTPUT]\nModes: " ++
    ", ".intercalate (Mode.all.map Mode.name) ++ "\n").toList

def helpText : Line :=
  "Convert JVS scripts into C# source\n\n".toList ++ usage ++
    ("\nOptions:\n" ++
      "      --list-rules <MODE>  Print the rule order of a mode and exit\n" ++
      "      --json               Print --list-rules as JSON\n" ++
      "      --config <PATH>      Config file (defaults to .jvs2ntk/config.toml when present)\n" ++
      "  -v, --verbose...         Increase log verbosity (-v info, -vv debug, -vvv trace)\n" ++
      "  -h, --help               Print help\n" ++
      "  -V, --version            Print version\n").toList

def versionText : Line := "jvs2ntk 0.2.0\n".toList

def padLeft (width : Nat) (text : Line) : Line := List.replicate (width - text.length) ' ' ++ text

def numbered : Nat → List String → Line
  | _, [] => []
  | n, name :: names =>
      padLeft 2 (toString n).toList ++ ". ".toList ++ name.toList ++ '\n' :: numbered (n + 1) names

def ruleListJson (mode : Mode) : Line :=
  ("\x7b\n  \"mode\": \"" ++ mode.name ++ "\",\n  \"rules\": [\n    " ++
    ",\n    ".intercalate (mode.ruleNames.map fun n => "\"" ++ n ++ "\"") ++
    "\n  ]\n\x7d\n").toList

def ruleList (mode : Mode) (json : Bool) : Line :=
  if json then ruleListJson mode else numbered 1 mode.ruleNames

def notFoundText (input : String) : Line := ("Input file not found: " ++ input ++ "\n").toList

def writtenText (output : String) : Line := ("Converted file written to: " ++ output ++ "\n").toList

def convert (settings : Settings) (loaded : Event) (mode : Mode) (output : String)
    (bytes : List UInt8) : Plan :=
  let conversion := settings.conversion mode
  let (written, text) := conversion.convertBytes bytes
  let events := loaded :: conversion.events (sourceLines bytes)
  .write output (Utf8.encode text) fun
    | none =>
        { stdout := writtenText output
          events := events ++ [.wrote output mode written] }
    | some fault => { events := events, error := some (.outputUnwritable output fault) }

/-- The conversion of one file. The mode is checked before the input is looked for, and the
settings are read only if there is an input. -/
def convertFile (parse : Line → Option Settings) (disk : Disk) (directory : String)
    (config : Option String) (mode input output : String) : Plan :=
  match Mode.ofName? mode with
  | none => .done { error := some (.unsupportedMode mode) }
  | some m =>
      if disk.isFile input then
        match Settings.load disk directory config parse with
        | .error e => .done { error := some e }
        | .ok (settings, loaded) =>
            match disk.read input with
            | .error fault =>
                .done { events := [loaded], error := some (.inputUnreadable input fault) }
            | .ok bytes => convert settings loaded m output bytes
      else .done { stdout := notFoundText input }

def plan (disk : Disk) (directory : String) (args : Arguments)
    (parse : Line → Option Settings := Settings.parse?) : Plan :=
  match args.listRules with
  | some mode => .done { stdout := ruleList mode args.json }
  | none =>
      match args.mode, args.input, args.output with
      | some mode, some input, some output =>
          convertFile parse disk directory args.config mode input output
      | _, _, _ => .done { stdout := usage }

def carryOut (tree : Tree) (access : Access) : Plan → Outcome × Tree
  | .done outcome => (outcome, tree)
  | .write path bytes outcome =>
      match tree.write access path bytes with
      | .ok tree' => (outcome none, tree')
      | .error fault => (outcome (some fault), tree)

def runOn (tree : Tree) (directory : String) (args : Arguments) (access : Access := {})
    (parse : Line → Option Settings := Settings.parse?) : Outcome × Tree :=
  carryOut tree access (plan (tree.disk access.home) directory args parse)

def logText (filter : Filter) (outcome : Outcome) : Line :=
  Text.unlines ((outcome.events.filter filter.shows).map Event.render)

end Command

end JvsSharp
