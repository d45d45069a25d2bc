import JvsSharp.Conversion
import JvsSharp.Log.Level
import JvsSharp.Text.Terminal

/-!
# Events of the log

An event has a level, a part of the program that it comes from, a text and
named fields. Its line shows all of them but the part of the program.
-/

set_option autoImplicit false

namespace JvsSharp

inductive Event where
  | settingsLoaded (path : String)
  | settingsMissing (path : String)
  | converting (mode : Mode) (lines rules : Nat)
  | indexBuilt (bindings : Nat)
  | lineChanged (number : Nat) (change : Change)
  | finished (written : Nat)
  | wrote (path : String) (mode : Mode) (lines : Nat)
  deriving DecidableEq, Repr

namespace Event

def level : Event → Level
  | .lineChanged .. => .trace
  | .wrote .. => .info
  | _ => .debug

def source : Event → String
  | .settingsLoaded _ | .settingsMissing _ => "jvs2ntk::config"
  | .converting .. | .lineChanged .. | .finished _ => "jvs2ntk_rewrite::pipeline"
  | .indexBuilt _ => "jvs2ntk_rewrite::inference"
  | .wrote .. => "jvs2ntk::cli"

def text : Event → Line
  | .settingsLoaded _ => "loaded config".toList
  | .settingsMissing _ => "no project config, using defaults".toList
  | .converting .. => "converting".toList
  | .indexBuilt _ => "built collection index".toList
  | .lineChanged _ change =>
      Text.quoted change.before ++ " -> ".toList ++ Text.quoted change.after
  | .finished _ => "conversion finished".toList
  | .wrote path .. => ("wrote " ++ path).toList

def fields : Event → List (String × Line)
  | .settingsLoaded path | .settingsMissing path => [("path", path.toList)]
  | .converting mode lines rules =>
      [("mode", mode.name.toList), ("lines", (toString lines).toList),
       ("rules", (toString rules).toList)]
  | .indexBuilt bindings => [("bindings", (toString bindings).toList)]
  | .lineChanged number change =>
      [("rule", Text.quoted change.rule.name.toList), ("line", (toString number).toList)]
  | .finished written => [("written", (toString written).toList)]
  | .wrote _ mode lines => [("mode", mode.name.toList), ("lines", (toString lines).toList)]

def fieldNames (e : Event) : List String := "message" :: e.fields.map Prod.fst

def render (e : Event) : Line :=
  e.level.label ++ ' ' :: Text.shown e.text ++
    e.fields.flatMap fun (name, value) => ' ' :: name.toList ++ '=' :: value

end Event

def changeEvents : Nat → List (List Change × Progress) → List Event
  | _, [] => []
  | number, (cs, _) :: rest => cs.map (.lineChanged number) ++ changeEvents (number + 1) rest

def Conversion.events (c : Conversion) (lines : List Line) : List Event :=
  [.converting c.mode lines.length c.rules.length, .indexBuilt (Index.build lines).length] ++
    changeEvents 1 (c.trace lines) ++ [.finished (c.run lines).length]

end JvsSharp
