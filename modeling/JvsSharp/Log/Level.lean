import JvsSharp.Pattern.Basic

/-!
# Levels of the log

Each event of the log has a level. A threshold names the least important level
that is shown, and may show nothing at all.
-/

set_option autoImplicit false

namespace JvsSharp

inductive Level where
  | error
  | warn
  | info
  | debug
  | trace
  deriving DecidableEq, Repr

namespace Level

def rank : Level → Nat
  | .error => 1
  | .warn => 2
  | .info => 3
  | .debug => 4
  | .trace => 5

def all : List Level := [.error, .warn, .info, .debug, .trace]

def name : Level → String
  | .error => "error"
  | .warn => "warn"
  | .info => "info"
  | .debug => "debug"
  | .trace => "trace"

def label (l : Level) : Line := l.name.toList.map Char.toUpper

def ofVerbosity : Nat → Level
  | 0 => .warn
  | 1 => .info
  | 2 => .debug
  | _ => .trace

end Level

abbrev Threshold := Option Level

namespace Threshold

def admits (t : Threshold) (l : Level) : Bool := t.any fun least => l.rank ≤ least.rank

def ofRank? : Nat → Option Threshold
  | 0 => some none
  | n => (Level.all.find? fun l => l.rank == n).map some

def ofName? (text : Line) : Option Threshold :=
  let folded := text.map Char.toLower
  if folded = "off".toList then some none
  else (Level.all.find? fun l => l.name.toList == folded).map some

def number? : Line → Option Nat
  | '+' :: digits => digitsNumber? digits
  | digits => digitsNumber? digits
where
  digitsNumber? (digits : Line) : Option Nat :=
    if digits ≠ [] ∧ digits.all Char.isDigit then
      some (digits.foldl (fun n d => 10 * n + (d.toNat - '0'.toNat)) 0)
    else none

def ofText? (text : Line) : Option Threshold :=
  match number? text with
  | some n => ofRank? n
  | none => ofName? text

end Threshold

end JvsSharp
