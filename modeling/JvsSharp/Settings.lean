import JvsSharp.Conversion
import JvsSharp.Toml.Document

/-!
# Settings

A settings document has a section for each mode. A section is a table, or an
array that lists its values in order; what it leaves out keeps the default of
the mode. Unknown keys and values of the wrong kind are refused.
-/

set_option autoImplicit false

namespace JvsSharp
open Toml

structure Section where
  usings : Option (List Line)
  closeNamespace : Option Bool
  deriving DecidableEq, Repr

namespace Section

def unset : Section := ⟨none, none⟩

def readText? : Node → Option Line
  | .text s => some s
  | _ => none

def readTexts? : Node → Option (List Line)
  | .array items => items.mapM readText?
  | _ => none

def readBool? : Node → Option Bool
  | .bool b => some b
  | _ => none

def ofEntry? (s : Section) (entry : Key × Node) : Option Section :=
  if entry.1 = "usings".toList then (readTexts? entry.2).map fun u => { s with usings := some u }
  else if entry.1 = "close_namespace".toList then
    (readBool? entry.2).map fun b => { s with closeNamespace := some b }
  else none

def ofItems? : List Node → Option Section
  | [] => some unset
  | [usings] => (readTexts? usings).map fun u => ⟨some u, none⟩
  | usings :: close :: _ => do
      let u ← readTexts? usings
      let b ← readBool? close
      some ⟨some u, some b⟩

def ofNode? : Node → Option Section
  | .table _ entries => entries.foldlM ofEntry? unset
  | .array items => ofItems? items
  | _ => none

end Section

structure Settings where
  general : Section
  domain : Section
  deriving DecidableEq, Repr

namespace Settings

def default : Settings := ⟨.unset, .unset⟩

def ofEntry? (s : Settings) (entry : Key × Node) : Option Settings :=
  if entry.1 = "general".toList then
    (Section.ofNode? entry.2).map fun g => { s with general := g }
  else if entry.1 = "domain".toList then
    (Section.ofNode? entry.2).map fun d => { s with domain := d }
  else none

def parse? (text : Line) : Option Settings := do
  let entries ← Toml.parse? text
  entries.foldlM ofEntry? default

def sectionOf (s : Settings) : Mode → Section
  | .general => s.general
  | .domain => s.domain

def conversion (s : Settings) (mode : Mode) : Conversion :=
  let base := Conversion.ofMode mode
  { base with
    prelude := (s.sectionOf mode).usings.getD base.prelude
    closeNamespace := (s.sectionOf mode).closeNamespace.getD base.closeNamespace }

end Settings

end JvsSharp
