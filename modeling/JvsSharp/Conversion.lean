import JvsSharp.Mode
import JvsSharp.Text.Quoted

/-!
# Converting a file

The index is built from all lines first. Then every line goes through all
rules of the mode in order, with the override state handed from line to line;
lines that end up blank are dropped. A prelude is written before the result
and, on demand, one closing brace behind it.
-/

set_option autoImplicit false

namespace JvsSharp

def convertLine (rules : List Rule) (index : Index) (s : Progress) : Progress :=
  rules.foldl (fun s r => r.apply index s) s

def convertLines (rules : List Rule) (index : Index) : OverrideState → List Line → List Progress
  | _, [] => []
  | state, line :: lines =>
      let s := convertLine rules index ⟨line, state⟩
      s :: convertLines rules index s.state lines

structure Change where
  rule : Rule
  before : Line
  after : Line
  deriving DecidableEq, Repr

def changes (index : Index) : List Rule → Progress → List Change
  | [], _ => []
  | r :: rules, s =>
      let s' := r.apply index s
      if s'.line == s.line then changes index rules s'
      else ⟨r, s.line, s'.line⟩ :: changes index rules s'

def traceLines (rules : List Rule) (index : Index) :
    OverrideState → List Line → List (List Change × Progress)
  | _, [] => []
  | state, line :: lines =>
      let s := convertLine rules index ⟨line, state⟩
      (changes index rules ⟨line, state⟩, s) :: traceLines rules index s.state lines

structure Conversion where
  mode : Mode
  prelude : List Line
  closeNamespace : Bool
  deriving DecidableEq, Repr

namespace Conversion

def ofMode : Mode → Conversion
  | .general => ⟨.general, [], false⟩
  | .domain => ⟨.domain, Rules.defaultUsings.map String.toList, true⟩

def rules (c : Conversion) : List Rule := c.mode.rules

def body (c : Conversion) (lines : List Line) : List Line :=
  ((convertLines c.rules (Index.build lines) .idle lines).map Progress.line).filter
    fun line => !Text.isBlankLine line

def closing (c : Conversion) : List Line := if c.closeNamespace then [['\x7d']] else []

def run (c : Conversion) (lines : List Line) : List Line := c.prelude ++ c.body lines ++ c.closing

def trace (c : Conversion) (lines : List Line) : List (List Change × Progress) :=
  traceLines c.rules (Index.build lines) .idle lines

def describe (c : Conversion) : Line :=
  "Pipeline \x7b mode: ".toList ++
    (match c.mode with
     | .general => "General".toList
     | .domain => "Domain".toList) ++
    ", rules: ".toList ++ Text.quotedList (c.mode.ruleNames.map String.toList) ++
    ", prelude: ".toList ++ Text.quotedList c.prelude ++
    ", close_namespace: ".toList ++ (if c.closeNamespace then "true" else "false").toList ++
    " \x7d".toList

end Conversion

end JvsSharp
