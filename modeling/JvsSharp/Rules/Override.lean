import JvsSharp.Pattern.Edit

/-!
# Override markers

A marker is removed from its line, and the very next line, whatever it holds,
is the only one that may receive the keyword. A blank line or a comment in
between loses it.
-/

set_option autoImplicit false

namespace JvsSharp

inductive OverrideState where
  | idle
  | pending
  deriving DecidableEq, Repr

structure Progress where
  line : Line
  state : OverrideState
  deriving DecidableEq, Repr

def Progress.mapLine (f : Line → Line) (s : Progress) : Progress := { s with line := f s.line }

namespace Rules
open Pattern

def overrideMarker : Pattern := all ["@", gap, "Override"]

def markerRemoval : Edit where
  pattern := all ["@", gap, "Override", gap]
  template := []

def overridable : Edit where
  pattern := all [.start, .group 1 gap, "public", space, "void", space, .group 2 word, gap, "("]
  template := [1, "public override void ", 2, "("]

def trackOverride (s : Progress) : Progress :=
  if overrideMarker.occursIn s.line then ⟨markerRemoval.apply s.line, .pending⟩
  else
    match s.state with
    | .pending => ⟨overridable.pattern.replaceFirst overridable.render s.line, .idle⟩
    | .idle => s

end Rules

end JvsSharp
