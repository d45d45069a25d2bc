import JvsSharp.Log.Event
import JvsSharp.Text.Split
import JvsSharp.Text.Trim

/-!
# Which events are shown

A filter is a list of directives. A directive sets the threshold for the
events that it concerns, and of all that concern an event the most specific
one decides. On the command line a verbosity gives the filter; without one the
environment may spell it out, as in `info,part::of::program=debug`.
-/

set_option autoImplicit false

namespace JvsSharp

structure Directive where
  target : Line := []
  span : Option Line := none
  field : Option Line := none
  threshold : Threshold := some .trace
  deriving DecidableEq, Repr

namespace Directive

def concerns (d : Directive) (e : Event) : Bool :=
  -- no event lies within a span
  d.target.isPrefixOf e.source.toList && d.span.isNone &&
    d.field.all fun f => e.fieldNames.contains (String.ofList f)

/-- A longer target is more specific than a shorter one, for the same target a field is more
specific than none, and of two fields the one that sorts later comes first. -/
def outranks (a b : Directive) : Bool :=
  if a.target.length = b.target.length then
    match a.field, b.field with
    | some f, some g => decide (g < f)
    | some _, none => true
    | none, _ => false
  else decide (b.target.length < a.target.length)

def level? : Line → Option Threshold
  | [] => some (some .trace)
  | text => Threshold.ofText? text

def bracketed? (target text : Line) : Option (Directive × Line) :=
  match text.span fun c => c != ']' && c != '\x7b' with
  | (name, ']' :: rest) => some ({ target := target, span := some name }, rest)
  | (name, '\x7b' :: rest) =>
      match rest.span fun c => c != '\x7d' with
      | (field, '\x7d' :: ']' :: rest) =>
          if field.isEmpty then none
          else
            let span := if name.isEmpty then none else some name
            some ({ target := target, span := span, field := some field }, rest)
      | _ => none
  | _ => none

def startsTarget (c : Char) : Bool := c == '-' || c == ':' || Unicode.isNamePart c

def scope? : Line → Option (Directive × Line)
  | [] => none
  | '[' :: rest => bracketed? [] rest
  | c :: cs =>
      if startsTarget c then
        match (c :: cs).span fun c => c != '=' && c != '[' with
        | (target, '[' :: rest) => bracketed? target rest
        | (target, rest) => some ({ target := target }, rest)
      else none

def plain (text : Line) : Directive :=
  match Threshold.ofText? text with
  | some t => { threshold := t }
  | none => { target := text }

/-- Reads a directive. Blanks around it are part of a plain text, which then is no level, and
are refused beside a level; no source starts with those in front of brackets. -/
def parse? (text : Line) : Option Directive :=
  let tight := Text.trim text
  match scope? tight with
  | some (d, '=' :: level) =>
      if tight = text then (level? level).map fun t => { d with threshold := t } else none
  | some (d, []) =>
      if d.span.isNone && d.field.isNone then some (plain text)
      else if text.head? = tight.head? then some d
      else some { d with target := text }
  | _ => none

end Directive

abbrev Filter := List Directive

namespace Filter

def ofLevel (l : Level) : Filter := [{ threshold := some l }]

/-- The directive that decides about an event; a later one replaces an earlier one that is
not more specific. -/
def deciding? (f : Filter) (e : Event) : Option Directive :=
  (f.filter (·.concerns e)).foldl
    (fun best d =>
      match best with
      | some b => if b.outranks d then some b else some d
      | none => some d)
    none

def shows (f : Filter) (e : Event) : Bool :=
  (f.deciding? e).any fun d => d.threshold.admits e.level

def parse? (text : Line) : Option Filter :=
  match (Text.split ',' text).filter (· ≠ []) with
  | [] => some (ofLevel .error)
  | pieces => pieces.mapM Directive.parse?

def choose (verbosity : Nat) (environment : Option String) : Filter :=
  match verbosity, environment with
  | 0, some text => (parse? text.toList).getD (ofLevel .warn)
  | v, _ => ofLevel (.ofVerbosity v)

end Filter

end JvsSharp
