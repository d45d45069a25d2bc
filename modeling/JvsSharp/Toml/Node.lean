import JvsSharp.Pattern.Basic

/-!
# Settings documents as trees

A table remembers how it came about, because that decides what may be added to
it later: a table with a header of its own is never opened again, one that
only stood on the way to another may still get its header, and one that was
made by dotted keys grows by dotted keys only.
-/

set_option autoImplicit false

namespace JvsSharp.Toml

abbrev Key := Line

inductive Origin where
  /-- Written between braces, and closed with them. -/
  | inline
  /-- Opened by a header. -/
  | header
  /-- Named on the way to a longer header. -/
  | passing
  /-- Named on the way to a dotted key. -/
  | dotted
  deriving DecidableEq, Repr

inductive Node where
  | text (s : Line)
  | bool (b : Bool)
  | integer (n : Int)
  | float (digits : Line)
  | moment (digits : Line)
  | array (items : List Node)
  | table (origin : Origin) (entries : List (Key × Node))
  /-- Tables under a repeated header, the newest last. -/
  | tables (all : List (List (Key × Node)))

abbrev Entries := List (Key × Node)

namespace Entries

def get? (entries : Entries) (key : Key) : Option Node := entries.lookup key

def set : Entries → Key → Node → Entries
  | [], key, node => [(key, node)]
  | (k, n) :: rest, key, node => if k = key then (k, node) :: rest else (k, n) :: set rest key node

def updateLast (f : Entries → Option Entries) : List Entries → Option (List Entries)
  | [] => none
  | [entries] => (f entries).map fun e => [e]
  | entries :: rest => (updateLast f rest).map fun r => entries :: r

/-- Adds a value under a dotted key. The tables on the way must not have been opened by a
header or braces, and the last of them must be one of dotted keys. -/
def addDotted : List Key → Key → Node → Entries → Option Entries
  | [], key, node, entries =>
      match entries.get? key with
      | none => some (entries.set key node)
      | some _ => none
  | step :: path, key, node, entries =>
      match entries.get? step with
      | none => (addDotted path key node []).map fun e => entries.set step (.table .dotted e)
      | some (.table origin inner) =>
          if origin = .dotted ∨ (origin = .passing ∧ path ≠ []) then
            (addDotted path key node inner).map fun e => entries.set step (.table origin e)
          else none
      | some (.tables all) =>
          if path = [] then none
          else (updateLast (addDotted path key node) all).map fun a => entries.set step (.tables a)
      | some _ => none

def atPath (f : Entries → Option Entries) : List Key → Entries → Option Entries
  | [], entries => f entries
  | step :: path, entries =>
      match entries.get? step with
      | none => (atPath f path []).map fun e => entries.set step (.table .passing e)
      | some (.table .inline _) => none
      | some (.table origin inner) =>
          (atPath f path inner).map fun e => entries.set step (.table origin e)
      | some (.tables all) =>
          (updateLast (atPath f path) all).map fun a => entries.set step (.tables a)
      | some _ => none

def openTable (key : Key) (entries : Entries) : Option Entries :=
  match entries.get? key with
  | none => some (entries.set key (.table .header []))
  | some (.table .passing inner) => some (entries.set key (.table .header inner))
  | some _ => none

def openRepeated (key : Key) (entries : Entries) : Option Entries :=
  match entries.get? key with
  | none => some (entries.set key (.tables [[]]))
  | some (.tables all) => some (entries.set key (.tables (all ++ [[]])))
  | some _ => none

end Entries

inductive Statement where
  | assign (path : List Key) (key : Key) (node : Node)
  | table (path : List Key) (key : Key)
  | repeated (path : List Key) (key : Key)

structure Assembly where
  root : Entries
  current : List Key

namespace Assembly

def step (a : Assembly) : Statement → Option Assembly
  | .assign path key node =>
      (Entries.atPath (Entries.addDotted path key node) a.current a.root).map fun r =>
        ⟨r, a.current⟩
  | .table path key =>
      (Entries.atPath (Entries.openTable key) path a.root).map fun r => ⟨r, path ++ [key]⟩
  | .repeated path key =>
      (Entries.atPath (Entries.openRepeated key) path a.root).map fun r => ⟨r, path ++ [key]⟩

def run (statements : List Statement) : Option Entries :=
  (statements.foldlM step ⟨[], []⟩).map Assembly.root

end Assembly

end JvsSharp.Toml
