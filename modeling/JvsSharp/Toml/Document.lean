import JvsSharp.Toml.Scalar

/-!
# Settings documents

A document is a list of statements, one a line, which are then assembled into
one table.
-/

set_option autoImplicit false

namespace JvsSharp.Toml
open Reader

def depthLimit : Nat := 80

def bareKey : Reader Key := do
  let first ← char isBare
  let rest ← many (char isBare)
  pure (first :: rest)
where
  isBare (c : Char) : Bool := c.isAlphanum || c == '-' || c == '_'

def key : Reader (List Key × Key) := do
  let steps ← separated (do
    blanks
    let step ← bareKey <|> shortText <|> shortLiteral
    blanks
    pure step) (token ".")
  require (steps.length < depthLimit)
  match steps.getLast? with
  | some last => pure (steps.dropLast, last)
  | none => failure

def binding (value : Reader Node) : Reader (List Key × Key × Node) := do
  let (path, last) ← key
  token "="
  blanks
  let node ← value
  pure (path, last, node)

def array (value : Reader Node) : Reader Node := do
  token "["
  let items ← optional (do
    let items ← separated (do
      padding
      let item ← value
      padding
      pure item) (token ",")
    let _ ← optional (token ",")
    pure items)
  padding
  token "]"
  pure (.array (items.getD []))

def inlineTable (value : Reader Node) : Reader Node := do
  token "\x7b"
  let bindings ← optional (separated (do
    let b ← binding value
    blanks
    pure b) (token ","))
  blanks
  token "\x7d"
  match (bindings.getD []).foldlM (fun e (path, last, node) => Entries.addDotted path last node e)
      [] with
  | some entries => pure (.table .inline entries)
  | none => failure

def value : Nat → Reader Node
  | 0 => scalar
  | depth + 1 => scalar <|> array (value depth) <|> inlineTable (value depth)

def header : Reader Statement := do
  token "["
  let (path, last) ← key
  token "]"
  lineEnd
  pure (.table path last)

def repeatedHeader : Reader Statement := do
  token "[["
  let (path, last) ← key
  token "]]"
  lineEnd
  pure (.repeated path last)

def assignment : Reader Statement := do
  let (path, last, node) ← binding (value (depthLimit - 1))
  lineEnd
  pure (.assign path last node)

def emptyLine : Reader (Option Statement) := do
  let _ ← optional comment
  newline
  pure none

def line : Reader (Option Statement) := do
  blanks
  emptyLine <|> (do
    let s ← repeatedHeader <|> header <|> assignment
    pure (some s))

def document : Reader (List Statement) := do
  let _ ← optional (exactly '\uFEFF')
  let lines ← many line
  blanks
  let _ ← optional comment
  atEnd
  pure (lines.filterMap id)

def parse? (text : Line) : Option Entries := do
  let (statements, _) ← document text
  Assembly.run statements

end JvsSharp.Toml
