import JvsSharp.Toml.Reader

/-!
# Quoted texts

Texts are written between double quotes with escapes or between single quotes
without; three quotes of a kind allow line breaks and up to two of these
quotes in a row.
-/

set_option autoImplicit false

namespace JvsSharp.Toml
open Reader

def hexValue (c : Char) : Option Nat :=
  if c.isDigit then some (c.toNat - '0'.toNat)
  else if 'a' ≤ c ∧ c ≤ 'f' then some (c.toNat - 'a'.toNat + 10)
  else if 'A' ≤ c ∧ c ≤ 'F' then some (c.toNat - 'A'.toNat + 10)
  else none

def codePoint (n : Nat) : Reader Char := fun text =>
  match (text.take n).mapM hexValue with
  | none => none
  | some ds =>
      let value := ds.foldl (fun v d => v * 16 + d) 0
      if ds.length = n ∧ value.isValidChar then some (Char.ofNat value, text.drop n) else none

def escape : Reader Char := do
  token "\\"
  let c ← char fun _ => true
  match c with
  | 'b' => pure '\x08'
  | 't' => pure '\t'
  | 'n' => pure '\n'
  | 'f' => pure '\x0c'
  | 'r' => pure '\r'
  | '"' => pure '"'
  | '\\' => pure '\\'
  | 'u' => codePoint 4
  | 'U' => codePoint 8
  | _ => failure

def plainChar : Reader Char := char fun c => !isControl c && c != '"' && c != '\\'

def literalChar : Reader Char := char fun c => !isControl c && c != '\''

def shortText : Reader Line := do
  token "\""
  let s ← many (escape <|> plainChar)
  token "\""
  pure s

def shortLiteral : Reader Line := do
  token "'"
  let s ← many literalChar
  token "'"
  pure s

def innerQuotes (quote : Char) : Reader Line := fun text =>
  let n := (text.takeWhile (· == quote)).length
  if n = 1 ∨ n = 2 then some (text.take n, text.drop n) else none

/-- Three quotes, before which up to two more belong to the text. -/
def closingQuotes (quote : Char) : Reader Line := fun text =>
  let n := (text.takeWhile (· == quote)).length
  let inner := min (n - 3) 2
  if 3 ≤ n then some (text.take inner, text.drop (inner + 3)) else none

def single (r : Reader Char) : Reader Line := do
  let c ← r
  pure [c]

def lineBreak : Reader Line := do
  newline
  pure ['\n']

def joinedLine : Reader Line := do
  token "\\"
  blanks
  newline
  let _ ← many ((do
    let _ ← blank
    pure ()) <|> newline)
  pure []

def longBody (quote : Char) (piece : Reader Line) : Reader Line := do
  let _ ← optional newline
  let pieces ← many (piece <|> innerQuotes quote)
  let tail ← closingQuotes quote
  pure (pieces.flatten ++ tail)

def longText : Reader Line := do
  token "\"\"\""
  longBody '"' (joinedLine <|> single escape <|> lineBreak <|> single plainChar)

def longLiteral : Reader Line := do
  token "'''"
  longBody '\'' (lineBreak <|> single literalChar)

def text : Reader Line := longText <|> shortText <|> longLiteral <|> shortLiteral

end JvsSharp.Toml
