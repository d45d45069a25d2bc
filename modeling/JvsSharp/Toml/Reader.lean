import JvsSharp.Pattern.Match

/-!
# Reading from the front of a text

A reader takes a value from the front of a text or refuses; a refused
alternative leaves the text as it was.
-/

set_option autoImplicit false

namespace JvsSharp.Toml

abbrev Reader (α : Type) := StateT (List Char) Option α

namespace Reader

variable {α β : Type}

def char (p : Char → Bool) : Reader Char := fun text =>
  match text with
  | [] => none
  | c :: rest => if p c then some (c, rest) else none

def exactly (c : Char) : Reader Char := char (· == c)

def token (s : String) : Reader Unit := fun text =>
  if s.toList.isPrefixOf text then some ((), text.drop s.length) else none

def atEnd : Reader Unit := fun text => if text.isEmpty then some ((), text) else none

def repeatUpTo (r : Reader α) : Nat → Reader (List α)
  | 0 => pure []
  | n + 1 =>
      (do
        let a ← r
        let rest ← repeatUpTo r n
        pure (a :: rest)) <|> pure []

/-- As often as possible. A reader that takes something each time cannot succeed more
often than the text is long. -/
def many (r : Reader α) : Reader (List α) := fun text => repeatUpTo r text.length text

def separated (r : Reader α) (separator : Reader β) : Reader (List α) := do
  let first ← r
  let rest ← many (do
    let _ ← separator
    r)
  pure (first :: rest)

def require (b : Bool) : Reader Unit := if b then pure () else failure

def taken (r : Reader α) : Reader Line := fun text =>
  (r text).map fun (_, rest) => (textBetween text rest, rest)

end Reader

/-! ## Blanks, comments and line ends -/

open Reader

def isControl (c : Char) : Bool := (c.toNat < 0x20 && c != '\t') || c.toNat == 0x7F

def blank : Reader Char := char fun c => c == ' ' || c == '\t'

def blanks : Reader Unit := do
  let _ ← many blank
  pure ()

def newline : Reader Unit := token "\n" <|> token "\r\n"

def comment : Reader Unit := do
  token "#"
  let _ ← many (char fun c => !isControl c)
  pure ()

def lineEnd : Reader Unit := do
  blanks
  let _ ← optional comment
  newline <|> atEnd

def padding : Reader Unit := do
  let _ ← many ((do
    let _ ← blank
    pure ()) <|> (do
    let _ ← optional comment
    newline))
  pure ()

end JvsSharp.Toml
