import JvsSharp.Toml.Node
import JvsSharp.Toml.Text

/-!
# Numbers, dates and truth values

Digits may be grouped by single underscores. Integers have 64 bits, a float
must not round to positive infinity, and dates exist in the calendar.
-/

set_option autoImplicit false

namespace JvsSharp.Toml
open Reader

def digits (p : Char → Bool) : Reader Line := do
  let first ← char p
  let rest ← many (char p <|> (do
    token "_"
    char p))
  pure (first :: rest)

def sign : Reader Bool :=
  (do
    token "-"
    pure true) <|> (do
    token "+"
    pure false) <|> pure false

def wholeDigits : Reader Line :=
  (do
    let first ← char fun c => c.isDigit && c != '0'
    let rest ← many (char Char.isDigit <|> (do
      token "_"
      char Char.isDigit))
    pure (first :: rest)) <|> single (char Char.isDigit)

def number (base : Nat) (ds : Line) : Nat :=
  ds.foldl (fun v d => v * base + (hexValue d).getD 0) 0

def integerLimit : Nat := 0x8000000000000000

def decimalInteger : Reader Node := do
  let negative ← sign
  let n := number 10 (← wholeDigits)
  require (n < integerLimit || (negative && n == integerLimit))
  pure (.integer (if negative then -(n : Int) else n))

def basedInteger (start : String) (base : Nat) : Reader Node := do
  token start
  let n := number base (← digits fun c => (hexValue c).any (· < base))
  require (n < integerLimit)
  pure (.integer n)

def integer : Reader Node :=
  basedInteger "0x" 16 <|> basedInteger "0o" 8 <|> basedInteger "0b" 2 <|> decimalInteger

/-- Whether `mantissa · 10 ^ exponent` rounds to infinity as a double, which starts half a
unit above the largest of them. -/
def overflows (mantissa : Nat) (exponent : Int) : Bool :=
  let size := (Nat.toDigits 10 mantissa).length + exponent
  if mantissa = 0 ∨ size < 300 then false
  else if 320 < size then true
  else
    decide ((Nat.pow 2 1024 - Nat.pow 2 970) * Nat.pow 10 (-exponent).toNat ≤
      mantissa * Nat.pow 10 exponent.toNat)

def exponent : Reader Int := do
  let _ ← char fun c => c == 'e' || c == 'E'
  let negative ← sign
  let n := number 10 (← digits Char.isDigit)
  pure (if negative then -(n : Int) else n)

def fraction : Reader Line := do
  token "."
  digits Char.isDigit

def finiteFloat : Reader Unit := do
  let negative ← sign
  let whole ← wholeDigits
  let part ← optional fraction
  let power ← optional exponent
  require (part.isSome || power.isSome)
  let places := part.getD []
  require (negative || !overflows (number 10 (whole ++ places)) (power.getD 0 - places.length))

def namedFloat : Reader Unit := do
  let _ ← sign
  token "inf" <|> token "nan"

def float : Reader Node := do
  let ds ← taken (finiteFloat <|> namedFloat)
  pure (.float ds)

def field (n low high : Nat) : Reader Nat := fun text =>
  let ds := text.take n
  let value := number 10 ds
  if ds.length = n ∧ ds.all Char.isDigit ∧ low ≤ value ∧ value ≤ high then
    some (value, text.drop n)
  else none

def isLeapYear (year : Nat) : Bool := year % 4 == 0 && (year % 100 != 0 || year % 400 == 0)

def daysIn (year month : Nat) : Nat :=
  if month = 2 then (if isLeapYear year then 29 else 28)
  else if month = 4 ∨ month = 6 ∨ month = 9 ∨ month = 11 then 30
  else 31

def date : Reader Unit := do
  let year ← field 4 0 9999
  token "-"
  let month ← field 2 1 12
  token "-"
  let day ← field 2 1 31
  require (day ≤ daysIn year month)

def time : Reader Unit := do
  let _ ← field 2 0 23
  token ":"
  let _ ← field 2 0 59
  token ":"
  let _ ← field 2 0 60
  let _ ← optional (do
    token "."
    let _ ← char Char.isDigit
    many (char Char.isDigit))
  pure ()

def offset : Reader Unit :=
  token "Z" <|> token "z" <|> (do
    let _ ← char fun c => c == '+' || c == '-'
    let _ ← field 2 0 23
    token ":"
    let _ ← field 2 0 59
    pure ())

def dateAndTime : Reader Unit := do
  date
  let _ ← optional (do
    let _ ← char fun c => c == 'T' || c == 't' || c == ' '
    time
    optional offset)
  pure ()

def moment : Reader Node := do
  let ds ← taken (dateAndTime <|> time)
  pure (.moment ds)

def truth : Reader Node :=
  (do
    token "true"
    pure (.bool true)) <|> (do
    token "false"
    pure (.bool false))

def scalar : Reader Node :=
  (do
    let s ← text
    pure (.text s)) <|> truth <|> moment <|> float <|> integer

end JvsSharp.Toml
