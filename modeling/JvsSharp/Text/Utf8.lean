/-!
# UTF-8

A decoder state says which bytes may come next. A byte that may not come ends
the sequence read so far, which counts as one ill-formed piece, and is then
read afresh as a first byte.
-/

set_option autoImplicit false

namespace JvsSharp.Utf8

inductive State where
  | ground
  /-- `left` bytes are missing, the next of them between `low` and `high`; `value` holds
  the bits read so far. -/
  | inside (left : Nat) (low high : Nat) (value : Nat)
  deriving DecidableEq, Repr

abbrev Output := List (Option Char)

def first (b : Nat) : Output × State :=
  if b < 0x80 then ([some (Char.ofNat b)], .ground)
  else if b < 0xC2 then ([none], .ground)
  else if b < 0xE0 then ([], .inside 1 0x80 0xBF (b - 0xC0))
  else if b = 0xE0 then ([], .inside 2 0xA0 0xBF (b - 0xE0))
  else if b = 0xED then ([], .inside 2 0x80 0x9F (b - 0xE0))
  else if b < 0xF0 then ([], .inside 2 0x80 0xBF (b - 0xE0))
  else if b = 0xF0 then ([], .inside 3 0x90 0xBF (b - 0xF0))
  else if b < 0xF4 then ([], .inside 3 0x80 0xBF (b - 0xF0))
  else if b = 0xF4 then ([], .inside 3 0x80 0x8F (b - 0xF0))
  else ([none], .ground)

def step : State → Nat → Output × State
  | .ground, b => first b
  | .inside left low high value, b =>
      if low ≤ b ∧ b ≤ high then
        if left ≤ 1 then ([some (Char.ofNat (value * 0x40 + (b - 0x80)))], .ground)
        else ([], .inside (left - 1) 0x80 0xBF (value * 0x40 + (b - 0x80)))
      else (none :: (first b).1, (first b).2)

def decodeFrom : State → List UInt8 → Output
  | .ground, [] => []
  | .inside .., [] => [none]
  | s, b :: bs => (step s b.toNat).1 ++ decodeFrom (step s b.toNat).2 bs

def decode (bytes : List UInt8) : Output := decodeFrom .ground bytes

def decodeLossy (bytes : List UInt8) : List Char := (decode bytes).map (·.getD '\uFFFD')

def decode? (bytes : List UInt8) : Option (List Char) := (decode bytes).mapM id

def encode (text : List Char) : List UInt8 := text.flatMap String.utf8EncodeChar

end JvsSharp.Utf8
