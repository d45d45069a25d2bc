import JvsSharp.Text.Quoted

/-!
# Text that is safe to show

A message may hold a path, and a path may hold characters that a terminal
obeys instead of showing them. Those are written as escapes; tabs, line ends
and the other controls stay.
-/

set_option autoImplicit false

namespace JvsSharp.Text

def steersTerminal (c : Char) : Bool := [0x1B, 0x7, 0x8, 0xC, 0x7F].contains c.toNat

def isHighControl (c : Char) : Bool := 0x80 ≤ c.toNat && c.toNat ≤ 0x9F

def shownChar (c : Char) : Line :=
  if steersTerminal c then
    "\\x".toList ++ (if c.toNat < 16 then ['0'] else []) ++ hexDigits c.toNat
  else if isHighControl c then "\\u\x7b".toList ++ hexDigits c.toNat ++ ['\x7d']
  else [c]

def shown (line : Line) : Line := line.flatMap shownChar

end JvsSharp.Text
