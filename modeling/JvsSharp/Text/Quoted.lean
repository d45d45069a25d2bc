import JvsSharp.Pattern.Basic
import JvsSharp.Unicode.Printable

/-!
# Quoted text

A quoted text shows every character: quotes, backslashes and the common
controls have short escapes, all that would not be seen is written as the
hexadecimal number of its code point.
-/

set_option autoImplicit false

namespace JvsSharp.Text

def hexDigits (n : Nat) : Line := Nat.toDigits 16 n

def quotedChar (c : Char) : Line :=
  if c == '\x00' then "\\0".toList
  else if c == '\t' then "\\t".toList
  else if c == '\n' then "\\n".toList
  else if c == '\r' then "\\r".toList
  else if c == '"' then "\\\"".toList
  else if c == '\\' then "\\\\".toList
  else if Unicode.isVisible c then [c]
  else "\\u\x7b".toList ++ hexDigits c.toNat ++ ['\x7d']

def quoted (line : Line) : Line := '"' :: (line.flatMap quotedChar ++ ['"'])

def quotedList (lines : List Line) : Line :=
  '[' :: (", ".toList.intercalate (lines.map quoted) ++ [']'])

end JvsSharp.Text
