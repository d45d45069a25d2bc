import JvsSharp.Text.Split
import JvsSharp.Unicode.Case

/-!
# Casing of identifiers

Underscores separate the segments of an identifier and are always kept, so
`foo_bar` becomes `Foo_Bar`. The first character counts as the initial of the
first segment whatever it is; a leading underscore therefore shields the
letter behind it.
-/

set_option autoImplicit false

namespace JvsSharp.Casing

/-- Upper case for each word character behind an underscore. An underscore that follows
an underscore is such a character itself and uses up the pair. -/
def pascalRest : Line → Line
  | [] => []
  | [c] => [c]
  | c :: d :: rest =>
      if c == '_' && Unicode.isWord d then '_' :: (Unicode.upper d ++ pascalRest rest)
      else c :: pascalRest (d :: rest)

def pascal : Line → Line
  | [] => []
  | c :: rest => (if Unicode.isWord c then Unicode.upper c else [c]) ++ pascalRest rest

def capitalizeFirst : Line → Line
  | [] => []
  | c :: rest => Unicode.upper c ++ rest

def pascalPath (path : Line) : Line := Text.join '.' ((Text.split '.' path).map pascal)

end JvsSharp.Casing
