import JvsSharp.Pattern.Basic

/-!
# Outer white space
-/

set_option autoImplicit false

namespace JvsSharp.Text

def trimStart (line : Line) : Line := line.dropWhile Unicode.isBlank

def trimEnd (line : Line) : Line := (trimStart line.reverse).reverse

def trim (line : Line) : Line := trimEnd (trimStart line)

def isBlankLine (line : Line) : Bool := line.all Unicode.isBlank

end JvsSharp.Text
