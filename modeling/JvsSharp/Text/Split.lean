import JvsSharp.Pattern.Basic

/-!
# Splitting at a separator
-/

set_option autoImplicit false

namespace JvsSharp.Text

def split (separator : Char) : Line → List Line
  | [] => [[]]
  | c :: rest =>
      if c == separator then [] :: split separator rest
      else
        match split separator rest with
        | [] => [[c]]
        | piece :: pieces => (c :: piece) :: pieces

def join (separator : Char) (pieces : List Line) : Line := [separator].intercalate pieces

end JvsSharp.Text
