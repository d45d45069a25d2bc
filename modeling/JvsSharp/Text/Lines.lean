import JvsSharp.Pattern.Basic

/-!
# Lines of a text

A line ends at a newline, with one carriage return before it counted as part
of the ending. Any other carriage return belongs to its line, and an ending at
the very end of the text opens no further line.
-/

set_option autoImplicit false

namespace JvsSharp.Text

def consFirst (c : Char) : List Line → List Line
  | [] => [[c]]
  | line :: lines => (c :: line) :: lines

def lines : List Char → List Line
  | [] => []
  | '\n' :: rest => [] :: lines rest
  | '\r' :: '\n' :: rest => [] :: lines rest
  | c :: rest => consFirst c (lines rest)

def unlines (ls : List Line) : List Char := ls.flatMap fun line => line ++ ['\n']

end JvsSharp.Text
