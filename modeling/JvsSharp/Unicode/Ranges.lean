/-!
# Sets of code points

A set is a list of closed intervals in increasing order, so a search may stop
at the first interval that starts beyond the code point.
-/

set_option autoImplicit false

namespace JvsSharp.Unicode

abbrev Ranges := List (Nat × Nat)

def Ranges.mem : Ranges → Nat → Bool
  | [], _ => false
  | (first, last) :: rest, n =>
      if n < first then false else if n ≤ last then true else Ranges.mem rest n

end JvsSharp.Unicode
