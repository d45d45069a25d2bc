import JvsSharp.Unicode.Word
import JvsSharp.Unicode.Blank

/-!
# Patterns

A pattern describes pieces of a line by sequence, ordered choice and
repetition over classes of characters. It is plain data: what it matches is
defined by the matcher, and the conversion rules are tables of patterns.
-/

set_option autoImplicit false

namespace JvsSharp

abbrev Line := List Char

inductive CharClass where
  | only (c : Char)
  /-- The letter `c` in either case, with the two signs that fold to an ASCII letter:
  the long s and the Kelvin sign. -/
  | eitherCase (c : Char)
  | word
  | blank
  | lower
  | upper
  | digit
  | inLine
  | oneOf (cs : List Char)
  | except (cs : List Char)
  | union (a b : CharClass)
  deriving DecidableEq, Repr

namespace CharClass

def mem : CharClass → Char → Bool
  | .only c, x => x == c
  | .eitherCase c, x =>
      x.toLower == c.toLower || (c.toLower == 's' && x == 'ſ') ||
        (c.toLower == 'k' && x.toNat == 0x212A)
  | .word, x => Unicode.isWord x
  | .blank, x => Unicode.isBlank x
  | .lower, x => x.isLower
  | .upper, x => x.isUpper
  | .digit, x => x.isDigit
  | .inLine, x => x != '\n'
  | .oneOf cs, x => cs.contains x
  | .except cs, x => !cs.contains x
  | .union a b, x => a.mem x || b.mem x

end CharClass

inductive Pattern where
  | empty
  | text (cs : List Char)
  | one (k : CharClass)
  /-- All characters of the class that follow; none is given back. -/
  | span (k : CharClass)
  /-- As many characters of the class as possible, giving back one at a time. -/
  | run (k : CharClass)
  /-- As few characters of the class as possible, taking one more at a time. -/
  | fewest (k : CharClass)
  | edge
  | start
  | seq (p q : Pattern)
  /-- The second choice is tried only after every way of the first. -/
  | alt (p q : Pattern)
  /-- As many repetitions as possible, at most one for each character that is left. -/
  | star (p : Pattern)
  /-- What `p` matched can be read from the hit under the number `i`. -/
  | group (i : Nat) (p : Pattern)
  deriving DecidableEq, Repr

namespace Pattern

def lit (s : String) : Pattern := .text s.toList

instance : Coe String Pattern := ⟨lit⟩

def all (ps : List Pattern) : Pattern := ps.foldr .seq .empty

def anyOf : List Pattern → Pattern
  | [] => .one (.oneOf [])
  | [p] => p
  | p :: ps => .alt p (anyOf ps)

def anyCase (s : String) : Pattern := all (s.toList.map fun c => .one (.eitherCase c))

def chars (k : CharClass) : Pattern := .seq (.one k) (.span k)

def stretch (k : CharClass) : Pattern := .seq (.one k) (.run k)

def opt (p : Pattern) : Pattern := .alt p .empty

def gap : Pattern := .span .blank

def slack : Pattern := .run .blank

def space : Pattern := chars .blank

def word : Pattern := chars .word

def wholeWord (p : Pattern) : Pattern := all [.edge, p, .edge]

end Pattern

end JvsSharp
