import JvsSharp.Pattern.Basic

/-!
# Matching a pattern at a place in a line

The matcher tries the ways of a pattern in its order of preference and hands
each place it reaches to a continuation; the first way that the continuation
accepts is the answer. A place keeps the character before it, because word
edges depend on both sides.
-/

set_option autoImplicit false

namespace JvsSharp

structure Place where
  before : Option Char
  rest : Line
  deriving DecidableEq, Repr

namespace Place

def skip? : List Char → Place → Option Place
  | [], p => some p
  | c :: cs, ⟨_, x :: rest⟩ => if x = c then skip? cs ⟨some x, rest⟩ else none
  | _ :: _, ⟨_, []⟩ => none

def skipWhile (k : CharClass) : Option Char → Line → Place
  | before, [] => ⟨before, []⟩
  | before, x :: rest => if k.mem x then skipWhile k (some x) rest else ⟨before, x :: rest⟩

def atEdge (p : Place) : Bool := p.before.any Unicode.isWord != p.rest.head?.any Unicode.isWord

end Place

/-- The text of a group runs from the first tail of the line to the second. -/
structure Mark where
  group : Nat
  first : Line
  last : Line

def textBetween (first last : Line) : Line := first.take (first.length - last.length)

def Mark.text (m : Mark) : Line := textBetween m.first m.last

namespace Pattern

variable {α : Type}

def runK (k : CharClass) (f : Place → Option α) : Option Char → Line → Option α
  | b, [] => f ⟨b, []⟩
  | b, x :: rest =>
      if k.mem x then (runK k f (some x) rest).or (f ⟨b, x :: rest⟩) else f ⟨b, x :: rest⟩

def fewestK (k : CharClass) (f : Place → Option α) : Option Char → Line → Option α
  | b, [] => f ⟨b, []⟩
  | b, x :: rest =>
      (f ⟨b, x :: rest⟩).or (if k.mem x then fewestK k f (some x) rest else none)

def starK (step : Place → List Mark → (Place → List Mark → Option α) → Option α)
    (f : Place → List Mark → Option α) : Nat → Place → List Mark → Option α
  | 0, c, m => f c m
  | n + 1, c, m => (step c m fun c' m' => starK step f n c' m').or (f c m)

def matchK : Pattern → Place → List Mark → (Place → List Mark → Option α) → Option α
  | .empty, c, m, f => f c m
  | .text cs, c, m, f => (c.skip? cs).bind fun c' => f c' m
  | .one k, c, m, f =>
      match c.rest with
      | [] => none
      | x :: rest => if k.mem x then f ⟨some x, rest⟩ m else none
  | .span k, c, m, f => f (Place.skipWhile k c.before c.rest) m
  | .run k, c, m, f => runK k (fun c' => f c' m) c.before c.rest
  | .fewest k, c, m, f => fewestK k (fun c' => f c' m) c.before c.rest
  | .edge, c, m, f => if c.atEdge then f c m else none
  | .start, c, m, f => if c.before.isNone then f c m else none
  | .seq p q, c, m, f => matchK p c m fun c' m' => matchK q c' m' f
  | .alt p q, c, m, f => (matchK p c m f).or (matchK q c m f)
  | .star p, c, m, f => starK (fun c m f => matchK p c m f) f c.rest.length c m
  | .group i p, c, m, f => matchK p c m fun c' m' => f c' (⟨i, c.rest, c'.rest⟩ :: m')

end Pattern

structure Hit where
  before : Option Char
  text : Line
  marks : List Mark
  after : Line

def Hit.group (h : Hit) (i : Nat) : Line :=
  match h.marks.find? fun m => m.group == i with
  | some m => m.text
  | none => []

def Pattern.matchAt (p : Pattern) (c : Place) : Option Hit :=
  p.matchK c [] fun c' m => some ⟨c.before, textBetween c.rest c'.rest, m, c'.rest⟩

end JvsSharp
