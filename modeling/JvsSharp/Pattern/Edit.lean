import JvsSharp.Pattern.Match

/-!
# Editing a line by its matches

A line is cut into the matches of a pattern, leftmost first and without
overlap, and the characters between them. Replacement maps the matches and
keeps the rest; replaced text is not looked at again.
-/

set_option autoImplicit false

namespace JvsSharp

inductive Segment where
  | plain (c : Char)
  | hit (h : Hit)

namespace Pattern

/-- Cuts the text after `skip` characters that belong to an earlier match. An empty match
is no match. -/
def segmentsFrom (p : Pattern) : Option Char → Nat → Line → List Segment
  | _, _, [] => []
  | _, skip + 1, c :: rest => segmentsFrom p (some c) skip rest
  | before, 0, c :: rest =>
      match p.matchAt ⟨before, c :: rest⟩ with
      | none => .plain c :: segmentsFrom p (some c) 0 rest
      | some h =>
          match h.text with
          | [] => .plain c :: segmentsFrom p (some c) 0 rest
          | _ :: more => .hit h :: segmentsFrom p (some c) more.length rest

def segments (p : Pattern) (line : Line) : List Segment := p.segmentsFrom none 0 line

def hits (p : Pattern) (line : Line) : List Hit :=
  (p.segments line).filterMap fun
    | .plain _ => none
    | .hit h => some h

def replaceAll (p : Pattern) (f : Hit → Line) (line : Line) : Line :=
  (p.segments line).flatMap fun
    | .plain c => [c]
    | .hit h => f h

def searchFrom (p : Pattern) : Option Char → Line → Option (Line × Hit)
  | before, [] => (p.matchAt ⟨before, []⟩).map fun h => ([], h)
  | before, c :: rest =>
      match p.matchAt ⟨before, c :: rest⟩ with
      | some h => some ([], h)
      | none => (searchFrom p (some c) rest).map fun (skipped, h) => (c :: skipped, h)

def search (p : Pattern) (line : Line) : Option (Line × Hit) := p.searchFrom none line

def occursIn (p : Pattern) (line : Line) : Bool := (p.search line).isSome

def replaceFirst (p : Pattern) (f : Hit → Line) (line : Line) : Line :=
  match p.search line with
  | some (skipped, h) => skipped ++ f h ++ h.after
  | none => line

/-- Replaces from left to right the matches that no blocked character precedes. A match
that is refused may hide an allowed one that starts inside it, so the search goes on at
its second character. Every round moves on by a character, so the length of the text
bounds the number of rounds. -/
def replaceUnlessAfterFrom (p : Pattern) (blocked : Char → Bool) (f : Hit → Line) :
    Nat → Option Char → Line → Line
  | 0, _, line => line
  | n + 1, before, line =>
      match p.searchFrom before line with
      | none => line
      | some (skipped, h) =>
          if h.before.any blocked || h.text.isEmpty then
            match h.text ++ h.after with
            | [] => skipped
            | c :: rest =>
                skipped ++ c :: replaceUnlessAfterFrom p blocked f n (some c) rest
          else
            skipped ++ f h ++ replaceUnlessAfterFrom p blocked f n h.text.getLast? h.after

def replaceUnlessAfter (p : Pattern) (blocked : Char → Bool) (f : Hit → Line) (line : Line) :
    Line :=
  p.replaceUnlessAfterFrom blocked f (line.length + 1) none line

end Pattern

inductive Part where
  | text (cs : Line)
  | group (i : Nat)
  | mapped (f : Line → Line) (i : Nat)

instance : Coe String Part := ⟨fun s => .text s.toList⟩

instance (i : Nat) : OfNat Part i := ⟨.group i⟩

def Part.render (h : Hit) : Part → Line
  | .text cs => cs
  | .group i => h.group i
  | .mapped f i => f (h.group i)

structure Edit where
  pattern : Pattern
  template : List Part

namespace Edit

def render (e : Edit) (h : Hit) : Line := e.template.flatMap (Part.render h)

def apply (e : Edit) (line : Line) : Line := e.pattern.replaceAll e.render line

def applyAll (es : List Edit) (line : Line) : Line := es.foldl (fun line e => e.apply line) line

end Edit

end JvsSharp
