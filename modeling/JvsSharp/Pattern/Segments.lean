import JvsSharp.Pattern.Edit
import JvsSharp.Pattern.Ends

/-!
# Cutting a line loses nothing

The segments of a line, put together again, are the line.
-/

set_option autoImplicit false

namespace JvsSharp

def Segment.text : Segment → Line
  | .plain c => [c]
  | .hit h => h.text

namespace Pattern

theorem segmentsFrom_text (p : Pattern) (before : Option Char) (skip : Nat) (line : Line) :
    (p.segmentsFrom before skip line).flatMap Segment.text = line.drop skip := by
  induction line generalizing before skip with
  | nil => simp [segmentsFrom]
  | cons c rest ih =>
    cases skip with
    | succ skip => rw [segmentsFrom, ih, List.drop_succ_cons]
    | zero =>
      rw [segmentsFrom]
      split
      · simp [Segment.text, ih]
      · next h hm =>
        have ht := matchAt_text p _ h hm
        split
        · simp [Segment.text, ih]
        · next x more hx =>
          rw [hx, List.cons_append, List.cons.injEq] at ht
          rw [List.flatMap_cons, ih, Segment.text, hx, ← ht.2, List.drop_left, ht.1]
          rfl

theorem segments_text (p : Pattern) (line : Line) :
    (p.segments line).flatMap Segment.text = line := segmentsFrom_text p none 0 line

end Pattern

end JvsSharp
