import JvsSharp.Proofs.GuardedPass
import JvsSharp.Text.Utf8

/-!
# The guarded pass with two cursors

The guarded pass can be run over the bytes of a line with two cursors: up to
the first one the line has been written, and at the second one the search goes
on. A match that is taken moves both behind it. One that is refused moves the
second cursor only, over one character, so what lies between the cursors has
been searched and not yet been written. Both always stand between two
characters, and the loop does what the pass does round by round.
-/

set_option autoImplicit false

namespace JvsSharp

namespace Utf8

def byteLength (text : List Char) : Nat := (encode text).length

/-- The text before the byte `n` and the text from there on, if that byte does not stand within a
character or behind the end. -/
def cutAt? : Nat → List Char → Option (List Char × List Char)
  | 0, text => some ([], text)
  | _ + 1, [] => none
  | n + 1, c :: rest =>
      if c.utf8Size ≤ n + 1 then
        (cutAt? (n + 1 - c.utf8Size) rest).map fun (before, after) => (c :: before, after)
      else none

theorem byteLength_nil : byteLength [] = 0 := rfl

theorem byteLength_cons (c : Char) (text : List Char) :
    byteLength (c :: text) = c.utf8Size + byteLength text := by
  rw [byteLength, encode, List.flatMap_cons, List.length_append, String.length_utf8EncodeChar]
  rfl

theorem byteLength_append (xs ys : List Char) :
    byteLength (xs ++ ys) = byteLength xs + byteLength ys := by
  rw [byteLength, encode, List.flatMap_append, List.length_append]
  rfl

theorem byteLength_single (c : Char) : byteLength [c] = c.utf8Size := byteLength_cons c []

theorem cutAt?_append (xs ys : List Char) : cutAt? (byteLength xs) (xs ++ ys) = some (xs, ys) := by
  induction xs with
  | nil => rw [byteLength_nil, List.nil_append, cutAt?]
  | cons c xs ih =>
    have hpos := c.utf8Size_pos
    obtain ⟨n, hn⟩ : ∃ n, c.utf8Size + byteLength xs = n + 1 :=
      ⟨c.utf8Size + byteLength xs - 1, by omega⟩
    have hleft : n + 1 - c.utf8Size = byteLength xs := by omega
    rw [byteLength_cons, hn, List.cons_append, cutAt?, if_pos (by omega), hleft, ih]
    rfl

end Utf8

namespace Pattern
open Utf8

structure Cursors where
  out : Line
  /-- The byte up to which the line has been written. -/
  written : Nat
  /-- The byte at which the search goes on. -/
  next : Nat

inductive Round where
  | ends (result : Line)
  | goesOn (s : Cursors)

namespace Cursors

def start : Cursors := ⟨[], 0, 0⟩

def finish (line : Line) (s : Cursors) : Option Round :=
  (cutAt? s.written line).map fun (_, left) => .ends (s.out ++ left)

def replace (f : Hit → Line) (before : Line) (h : Hit) (written next : Nat) (s : Cursors) :
    Option Round :=
  (cutAt? s.written before).map fun (_, kept) => .goesOn ⟨s.out ++ kept ++ f h, written, next⟩

section
variable (p : Pattern) (blocked : Char → Bool) (f : Hit → Line) (line : Line)

/-- Takes or refuses a match that begins at the byte `first`, between `before` and `rest`. One that
is refused may hide one that is not, so the search goes on behind its first character. -/
def meet (before rest : Line) (h : Hit) (first : Nat) (s : Cursors) : Option Round :=
  let last := first + byteLength h.text
  let second := first + rest.head?.elim 1 Char.utf8Size
  if before.getLast?.any blocked then some (.goesOn ⟨s.out, s.written, second⟩)
  else if h.text.isEmpty then s.replace f before h last second
  else s.replace f before h last last

def round (s : Cursors) : Option Round :=
  if byteLength line < s.next then s.finish line
  else
    (cutAt? s.next line).bind fun (before, rest) =>
      match p.searchFrom before.getLast? rest with
      | none => s.finish line
      | some (skipped, h) =>
          let first := s.next + byteLength skipped
          (cutAt? first line).bind fun (before, rest) => s.meet blocked f before rest h first

inductive Ends : Nat → Cursors → Line → Prop
  | ends {n : Nat} {s : Cursors} {result : Line} :
      s.round p blocked f line = some (.ends result) → Ends (n + 1) s result
  | goesOn {n : Nat} {s s' : Cursors} {result : Line} :
      s.round p blocked f line = some (.goesOn s') → Ends n s' result → Ends (n + 1) s result

end

def reached (out done kept : Line) : Cursors := ⟨out, byteLength done, byteLength (done ++ kept)⟩

section
variable {p : Pattern} {blocked : Char → Bool} {f : Hit → Line} {line : Line}

theorem Ends.unique {n m : Nat} {s : Cursors} {result result' : Line}
    (h : Ends p blocked f line n s result) (h' : Ends p blocked f line m s result') :
    result = result' := by
  induction h generalizing m with
  | ends hround =>
    cases h' with
    | ends hround' =>
      rw [hround] at hround'
      cases hround'
      rfl
    | goesOn hround' _ => exact absurd (hround.symm.trans hround') (by simp)
  | goesOn hround _ ih =>
    cases h' with
    | ends hround' => exact absurd (hround.symm.trans hround') (by simp)
    | goesOn hround' hrest =>
      rw [hround] at hround'
      cases hround'
      exact ih hrest

section
variable (out done kept rest : Line)

theorem finish_reached : (reached out done kept).finish (done ++ (kept ++ rest)) =
    some (.ends (out ++ (kept ++ rest))) := by
  rw [finish, reached, cutAt?_append]
  rfl

theorem replace_reached (skipped : Line) (h : Hit) (written next : Nat) :
    (reached out done kept).replace f (done ++ (kept ++ skipped)) h written next =
      some (.goesOn ⟨out ++ (kept ++ skipped) ++ f h, written, next⟩) := by
  rw [replace, reached, cutAt?_append]
  rfl

theorem round_reached : (reached out done kept).round p blocked f (done ++ (kept ++ rest)) =
    match p.searchFrom (behind none (done ++ kept)) rest with
    | none => (reached out done kept).finish (done ++ (kept ++ rest))
    | some (skipped, h) =>
        let first := byteLength (done ++ kept) + byteLength skipped
        (cutAt? first (done ++ (kept ++ rest))).bind fun (before, rest) =>
          (reached out done kept).meet blocked f before rest h first := by
  have hwithin : ¬byteLength (done ++ (kept ++ rest)) < byteLength (done ++ kept) := by
    simp only [byteLength_append]
    omega
  have hcut : cutAt? (byteLength (done ++ kept)) (done ++ (kept ++ rest)) =
      some (done ++ kept, rest) := by
    rw [← List.append_assoc, cutAt?_append]
  have hnext : (reached out done kept).next = byteLength (done ++ kept) := rfl
  rw [round, hnext, if_neg hwithin, hcut, Option.bind_some, behind_eq_getLast?]

theorem round_ends (hs : p.searchFrom (behind none (done ++ kept)) rest = none) :
    (reached out done kept).round p blocked f (done ++ (kept ++ rest)) =
      some (.ends (out ++ (kept ++ rest))) := by
  rw [round_reached, hs, ← finish_reached]

theorem round_meets (skipped : Line) (h : Hit)
    (hs : p.searchFrom (behind none (done ++ kept)) rest = some (skipped, h)) :
    (reached out done kept).round p blocked f (done ++ (kept ++ rest)) =
      (reached out done kept).meet blocked f (done ++ (kept ++ skipped)) (h.text ++ h.after) h
        (byteLength (done ++ (kept ++ skipped))) := by
  have hfirst : byteLength (done ++ kept) + byteLength skipped =
      byteLength (done ++ (kept ++ skipped)) := by
    rw [← byteLength_append, List.append_assoc]
  have hcut : cutAt? (byteLength (done ++ (kept ++ skipped))) (done ++ (kept ++ rest)) =
      some (done ++ (kept ++ skipped), h.text ++ h.after) := by
    rw [(searchFrom_text _ rest skipped h hs).1, ← cutAt?_append, List.append_assoc,
      List.append_assoc]
  rw [round_reached, hs]
  simp only [hfirst, hcut, Option.bind_some]

theorem round_refuses (skipped : Line) (h : Hit) (c : Char) (more : Line)
    (hs : p.searchFrom (behind none (done ++ kept)) rest = some (skipped, h))
    (hblocked : (behind none (done ++ (kept ++ skipped))).any blocked = true)
    (htail : h.text ++ h.after = c :: more) :
    (reached out done kept).round p blocked f (done ++ (kept ++ rest)) =
      some (.goesOn (reached out done (kept ++ (skipped ++ [c])))) := by
  have hsecond : byteLength (done ++ (kept ++ skipped)) + c.utf8Size =
      byteLength (done ++ (kept ++ (skipped ++ [c]))) := by
    simp only [byteLength_append, byteLength_single]
    omega
  rw [behind_eq_getLast?] at hblocked
  rw [round_meets out done kept rest skipped h hs, meet, if_pos hblocked, htail]
  exact congrArg (fun next => some (Round.goesOn ⟨out, byteLength done, next⟩)) hsecond

theorem round_takes (skipped : Line) (h : Hit)
    (hs : p.searchFrom (behind none (done ++ kept)) rest = some (skipped, h)) (hne : h.text ≠ [])
    (hfree : (behind none (done ++ (kept ++ skipped))).any blocked = false) :
    (reached out done kept).round p blocked f (done ++ (kept ++ rest)) =
      some (.goesOn (reached (out ++ (kept ++ skipped) ++ f h)
        (done ++ (kept ++ (skipped ++ h.text))) [])) := by
  have hlast : byteLength (done ++ (kept ++ skipped)) + byteLength h.text =
      byteLength (done ++ (kept ++ (skipped ++ h.text))) := by
    simp only [byteLength_append]
    omega
  have hnot : ¬(behind none (done ++ (kept ++ skipped))).any blocked = true := by simp [hfree]
  rw [behind_eq_getLast?] at hnot
  rw [round_meets out done kept rest skipped h hs, meet, if_neg hnot,
    if_neg (by simpa using hne), replace_reached]
  simp only [hlast]
  rw [reached, List.append_nil]

end

/-- The loop does what the pass does, and needs no more rounds than characters are left and one
to end. -/
theorem ends_reached (hp : p.NeverEmpty) (n : Nat) (out done kept rest : Line)
    (hn : rest.length < n) :
    Ends p blocked f (done ++ (kept ++ rest)) n (reached out done kept)
      (out ++
        (kept ++ p.replaceUnlessAfterFrom blocked f n (behind none (done ++ kept)) rest)) := by
  induction n generalizing out done kept rest with
  | zero => exact absurd hn (Nat.not_lt_zero _)
  | succ n ih =>
    rw [replaceUnlessAfterFrom]
    cases hs : p.searchFrom (behind none (done ++ kept)) rest with
    | none => exact .ends (round_ends out done kept rest hs)
    | some found =>
      obtain ⟨skipped, h⟩ := found
      obtain ⟨hrest, hm⟩ := searchFrom_text _ rest skipped h hs
      have hne : h.text ≠ [] := hp _ h hm
      have hbefore : h.before = behind none (done ++ (kept ++ skipped)) := by
        rw [matchAt_before _ h hm, ← behind_append, List.append_assoc]
      have hlength := congrArg List.length hrest
      have hpos := List.length_pos_iff.2 hne
      rw [List.length_append, List.length_append] at hlength
      by_cases hblocked : h.before.any blocked = true
      · -- Only the character where the match begins is searched, and it is still to be written.
        cases htail : h.text ++ h.after with
        | nil => exact absurd (List.append_eq_nil_iff.1 htail).1 hne
        | cons c more =>
          have htailLength := congrArg List.length htail
          rw [List.length_append, List.length_cons] at htailLength
          have hround : (reached out done kept).round p blocked f (done ++ (kept ++ rest)) = _ :=
            round_refuses out done kept rest skipped h c more hs (hbefore ▸ hblocked) htail
          have hmore := ih out done (kept ++ (skipped ++ [c])) more (by omega)
          have hlast : behind none (done ++ (kept ++ (skipped ++ [c]))) = some c := by
            rw [← List.append_assoc, ← List.append_assoc, behind_concat]
          have hline : done ++ ((kept ++ (skipped ++ [c])) ++ more) = done ++ (kept ++ rest) := by
            simp [hrest, htail]
          rw [hlast, hline] at hmore
          refine .goesOn hround ?_
          simpa [hblocked, htail] using hmore
      · -- The cursors meet again behind the match.
        have hfree : h.before.any blocked = false := by simpa using hblocked
        have hround : (reached out done kept).round p blocked f (done ++ (kept ++ rest)) = _ :=
          round_takes out done kept rest skipped h hs hne (hbefore ▸ hfree)
        have hmore := ih (out ++ (kept ++ skipped) ++ f h) (done ++ (kept ++ (skipped ++ h.text)))
          [] h.after (by omega)
        have hlast : behind none (done ++ (kept ++ (skipped ++ h.text)) ++ []) =
            h.text.getLast? := by
          rw [List.append_nil, ← List.append_assoc, ← List.append_assoc, behind_append,
            behind_last _ _ hne]
        have hline : done ++ (kept ++ (skipped ++ h.text)) ++ ([] ++ h.after) =
            done ++ (kept ++ rest) := by
          simp [hrest]
        rw [hlast, hline] at hmore
        refine .goesOn hround ?_
        simpa [hfree, hne] using hmore

end

end Cursors

/-- A pass loses nothing of the line and writes nothing twice: it is cut into the matches that are
taken and single characters, and only the matches are replaced. -/
theorem Guarded.pieces {p : Pattern} {blocked : Char → Bool} {f : Hit → Line} {b : Option Char}
    {line line' : Line} (h : Guarded p blocked f b line line') :
    ∃ pieces : List Segment, pieces.flatMap Segment.text = line ∧
      pieces.flatMap (Segment.replace f) = line' ∧
      ∀ g, .hit g ∈ pieces → g.before.any blocked = false ∧ ∃ c, p.matchAt c = some g := by
  induction h with
  | nil b => exact ⟨[], rfl, rfl, by simp⟩
  | @keep b c rest rest' _ _ ih =>
    obtain ⟨pieces, htext, hreplaced, hhits⟩ := ih
    refine ⟨.plain c :: pieces, congrArg (c :: ·) htext, congrArg (c :: ·) hreplaced, ?_⟩
    exact fun g hg => hhits g (by simpa using hg)
  | @hit b g rest' hfree hm _ ih =>
    obtain ⟨pieces, htext, hreplaced, hhits⟩ := ih
    refine ⟨.hit g :: pieces, congrArg (g.text ++ ·) htext, congrArg (f g ++ ·) hreplaced, ?_⟩
    intro g' hg'
    rcases List.mem_cons.1 hg' with heq | hmem
    · cases heq
      exact ⟨matchAt_before _ g hm ▸ hfree, _, hm⟩
    · exact hhits g' hmem

theorem guarded_rules_never_empty :
    Rules.finalFieldHeader.pattern.NeverEmpty ∧ Rules.bareCall.pattern.NeverEmpty :=
  ⟨text_ne_nil _ (by decide), text_ne_nil _ (by decide)⟩

/-- Replacing with a guard is one pass from left to right, in which a match behind a blocked
character is no match. The loop with two cursors ends with the result of the pass and with no
other, more rounds change nothing, and what stands between the matches that are taken is kept. -/
theorem guarded_replacing_is_one_pass (p : Pattern) (hp : p.NeverEmpty) (blocked : Char → Bool)
    (f : Hit → Line) (line : Line) :
    let result := p.replaceUnlessAfter blocked f line
    (∀ line', Guarded p blocked f none line line' ↔ line' = result) ∧
      (∀ n, line.length < n → p.replaceUnlessAfterFrom blocked f n none line = result) ∧
      Cursors.Ends p blocked f line (line.length + 1) .start result ∧
      (∀ n line', Cursors.Ends p blocked f line n .start line' → line' = result) ∧
      ∃ pieces : List Segment, pieces.flatMap Segment.text = line ∧
        pieces.flatMap (Segment.replace f) = result ∧
        ∀ h, .hit h ∈ pieces → h.before.any blocked = false ∧ ∃ c, p.matchAt c = some h := by
  intro result
  have hpass : Guarded p blocked f none line result :=
    guarded_replaceUnlessAfterFrom hp _ none line (Nat.lt_succ_self _)
  have hloop : Cursors.Ends p blocked f line (line.length + 1) .start result :=
    Cursors.ends_reached hp _ [] [] [] line (Nat.lt_succ_self _)
  refine ⟨fun line' => ⟨fun h => h.unique hp hpass, fun h => h ▸ hpass⟩, fun n hn => ?_, hloop,
    fun n line' h => h.unique hloop, hpass.pieces⟩
  exact (guarded_replaceUnlessAfterFrom hp n none line hn).unique hp hpass

/-- The second character of a match that is refused begins one that is taken. -/
theorem refused_match_hides_another :
    let p : Pattern := stretch (.oneOf ['é', 'b'])
    let blocked := fun c : Char => c == 'x'
    let sign := fun _ : Hit => ['#']
    p.NeverEmpty ∧ p.replaceUnlessAfter blocked sign "xéb".toList = "xé#".toList ∧
      Cursors.Ends p blocked sign "xéb".toList 4 .start "xé#".toList := by
  intro p blocked sign
  have hp : p.NeverEmpty := text_ne_nil p (by decide)
  have hresult : p.replaceUnlessAfter blocked sign "xéb".toList = "xé#".toList := by
    decide +kernel
  have hloop := (guarded_replacing_is_one_pass p hp blocked sign "xéb".toList).2.2.1
  rw [hresult] at hloop
  exact ⟨hp, hresult, hloop⟩

end Pattern

end JvsSharp
