import JvsSharp.Pattern.Segments

/-!
# Text in which no match begins

A stretch of a line is quiet for a pattern if no match begins in it. Cutting
and replacing pass over quiet text unchanged, so a line with one match between
two quiet stretches is changed in that match alone, and a pattern that does
not occur in a line leaves it as it is.
-/

set_option autoImplicit false

namespace JvsSharp

def Segment.replace (f : Hit → Line) : Segment → Line
  | .plain c => [c]
  | .hit h => f h

def Segment.hit? : Segment → Option Hit
  | .plain _ => none
  | .hit h => some h

namespace Pattern

def behind : Option Char → Line → Option Char
  | b, [] => b
  | _, c :: xs => behind (some c) xs

theorem behind_append (b : Option Char) (xs ys : Line) :
    behind b (xs ++ ys) = behind (behind b xs) ys := by
  induction xs generalizing b with
  | nil => rfl
  | cons c xs ih => exact ih (some c)

theorem behind_concat (b : Option Char) (xs : Line) (c : Char) :
    behind b (xs ++ [c]) = some c := by
  rw [behind_append]
  rfl

def Quiet (p : Pattern) : Option Char → Line → Line → Prop
  | _, [], _ => True
  | b, c :: xs, rest => p.matchAt ⟨b, c :: (xs ++ rest)⟩ = none ∧ Quiet p (some c) xs rest

theorem quiet_append (p : Pattern) (b : Option Char) (xs ys rest : Line) :
    Quiet p b (xs ++ ys) rest ↔
      Quiet p b xs (ys ++ rest) ∧ Quiet p (behind b xs) ys rest := by
  induction xs generalizing b with
  | nil => simp [Quiet, behind]
  | cons c xs ih => simp [Quiet, behind, ih, and_assoc]

theorem Quiet.append {p : Pattern} {b : Option Char} {xs ys rest : Line}
    (hx : Quiet p b xs (ys ++ rest)) (hy : Quiet p (behind b xs) ys rest) :
    Quiet p b (xs ++ ys) rest := (quiet_append p b xs ys rest).2 ⟨hx, hy⟩

theorem segmentsFrom_quiet (p : Pattern) (b : Option Char) (xs rest : Line)
    (h : Quiet p b xs rest) :
    p.segmentsFrom b 0 (xs ++ rest) =
      xs.map Segment.plain ++ p.segmentsFrom (behind b xs) 0 rest := by
  induction xs generalizing b with
  | nil => rfl
  | cons c xs ih =>
    rw [List.cons_append, segmentsFrom, h.1, ih (some c) h.2]
    rfl

theorem segmentsFrom_skip (p : Pattern) (b : Option Char) (xs rest : Line) :
    p.segmentsFrom b xs.length (xs ++ rest) = p.segmentsFrom (behind b xs) 0 rest := by
  induction xs generalizing b with
  | nil => rfl
  | cons c xs ih =>
    rw [List.length_cons, List.cons_append, segmentsFrom, ih]
    rfl

theorem segmentsFrom_hit (p : Pattern) (b : Option Char) (mid rest : Line) (h : Hit)
    (hm : p.matchAt ⟨b, mid ++ rest⟩ = some h) (ht : h.text = mid) (hne : mid ≠ []) :
    p.segmentsFrom b 0 (mid ++ rest) = .hit h :: p.segmentsFrom (behind b mid) 0 rest := by
  cases mid with
  | nil => exact absurd rfl hne
  | cons c mid =>
    rw [List.cons_append] at hm ⊢
    rw [segmentsFrom, hm]
    simp only [ht, segmentsFrom_skip]
    rfl

def replaceFrom (p : Pattern) (f : Hit → Line) (b : Option Char) (line : Line) : Line :=
  (p.segmentsFrom b 0 line).flatMap (Segment.replace f)

theorem replaceAll_eq (p : Pattern) (f : Hit → Line) (line : Line) :
    p.replaceAll f line = p.replaceFrom f none line := by
  rw [replaceAll, replaceFrom]
  congr

theorem replaceFrom_nil (p : Pattern) (f : Hit → Line) (b : Option Char) :
    p.replaceFrom f b [] = [] := by
  rw [replaceFrom, segmentsFrom]
  rfl

theorem flatMap_plain (f : Hit → Line) (xs : Line) :
    (xs.map Segment.plain).flatMap (Segment.replace f) = xs := by
  induction xs with
  | nil => rfl
  | cons c xs ih =>
    rw [List.map_cons, List.flatMap_cons, ih]
    rfl

theorem replaceFrom_quiet (p : Pattern) (f : Hit → Line) (b : Option Char) (xs rest : Line)
    (h : Quiet p b xs rest) :
    p.replaceFrom f b (xs ++ rest) = xs ++ p.replaceFrom f (behind b xs) rest := by
  rw [replaceFrom, segmentsFrom_quiet p b xs rest h, List.flatMap_append, flatMap_plain]
  rfl

theorem replaceFrom_hit (p : Pattern) (f : Hit → Line) (b : Option Char) (mid rest : Line)
    (h : Hit) (hm : p.matchAt ⟨b, mid ++ rest⟩ = some h) (ht : h.text = mid) (hne : mid ≠ []) :
    p.replaceFrom f b (mid ++ rest) = f h ++ p.replaceFrom f (behind b mid) rest := by
  rw [replaceFrom, segmentsFrom_hit p b mid rest h hm ht hne, List.flatMap_cons]
  rfl

theorem replaceFrom_all_quiet (p : Pattern) (f : Hit → Line) (b : Option Char) (line : Line)
    (h : Quiet p b line []) : p.replaceFrom f b line = line := by
  have hline := replaceFrom_quiet p f b line [] h
  rwa [List.append_nil, replaceFrom_nil, List.append_nil] at hline

/-- A line whose only match stands between two quiet stretches is changed in the match. -/
theorem replaceAll_single (p : Pattern) (f : Hit → Line) (pre mid post : Line) (h : Hit)
    (hpre : Quiet p none pre (mid ++ post))
    (hm : p.matchAt ⟨behind none pre, mid ++ post⟩ = some h) (ht : h.text = mid)
    (hne : mid ≠ []) (hpost : Quiet p (behind (behind none pre) mid) post []) :
    p.replaceAll f (pre ++ (mid ++ post)) = pre ++ (f h ++ post) := by
  rw [replaceAll_eq, replaceFrom_quiet p f none pre _ hpre,
    replaceFrom_hit p f _ mid post h hm ht hne, replaceFrom_all_quiet p f _ post hpost]

theorem segmentsFrom_matchAt (p : Pattern) (b : Option Char) (skip : Nat) (line : Line) (h : Hit)
    (hh : .hit h ∈ p.segmentsFrom b skip line) :
    ∃ c : Place, c.rest <:+ line ∧ p.matchAt c = some h := by
  induction line generalizing b skip with
  | nil => simp [segmentsFrom] at hh
  | cons x rest ih =>
    have hrest : ∀ b skip, .hit h ∈ p.segmentsFrom b skip rest →
        ∃ c : Place, c.rest <:+ x :: rest ∧ p.matchAt c = some h := by
      intro b skip hmem
      obtain ⟨c, hc, hm⟩ := ih b skip hmem
      exact ⟨c, hc.trans (List.suffix_cons x rest), hm⟩
    cases skip with
    | succ skip => exact hrest _ _ hh
    | zero =>
      rw [segmentsFrom] at hh
      split at hh
      · exact hrest _ _ (by simpa using hh)
      · next g hm =>
        split at hh
        · exact hrest _ _ (by simpa using hh)
        · rcases List.mem_cons.1 hh with heq | hmem
          · cases heq
            exact ⟨_, List.suffix_refl _, hm⟩
          · exact hrest _ _ hmem

/-- A replacement that gives every match its own text back changes nothing. -/
theorem replaceAll_eq_self (p : Pattern) (f : Hit → Line) (line : Line)
    (hf : ∀ (c : Place) h, c.rest <:+ line → p.matchAt c = some h → f h = h.text) :
    p.replaceAll f line = line := by
  have hsegment : ∀ s ∈ p.segments line, Segment.replace f s = s.text := by
    intro s hs
    cases s with
    | plain c => rfl
    | hit h =>
      obtain ⟨c, hc, hm⟩ := segmentsFrom_matchAt p none 0 line h hs
      exact hf c h hc hm
  rw [replaceAll_eq, replaceFrom, ← segments, List.flatMap_def, List.map_congr_left hsegment,
    ← List.flatMap_def, segments_text]

theorem hits_eq (p : Pattern) (line : Line) :
    p.hits line = (p.segments line).filterMap Segment.hit? := by
  rw [hits]
  congr

theorem mem_hits_iff (p : Pattern) (line : Line) (h : Hit) :
    h ∈ p.hits line ↔ .hit h ∈ p.segments line := by
  rw [hits_eq, List.mem_filterMap]
  constructor
  · rintro ⟨segment, hmem, hhit⟩
    cases segment with
    | plain c => simp [Segment.hit?] at hhit
    | hit g =>
      cases hhit
      exact hmem
  · exact fun hmem => ⟨.hit h, hmem, rfl⟩

theorem filterMap_plain (xs : Line) : (xs.map Segment.plain).filterMap Segment.hit? = [] := by
  induction xs with
  | nil => rfl
  | cons c xs ih => exact ih

theorem hits_quiet (p : Pattern) (line : Line) (h : Quiet p none line []) : p.hits line = [] := by
  have hs := segmentsFrom_quiet p none line [] h
  rw [List.append_nil, segmentsFrom, List.append_nil] at hs
  rw [hits_eq, segments, hs, filterMap_plain]

theorem hits_single (p : Pattern) (pre mid : Line) (h : Hit) (hpre : Quiet p none pre mid)
    (hm : p.matchAt ⟨behind none pre, mid⟩ = some h) (ht : h.text = mid) (hne : mid ≠ []) :
    p.hits (pre ++ mid) = [h] := by
  have hs := segmentsFrom_hit p (behind none pre) mid [] h (by rwa [List.append_nil]) ht hne
  rw [List.append_nil, segmentsFrom] at hs
  rw [hits_eq, segments, segmentsFrom_quiet p none pre mid hpre, hs, List.filterMap_append,
    filterMap_plain]
  rfl

theorem searchFrom_eq_none_iff (p : Pattern) (b : Option Char) (line : Line) :
    p.searchFrom b line = none ↔
      Quiet p b line [] ∧ p.matchAt ⟨behind b line, []⟩ = none := by
  induction line generalizing b with
  | nil => simp [searchFrom, Quiet, behind]
  | cons c line ih =>
    rw [searchFrom]
    cases hm : p.matchAt ⟨b, c :: line⟩ with
    | some h => simp [Quiet, hm]
    | none => simp [Quiet, hm, behind, ih]

def Absent (p : Pattern) (line : Line) : Prop := p.search line = none

theorem Absent.quiet {p : Pattern} {line : Line} (h : p.Absent line) : Quiet p none line [] :=
  ((searchFrom_eq_none_iff p none line).1 h).1

theorem replaceAll_absent (p : Pattern) (f : Hit → Line) (line : Line) (h : p.Absent line) :
    p.replaceAll f line = line := by
  rw [replaceAll_eq, replaceFrom_all_quiet p f none line h.quiet]

theorem occursIn_absent (p : Pattern) (line : Line) (h : p.Absent line) :
    p.occursIn line = false := by
  rw [occursIn, h]
  rfl

theorem replaceFirst_absent (p : Pattern) (f : Hit → Line) (line : Line) (h : p.Absent line) :
    p.replaceFirst f line = line := by
  rw [replaceFirst, h]

theorem replaceUnlessAfter_absent (p : Pattern) (blocked : Char → Bool) (f : Hit → Line)
    (line : Line) (h : p.Absent line) : p.replaceUnlessAfter blocked f line = line := by
  have hs : p.searchFrom none line = none := h
  rw [replaceUnlessAfter, replaceUnlessAfterFrom, hs]

end Pattern

namespace Edit

theorem apply_absent (e : Edit) (line : Line) (h : e.pattern.Absent line) :
    e.apply line = line := Pattern.replaceAll_absent e.pattern e.render line h

theorem applyAll_singleton (e : Edit) (line : Line) : applyAll [e] line = e.apply line := rfl

theorem applyAll_append (es es' : List Edit) (line : Line) :
    applyAll (es ++ es') line = applyAll es' (applyAll es line) :=
  List.foldl_append

theorem applyAll_absent (es : List Edit) (line : Line)
    (h : ∀ e ∈ es, e.pattern.Absent line) : Edit.applyAll es line = line := by
  induction es with
  | nil => rfl
  | cons e es ih =>
    change Edit.applyAll es (e.apply line) = line
    rw [apply_absent e line (h e (by simp))]
    exact ih fun other hother => h other (by simp [hother])

end Edit

end JvsSharp
