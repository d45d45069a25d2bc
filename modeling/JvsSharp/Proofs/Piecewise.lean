import JvsSharp.Proofs.Taking

/-!
# What replacing does to a whole line

A relation between texts that is kept by putting texts together holds between
a line and the line with its matches replaced as soon as it holds between each
match and what takes its place. The groups of a match are pieces of its text,
so a replacement that is put together from them brings in nothing else.
-/

set_option autoImplicit false

namespace JvsSharp

structure Piecewise (R : Line → Line → Prop) : Prop where
  nil : R [] []
  char : ∀ c, R [c] [c]
  append : ∀ {xs xs' ys ys' : Line}, R xs xs' → R ys ys' → R (xs ++ ys) (xs' ++ ys')

theorem Piecewise.refl {R : Line → Line → Prop} (hR : Piecewise R) (xs : Line) : R xs xs := by
  induction xs with
  | nil => exact hR.nil
  | cons c xs ih => exact hR.append (hR.char c) ih

namespace Pattern

section
variable {R : Line → Line → Prop} (hR : Piecewise R) {p : Pattern} {f : Hit → Line}
  (hf : ∀ c h, p.matchAt c = some h → R h.text (f h))
include hR hf

theorem replaceAll_piecewise (line : Line) : R line (p.replaceAll f line) := by
  have hsegments : ∀ ss : List Segment, (∀ h, .hit h ∈ ss → R h.text (f h)) →
      R (ss.flatMap Segment.text) (ss.flatMap (Segment.replace f)) := by
    intro ss hss
    induction ss with
    | nil => exact hR.nil
    | cons s ss ih =>
      have hfirst : R s.text (Segment.replace f s) := by
        cases s with
        | plain c => exact hR.char c
        | hit h => exact hss h (by simp)
      exact hR.append hfirst (ih fun h hh => hss h (by simp [hh]))
  have hline := hsegments (p.segments line) fun h hh => by
    obtain ⟨c, -, hm⟩ := segmentsFrom_matchAt p none 0 line h hh
    exact hf c h hm
  rw [segments_text] at hline
  rw [replaceAll_eq]
  exact hline

omit hR hf in
theorem searchFrom_text (b : Option Char) (line skipped : Line) (h : Hit)
    (hs : p.searchFrom b line = some (skipped, h)) :
    line = skipped ++ (h.text ++ h.after) ∧
      p.matchAt ⟨behind b skipped, h.text ++ h.after⟩ = some h := by
  induction line generalizing b skipped with
  | nil =>
    rw [searchFrom, Option.map_eq_some_iff] at hs
    obtain ⟨g, hm, heq⟩ := hs
    cases heq
    have htext := matchAt_text p _ h hm
    exact ⟨htext.symm, htext ▸ hm⟩
  | cons c line ih =>
    rw [searchFrom] at hs
    split at hs
    · next g hm =>
      cases hs
      have htext := matchAt_text p _ h hm
      exact ⟨htext.symm, htext ▸ hm⟩
    · obtain ⟨⟨skipped', g⟩, hrest, heq⟩ := Option.map_eq_some_iff.1 hs
      cases heq
      obtain ⟨htext, hm⟩ := ih (some c) skipped' hrest
      exact ⟨congrArg (c :: ·) htext, hm⟩

theorem replaceFirst_piecewise (line : Line) : R line (p.replaceFirst f line) := by
  rw [replaceFirst]
  split
  · next skipped h hs =>
    obtain ⟨htext, hm⟩ := searchFrom_text none line skipped h hs
    have hline := hR.append (hR.refl skipped) (hR.append (hf _ h hm) (hR.refl h.after))
    rw [← htext, ← List.append_assoc] at hline
    exact hline
  · exact hR.refl line

theorem replaceUnlessAfter_piecewise (blocked : Char → Bool) (line : Line) :
    R line (p.replaceUnlessAfter blocked f line) := by
  have hfrom : ∀ n b line, R line (p.replaceUnlessAfterFrom blocked f n b line) := by
    intro n
    induction n with
    | zero => exact fun _ line => hR.refl line
    | succ n ih =>
      intro b line
      rw [replaceUnlessAfterFrom]
      split
      · exact hR.refl line
      · next skipped h hs =>
        obtain ⟨htext, hm⟩ := searchFrom_text b line skipped h hs
        rw [htext]
        split
        · cases h.text ++ h.after with
          | nil =>
            rw [List.append_nil]
            exact hR.refl skipped
          | cons d rest => exact hR.append (hR.refl skipped) (hR.append (hR.char d) (ih _ rest))
        · rw [List.append_assoc]
          exact hR.append (hR.refl skipped) (hR.append (hf _ h hm) (ih _ h.after))
  exact hfrom _ none line

end

theorem absent_of_forall (p : Pattern) (line : Line)
    (h : ∀ pre rest, line = pre ++ rest → p.matchAt ⟨behind none pre, rest⟩ = none) :
    p.Absent line := by
  cases hs : p.search line with
  | none => exact hs
  | some found =>
    obtain ⟨skipped, hit⟩ := found
    obtain ⟨htext, hm⟩ := searchFrom_text none line skipped hit hs
    exact nomatch (h skipped _ htext).symm.trans hm

theorem matchAt_eq_none (p : Pattern) (c : Place) (h : ∀ r, r ∉ p.ends c []) :
    p.matchAt c = none := by
  rw [matchAt_eq, List.eq_nil_iff_forall_not_mem.2 h]
  rfl

end Pattern

def Mark.Within (mark : Mark) (first last : Line) : Prop :=
  last <:+ mark.last ∧ mark.last <:+ mark.first ∧ mark.first <:+ first

theorem Mark.within_trans (mark : Mark) {ms ms' : List Mark} {a b c : Line} (hab : b <:+ a)
    (hbc : c <:+ b) (h : mark ∈ ms' → mark ∈ ms ∨ mark.Within a b)
    (h' : mark ∈ ms' ∨ mark.Within b c) : mark ∈ ms ∨ mark.Within a c := by
  rcases h' with hmem | ⟨hlast, hself, hfirst⟩
  · rcases h hmem with hmem | ⟨hlast, hself, hfirst⟩
    · exact .inl hmem
    · exact .inr ⟨hbc.trans hlast, hself, hfirst⟩
  · exact .inr ⟨hlast, hself, hfirst.trans hab⟩

namespace Pattern

/-- The marks that a match makes lie between its ends. -/
theorem ends_marks (p : Pattern) (c : Place) (m : List Mark) (r : Place × List Mark)
    (h : r ∈ p.ends c m) (mark : Mark) (hmark : mark ∈ r.2) :
    mark ∈ m ∨ mark.Within c.rest r.1.rest := by
  induction p generalizing c m r with
  | empty =>
    rw [ends, List.mem_singleton] at h
    rw [h] at hmark
    exact .inl hmark
  | text cs =>
    rw [ends, List.mem_map] at h
    obtain ⟨c', -, rfl⟩ := h
    exact .inl hmark
  | one k =>
    rw [ends] at h
    split at h
    · exact absurd h List.not_mem_nil
    · split at h
      · rw [List.mem_singleton.1 h] at hmark
        exact .inl hmark
      · exact absurd h List.not_mem_nil
  | span k =>
    rw [ends, List.mem_singleton] at h
    rw [h] at hmark
    exact .inl hmark
  | run k =>
    rw [ends, List.mem_map] at h
    obtain ⟨c', -, rfl⟩ := h
    exact .inl hmark
  | fewest k =>
    rw [ends, List.mem_map] at h
    obtain ⟨c', -, rfl⟩ := h
    exact .inl hmark
  | edge =>
    rw [ends] at h
    split at h
    · rw [List.mem_singleton.1 h] at hmark
      exact .inl hmark
    · exact absurd h List.not_mem_nil
  | start =>
    rw [ends] at h
    split at h
    · rw [List.mem_singleton.1 h] at hmark
      exact .inl hmark
    · exact absurd h List.not_mem_nil
  | seq p q ihp ihq =>
    rw [ends, List.mem_flatMap] at h
    obtain ⟨s, hs, h⟩ := h
    exact mark.within_trans (ends_suffix p _ _ _ hs) (ends_suffix q _ _ _ h) (ihp _ _ _ hs)
      (ihq _ _ _ h hmark)
  | alt p q ihp ihq =>
    rw [ends, List.mem_append] at h
    exact h.elim (fun h => ihp _ _ _ h hmark) fun h => ihq _ _ _ h hmark
  | star p ih =>
    have hrounds := starEnds_related (fun c m => p.ends c m)
      (fun a b => b.1.rest <:+ a.1.rest ∧
        (mark ∈ b.2 → mark ∈ a.2 ∨ mark.Within a.1.rest b.1.rest))
      (fun a => ⟨List.suffix_refl _, .inl⟩)
      (fun a b c hab hbc => ⟨hbc.1.trans hab.1, fun hc =>
        mark.within_trans hab.1 hbc.1 hab.2 (hbc.2 hc)⟩)
      (fun c m r h => ⟨ends_suffix p c m r h, ih c m r h⟩)
    exact (hrounds _ c m r h).2 hmark
  | group i p ih =>
    rw [ends, List.mem_map] at h
    obtain ⟨s, hs, rfl⟩ := h
    -- The new mark covers the match itself.
    rcases List.mem_cons.1 hmark with rfl | hmark
    · exact .inr ⟨List.suffix_refl _, ends_suffix p c m s hs, List.suffix_refl _⟩
    · exact ih c m s hs hmark

/-- A group is a piece of the text of its match. -/
theorem group_infix (p : Pattern) (c : Place) (h : Hit) (hm : p.matchAt c = some h) (i : Nat) :
    h.group i <:+: h.text := by
  rw [matchAt_eq, Option.map_eq_some_iff] at hm
  obtain ⟨r, hr, rfl⟩ := hm
  rw [Hit.group]
  split
  · next mark hmark =>
    have hmem := List.mem_of_find?_eq_some hmark
    rcases ends_marks p c [] r (List.mem_of_mem_head? hr) mark hmem with hin | hwithin
    · exact nomatch hin
    · obtain ⟨⟨after, hafter⟩, ⟨text, htext⟩, before, hbefore⟩ := hwithin
      have hgroup : mark.text = text := by rw [Mark.text, ← htext, textBetween_left]
      have hwhole : c.rest = (before ++ text ++ after) ++ r.1.rest := by
        rw [← hbefore, ← htext, ← hafter]
        simp only [List.append_assoc]
      exact ⟨before, after, by rw [hgroup, hwhole, textBetween_left]⟩
  · exact List.nil_infix

end Pattern

end JvsSharp
