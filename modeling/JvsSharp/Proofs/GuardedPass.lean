import JvsSharp.Proofs.Piecewise
import JvsSharp.Proofs.RenamingPasses

/-!
# One pass with a guard

Replacing with a guard goes through a line from left to right as plain
replacing does, but it takes no match that stands behind a blocked character:
there it keeps one character and looks again behind it. The rounds of the loop
do not show in the pass. What is done at a place is told by the character
before it and by the text that follows.
-/

set_option autoImplicit false

namespace JvsSharp
namespace Pattern

def NeverEmpty (p : Pattern) : Prop := ∀ c h, p.matchAt c = some h → h.text ≠ []

/-- A line and what replacing makes of it behind the character `b`, if no match behind a blocked
character is taken. -/
inductive Guarded (p : Pattern) (blocked : Char → Bool) (f : Hit → Line) :
    Option Char → Line → Line → Prop
  | nil (b : Option Char) : Guarded p blocked f b [] []
  | keep {b : Option Char} {c : Char} {rest rest' : Line} :
      (b.any blocked = true ∨ p.matchAt ⟨b, c :: rest⟩ = none) →
      Guarded p blocked f (some c) rest rest' → Guarded p blocked f b (c :: rest) (c :: rest')
  | hit {b : Option Char} {h : Hit} {rest' : Line} :
      b.any blocked = false → p.matchAt ⟨b, h.text ++ h.after⟩ = some h →
      Guarded p blocked f (behind b h.text) h.after rest' →
      Guarded p blocked f b (h.text ++ h.after) (f h ++ rest')

def Barred (p : Pattern) (blocked : Char → Bool) : Option Char → Line → Line → Prop
  | _, [], _ => True
  | b, c :: xs, rest =>
      (b.any blocked = true ∨ p.matchAt ⟨b, c :: (xs ++ rest)⟩ = none) ∧
        Barred p blocked (some c) xs rest

theorem behind_last (b : Option Char) (xs : Line) (hne : xs ≠ []) :
    behind b xs = xs.getLast? := by
  rcases List.eq_nil_or_concat xs with rfl | ⟨ys, c, rfl⟩
  · exact absurd rfl hne
  · rw [List.concat_eq_append, behind_concat, List.getLast?_concat]

theorem behind_eq_getLast? (pre : Line) : behind none pre = pre.getLast? := by
  rcases List.eq_nil_or_concat pre with rfl | ⟨xs, c, rfl⟩
  · rfl
  · rw [List.concat_eq_append, behind_concat, List.getLast?_concat]

theorem behind_of_ne_nil (b b' : Option Char) (xs : Line) (hne : xs ≠ []) :
    behind b xs = behind b' xs := by
  rw [behind_last b xs hne, behind_last b' xs hne]

/-- The search passes over quiet text only. -/
theorem quiet_of_searchFrom (p : Pattern) (b : Option Char) (line skipped : Line) (h : Hit)
    (hs : p.searchFrom b line = some (skipped, h)) : Quiet p b skipped (h.text ++ h.after) := by
  induction line generalizing b skipped with
  | nil =>
    rw [searchFrom, Option.map_eq_some_iff] at hs
    obtain ⟨g, -, heq⟩ := hs
    cases heq
    trivial
  | cons c line ih =>
    rw [searchFrom] at hs
    split at hs
    · cases hs
      trivial
    · next hm =>
      obtain ⟨⟨skipped', g⟩, hrest, heq⟩ := Option.map_eq_some_iff.1 hs
      cases heq
      obtain ⟨htext, -⟩ := searchFrom_text (some c) line skipped' h hrest
      exact ⟨htext ▸ hm, ih (some c) skipped' hrest⟩

section
variable {p : Pattern} {blocked : Char → Bool} {f : Hit → Line} {b : Option Char}
  {line line' : Line}

theorem barred_append (b : Option Char) (xs ys rest : Line) :
    Barred p blocked b (xs ++ ys) rest ↔
      Barred p blocked b xs (ys ++ rest) ∧ Barred p blocked (behind b xs) ys rest := by
  induction xs generalizing b with
  | nil => simp [Barred, behind]
  | cons c xs ih => simp only [List.cons_append, Barred, ih, behind, List.append_assoc, and_assoc]

theorem Quiet.barred {xs rest : Line} (h : Quiet p b xs rest) : Barred p blocked b xs rest := by
  induction xs generalizing b with
  | nil => trivial
  | cons c xs ih => exact ⟨.inr h.1, ih h.2⟩

theorem barred_of_blocked (b : Option Char) (xs rest : Line) (hb : b.any blocked = true)
    (hxs : ∀ c ∈ xs, blocked c = true) : Barred p blocked b xs rest := by
  induction xs generalizing b with
  | nil => trivial
  | cons c xs ih =>
    exact ⟨.inl hb, ih (some c) (hxs c (by simp)) fun d hd => hxs d (by simp [hd])⟩

theorem matchAt_before (c : Place) (h : Hit) (hm : p.matchAt c = some h) :
    h.before = c.before := by
  rw [matchAt_eq, Option.map_eq_some_iff] at hm
  obtain ⟨r, -, rfl⟩ := hm
  rfl

theorem Quiet.guarded {xs rest rest' : Line} (hquiet : Quiet p b xs rest)
    (h : Guarded p blocked f (behind b xs) rest rest') :
    Guarded p blocked f b (xs ++ rest) (xs ++ rest') := by
  induction xs generalizing b with
  | nil => exact h
  | cons c xs ih => exact .keep (.inr hquiet.1) (ih hquiet.2 h)

/-- The rounds that the loop is given suffice to go through the line. -/
theorem guarded_replaceUnlessAfterFrom (hp : p.NeverEmpty) (n : Nat) (b : Option Char)
    (line : Line) (hn : line.length < n) :
    Guarded p blocked f b line (p.replaceUnlessAfterFrom blocked f n b line) := by
  induction n generalizing b line with
  | zero => exact absurd hn (Nat.not_lt_zero _)
  | succ n ih =>
    rw [replaceUnlessAfterFrom]
    cases hs : p.searchFrom b line with
    | none =>
      have hquiet := ((searchFrom_eq_none_iff p b line).1 hs).1
      have hline : Guarded p blocked f b (line ++ []) (line ++ []) := hquiet.guarded (.nil _)
      rwa [List.append_nil] at hline
    | some found =>
      obtain ⟨skipped, h⟩ := found
      obtain ⟨hline, hm⟩ := searchFrom_text b line skipped h hs
      have hne : h.text ≠ [] := hp _ h hm
      have hbefore : h.before = behind b skipped := matchAt_before _ h hm
      have hlength := congrArg List.length hline
      have hpos := List.length_pos_iff.2 hne
      rw [List.length_append, List.length_append] at hlength
      rw [hline]
      by_cases hblocked : h.before.any blocked = true
      · simp only [hblocked, Bool.true_or, if_true]
        -- A match that is refused is passed over by one character.
        have hquiet := quiet_of_searchFrom p b line skipped h hs
        cases htail : h.text ++ h.after with
        | nil => exact absurd (List.append_eq_nil_iff.1 htail).1 hne
        | cons c rest =>
          have htailLength := congrArg List.length htail
          rw [List.length_append, List.length_cons] at htailLength
          rw [htail] at hquiet
          rw [hbefore] at hblocked
          exact hquiet.guarded (.keep (.inl hblocked) (ih (some c) rest (by omega)))
      · have hfree : h.before.any blocked = false := by simpa using hblocked
        have hopen : (h.before.any blocked || h.text.isEmpty) = false := by simpa [hfree] using hne
        have hrest := ih h.text.getLast? h.after (by omega)
        rw [← behind_last (behind b skipped) h.text hne] at hrest
        rw [hbefore] at hfree
        simp only [hopen, Bool.false_eq_true, if_false, List.append_assoc]
        rw [← behind_last (behind b skipped) h.text hne]
        exact (quiet_of_searchFrom p b line skipped h hs).guarded (.hit hfree hm hrest)

theorem guarded_replaceUnlessAfter (hp : p.isFilled = true) (line : Line) :
    Guarded p blocked f none line (p.replaceUnlessAfter blocked f line) :=
  guarded_replaceUnlessAfterFrom (text_ne_nil p hp) _ none line (Nat.lt_succ_self _)

/-- Plain replacing is a pass whose guard blocks nothing. -/
theorem Replaced.guarded (h : p.Replaced f b line line') :
    Guarded p (fun _ => false) f b line line' := by
  induction h with
  | nil b => exact .nil b
  | keep hm _ ih => exact .keep (.inr hm) ih
  | hit hm _ ih => exact .hit (by simp) hm ih

namespace Guarded

theorem piecewise {R : Line → Line → Prop} (hR : Piecewise R)
    (hf : ∀ c g, p.matchAt c = some g → R g.text (f g))
    (h : Guarded p blocked f b line line') : R line line' := by
  induction h with
  | nil _ => exact hR.nil
  | keep _ _ ih => exact hR.append (hR.char _) ih
  | hit _ hm _ ih => exact hR.append (hf _ _ hm) ih

theorem unique {line'' : Line} (hp : p.NeverEmpty) (h : Guarded p blocked f b line line')
    (h' : Guarded p blocked f b line line'') : line' = line'' := by
  induction h generalizing line'' with
  | nil b =>
    -- The line is generalized, so that the second pass can be taken apart as well.
    generalize hline : ([] : Line) = line at h'
    cases h' with
    | nil => rfl
    | keep _ _ => exact absurd hline (by simp)
    | hit _ hm _ =>
      exact absurd (List.append_eq_nil_iff.1 hline.symm).1 (hp _ _ hm)
  | @keep b c rest _ hkeep _ ih =>
    generalize hline : c :: rest = line at h'
    cases h' with
    | nil => exact absurd hline (by simp)
    | keep _ hrest =>
      cases hline
      rw [ih hrest]
    | hit hfree hm _ =>
      rw [← hline] at hm
      rcases hkeep with hblocked | hnone
      · exact absurd (hfree.symm.trans hblocked) Bool.false_ne_true
      · exact absurd (hm.symm.trans hnone) (Option.some_ne_none _)
  | @hit b g _ hfree hm _ ih =>
    generalize hline : g.text ++ g.after = line at h'
    cases h' with
    | nil => exact absurd (List.append_eq_nil_iff.1 hline).1 (hp _ g hm)
    | keep hkeep _ =>
      rw [hline] at hm
      rcases hkeep with hblocked | hnone
      · exact absurd (hfree.symm.trans hblocked) Bool.false_ne_true
      · exact absurd (hm.symm.trans hnone) (Option.some_ne_none _)
    | hit _ hm' hrest =>
      rw [hline, hm'] at hm
      cases hm
      rw [ih hrest]

/-- A pass changes nothing if every match that it may take gets its own text back. -/
theorem eq_self (h : Guarded p blocked f b line line')
    (hf : ∀ pre g, line = pre ++ (g.text ++ g.after) → (behind b pre).any blocked = false →
      p.matchAt ⟨behind b pre, g.text ++ g.after⟩ = some g → f g = g.text) : line' = line := by
  induction h with
  | nil _ => rfl
  | @keep b c rest rest' _ _ ih =>
    have hrest := ih fun pre g hcut => hf (c :: pre) g (congrArg (c :: ·) hcut)
    rw [hrest]
  | @hit b g rest' hfree hm _ ih =>
    have hrest := ih fun pre g' hcut => by
      rw [← behind_append]
      exact hf (g.text ++ pre) g' (by rw [hcut, List.append_assoc])
    rw [hrest, hf [] g rfl hfree hm]

theorem of_barred {xs rest : Line} (hbarred : Barred p blocked b xs rest)
    (h : Guarded p blocked f b (xs ++ rest) line') :
    ∃ rest', line' = xs ++ rest' ∧ Guarded p blocked f (behind b xs) rest rest' := by
  induction xs generalizing b line' with
  | nil => exact ⟨line', rfl, h⟩
  | cons c xs ih =>
    rw [List.cons_append] at h
    generalize hline : c :: (xs ++ rest) = line at h
    cases h with
    | nil => exact absurd hline (by simp)
    | keep _ hrest =>
      cases hline
      obtain ⟨rest', heq, hguarded⟩ := ih hbarred.2 hrest
      exact ⟨rest', congrArg (c :: ·) heq, hguarded⟩
    | hit hfree hm _ =>
      rw [← hline] at hm
      rcases hbarred.1 with hblocked | hnone
      · exact absurd (hfree.symm.trans hblocked) Bool.false_ne_true
      · exact absurd (hm.symm.trans hnone) (Option.some_ne_none _)

/-- A place of the result that can only be the start of a replaced text is one at which the pass
stood. -/
theorem cut (starts : Option Char → Char → Prop) (h : Guarded p blocked f b line line')
    (hinner : ∀ c g, c.rest <:+ line → p.matchAt c = some g → ∀ us v vs, f g = us ++ v :: vs →
      us ≠ [] → ¬starts (behind none us) v)
    (hlast : ∀ c g, c.rest <:+ line → p.matchAt c = some g → ∀ v,
      starts (behind c.before (f g)) v → starts (behind c.before g.text) v)
    (pre' : Line) (v : Char) (tail' : Line) (hline : line' = pre' ++ v :: tail')
    (hstart : starts (behind b pre') v) :
    ∃ pre rest, line = pre ++ rest ∧ starts (behind b pre) v ∧
      Guarded p blocked f (behind b pre) rest (v :: tail') := by
  induction h generalizing pre' with
  | nil b => exact absurd hline (by simp)
  | @keep b c rest rest' hm hrest ih =>
    cases pre' with
    | nil =>
      rw [List.nil_append] at hline
      exact ⟨[], c :: rest, rfl, hstart, hline ▸ .keep hm hrest⟩
    | cons x pre' =>
      rw [List.cons_append, List.cons.injEq] at hline
      obtain ⟨rfl, hline⟩ := hline
      have hsuffix := List.suffix_cons c rest
      obtain ⟨pre, rest₁, heq, hstart₁, hguarded⟩ :=
        ih (fun d g hd => hinner d g (hd.trans hsuffix))
          (fun d g hd => hlast d g (hd.trans hsuffix)) pre' hline hstart
      exact ⟨c :: pre, rest₁, congrArg (c :: ·) heq, hstart₁, hguarded⟩
  | @hit b g rest' hfree hm hrest ih =>
    have hsuffix : g.after <:+ g.text ++ g.after := List.suffix_append _ _
    -- Behind the replaced text the pass goes on behind the match.
    have hbeyond : ∀ more, pre' = f g ++ more → rest' = more ++ v :: tail' →
        ∃ pre rest, g.text ++ g.after = pre ++ rest ∧ starts (behind b pre) v ∧
          Guarded p blocked f (behind b pre) rest (v :: tail') := by
      intro more hpre hrest'
      have hmore : starts (behind (behind b g.text) more) v := by
        rw [hpre, behind_append] at hstart
        cases more with
        | nil => exact hlast _ g (List.suffix_refl _) hm v hstart
        | cons d more => exact hstart
      obtain ⟨pre, rest, heq, hstart₁, hguarded⟩ :=
        ih (fun d g hd => hinner d g (hd.trans hsuffix))
          (fun d g hd => hlast d g (hd.trans hsuffix)) more hrest' hmore
      rw [← behind_append] at hstart₁ hguarded
      exact ⟨g.text ++ pre, rest, by rw [heq, List.append_assoc], hstart₁, hguarded⟩
    by_cases hnil : pre' = []
    · subst hnil
      rw [List.nil_append] at hline
      exact ⟨[], _, rfl, hstart, hline ▸ .hit hfree hm hrest⟩
    · rcases List.append_eq_append_iff.1 hline with ⟨more, hpre, hrest'⟩ | ⟨more, hf, htail⟩
      · exact hbeyond more hpre hrest'
      · cases more with
        | nil =>
          refine hbeyond [] ?_ htail.symm
          rw [hf, List.append_nil, List.append_nil]
        | cons d more =>
          rw [List.cons_append, List.cons.injEq] at htail
          obtain ⟨rfl, -⟩ := htail
          rw [behind_of_ne_nil b none pre' hnil] at hstart
          exact absurd hstart (hinner _ g (List.suffix_refl _) hm pre' v more hf hnil)

end Guarded

theorem replaceUnlessAfter_barred (hp : p.isFilled = true) (f : Hit → Line) (line : Line)
    (h : Barred p blocked none line []) : p.replaceUnlessAfter blocked f line = line := by
  have hpass : Guarded p blocked f none (line ++ []) (p.replaceUnlessAfter blocked f line) := by
    rw [List.append_nil]
    exact guarded_replaceUnlessAfter hp line
  obtain ⟨rest, heq, hrest⟩ := hpass.of_barred h
  rw [heq, hrest.unique (text_ne_nil p hp) (.nil _), List.append_nil]

/-- A match between two quiet stretches is replaced if no blocked character precedes it. -/
theorem replaceUnlessAfter_single (hp : p.isFilled = true) (blocked : Char → Bool)
    (f : Hit → Line) (pre mid post : Line) (h : Hit) (hpre : Quiet p none pre (mid ++ post))
    (hm : p.matchAt ⟨behind none pre, mid ++ post⟩ = some h) (ht : h.text = mid)
    (hfree : (behind none pre).any blocked = false)
    (hpost : Quiet p (behind (behind none pre) mid) post []) :
    p.replaceUnlessAfter blocked f (pre ++ (mid ++ post)) = pre ++ (f h ++ post) := by
  subst ht
  have hafter : h.after = post := List.append_cancel_left (matchAt_text p _ h hm)
  subst hafter
  have hkept : Guarded p blocked f (behind (behind none pre) h.text) h.after h.after := by
    have hquiet := hpost.guarded (.nil _ : Guarded p blocked f _ [] [])
    rwa [List.append_nil] at hquiet
  exact (guarded_replaceUnlessAfter hp _).unique (text_ne_nil p hp)
    (hpre.guarded (.hit hfree hm hkept))

end

end Pattern

end JvsSharp
