import JvsSharp.Proofs.Skeleton

/-!
# Parentheses and square brackets

A text is read with the closing characters that are due before it, and leaves
those that are due behind it. An edit keeps what stands between its matches,
so what a match leaves due decides whether a line is still nested: if no match
closes what was opened before it, a nested line stays nested if and only if
every match leaves in its new form what it has left before.
-/

set_option autoImplicit false

namespace JvsSharp

inductive Role where
  | opens (closing : Char)
  | closes
  | passes
  deriving DecidableEq, Repr

def role (c : Char) : Role :=
  if c = '(' then .opens ')'
  else if c = '[' then .opens ']'
  else if c = ')' ∨ c = ']' then .closes
  else .passes

/-- The closing characters that are due behind a character, if it is not one that is not due. -/
def pairStep (due : List Char) (c : Char) : Option (List Char) :=
  match role c with
  | .opens closing => some (closing :: due)
  | .closes => if due.head? = some c then some due.tail else none
  | .passes => some due

def openAfter (due : List Char) (line : Line) : Option (List Char) := line.foldlM pairStep due

def WellNested (line : Line) : Prop := openAfter [] line = some []

instance (line : Line) : Decidable (WellNested line) := inferInstanceAs (Decidable (_ = _))

section
variable {due e : List Char} {c : Char}

theorem pairStep_opens {closing : Char} (h : role c = .opens closing) :
    pairStep due c = some e ↔ e = closing :: due := by
  rw [pairStep, h, Option.some.injEq, eq_comm]

theorem pairStep_closes (h : role c = .closes) : pairStep due c = some e ↔ due = c :: e := by
  rw [pairStep, h]
  cases due with
  | nil => simp
  | cons d due => by_cases hd : d = c <;> simp [hd]

theorem pairStep_passes (h : role c = .passes) : pairStep due c = some e ↔ e = due := by
  rw [pairStep, h, Option.some.injEq, eq_comm]

theorem pairStep_frame (base : List Char) (h : pairStep due c = some e) :
    pairStep (due ++ base) c = some (e ++ base) := by
  cases hrole : role c with
  | opens closing => rw [pairStep_opens hrole] at h ⊢; rw [h, List.cons_append]
  | closes => rw [pairStep_closes hrole] at h ⊢; rw [h, List.cons_append]
  | passes => rw [pairStep_passes hrole] at h ⊢; rw [h]

/-- What is due behind a character tells what was due before it. -/
theorem pairStep_injective {due' : List Char} (h : pairStep due c = some e)
    (h' : pairStep due' c = some e) : due = due' := by
  cases hrole : role c with
  | opens closing =>
    rw [pairStep_opens hrole] at h h'
    exact (List.cons.inj (h.symm.trans h')).2
  | closes =>
    rw [pairStep_closes hrole] at h h'
    rw [h, h']
  | passes =>
    rw [pairStep_passes hrole] at h h'
    rw [← h, ← h']

theorem pairStep_count (h : pairStep due c = some e) :
    due.count ')' + [c].count '(' = e.count ')' + [c].count ')' := by
  by_cases hround : c = '('
  · subst hround
    rw [(pairStep_opens (show role '(' = .opens ')' from rfl)).1 h]
    simp
  by_cases hsquare : c = '['
  · subst hsquare
    rw [(pairStep_opens (show role '[' = .opens ']' from rfl)).1 h]
    simp
  by_cases hclose : c = ')'
  · subst hclose
    rw [(pairStep_closes (by decide)).1 h]
    simp
  by_cases hclose' : c = ']'
  · subst hclose'
    rw [(pairStep_closes (by decide)).1 h]
    simp
  · have hrole : role c = .passes := by simp [role, hround, hsquare, hclose, hclose']
    rw [(pairStep_passes hrole).1 h]
    simp [hround, hclose]

/-- Two stacks of one height stand on bases that do not both end at the character; then it
takes nothing from the bases. -/
theorem pairStep_above {t t' base base' e' : List Char} (hlength : t.length = t'.length)
    (hbase : ¬(base.head? = some c ∧ base'.head? = some c)) (h : pairStep (t ++ base) c = some e)
    (h' : pairStep (t' ++ base') c = some e') :
    ∃ u u', pairStep t c = some u ∧ pairStep t' c = some u' ∧ e = u ++ base ∧ e' = u' ++ base' ∧
      u.length = u'.length := by
  cases hrole : role c with
  | opens closing =>
    rw [pairStep_opens hrole] at h h'
    refine ⟨closing :: t, closing :: t', (pairStep_opens hrole).2 rfl, (pairStep_opens hrole).2 rfl,
      h, h', by simp [hlength]⟩
  | closes =>
    rw [pairStep_closes hrole] at h h'
    cases t with
    | nil =>
      have ht' : t' = [] := List.length_eq_zero_iff.1 hlength.symm
      rw [List.nil_append] at h
      rw [ht', List.nil_append] at h'
      exact absurd ⟨by rw [h]; rfl, by rw [h']; rfl⟩ hbase
    | cons d u =>
      cases t' with
      | nil => simp at hlength
      | cons d' u' =>
        rw [List.cons_append, List.cons.injEq] at h h'
        exact ⟨u, u', (pairStep_closes hrole).2 (by rw [h.1]),
          (pairStep_closes hrole).2 (by rw [h'.1]), h.2.symm, h'.2.symm, by simpa using hlength⟩
  | passes =>
    rw [pairStep_passes hrole] at h h'
    exact ⟨t, t', (pairStep_passes hrole).2 rfl, (pairStep_passes hrole).2 rfl, h, h', hlength⟩

/-- Taking the character off a stack that stands on it leaves a stack of the same height. -/
theorem pairStep_lowered {t : List Char} (hrole : role c = .closes)
    (h : pairStep (t ++ c :: due) c = some e) :
    ∃ u, pairStep (t ++ [c]) c = some u ∧ e = u ++ due ∧ u.length = t.length := by
  rw [pairStep_closes hrole] at h
  cases t with
  | nil =>
    rw [List.nil_append, List.cons.injEq] at h
    exact ⟨[], (pairStep_closes hrole).2 rfl, h.2.symm, rfl⟩
  | cons d t =>
    rw [List.cons_append, List.cons.injEq] at h
    refine ⟨t ++ [c], (pairStep_closes hrole).2 (by rw [h.1, List.cons_append]), ?_, by simp⟩
    rw [← h.2, List.append_assoc, List.singleton_append]

end

theorem openAfter_append (due : List Char) (xs ys : Line) :
    openAfter due (xs ++ ys) = (openAfter due xs).bind fun e => openAfter e ys :=
  List.foldlM_append

theorem openAfter_cons (due : List Char) (c : Char) (rest : Line) :
    openAfter due (c :: rest) = (pairStep due c).bind fun e => openAfter e rest := rfl

theorem openAfter_single (due : List Char) (c : Char) : openAfter due [c] = pairStep due c := by
  rw [openAfter_cons]
  exact Option.bind_fun_some _

theorem openAfter_pass {due e : List Char} {xs : Line} (h : openAfter due xs = some e)
    (ys : Line) : openAfter due (xs ++ ys) = openAfter e ys := by
  rw [openAfter_append, h, Option.bind_some]

theorem openAfter_frame {due e : List Char} (base : List Char) {line : Line}
    (h : openAfter due line = some e) : openAfter (due ++ base) line = some (e ++ base) := by
  induction line generalizing due with
  | nil =>
    cases h
    rfl
  | cons c rest ih =>
    rw [openAfter_cons, Option.bind_eq_some_iff] at h
    obtain ⟨d, hstep, hrest⟩ := h
    rw [openAfter_cons, pairStep_frame base hstep]
    exact ih hrest

theorem openAfter_above {t t' base base' e e' : List Char} {line : Line}
    (hlength : t.length = t'.length)
    (hbase : ∀ c ∈ line, ¬(base.head? = some c ∧ base'.head? = some c))
    (h : openAfter (t ++ base) line = some e) (h' : openAfter (t' ++ base') line = some e') :
    ∃ u u', openAfter t line = some u ∧ openAfter t' line = some u' ∧ e = u ++ base ∧
      e' = u' ++ base' ∧ u.length = u'.length := by
  induction line generalizing t t' with
  | nil =>
    cases h
    cases h'
    exact ⟨t, t', rfl, rfl, rfl, rfl, hlength⟩
  | cons c rest ih =>
    rw [openAfter_cons, Option.bind_eq_some_iff] at h h'
    obtain ⟨d, hstep, hrest⟩ := h
    obtain ⟨d', hstep', hrest'⟩ := h'
    obtain ⟨u, u', hu, hu', rfl, rfl, hheight⟩ :=
      pairStep_above hlength (hbase c (by simp)) hstep hstep'
    obtain ⟨v, v', hv, hv', hresult⟩ := ih hheight (fun x hx => hbase x (by simp [hx])) hrest hrest'
    exact ⟨v, v', by rw [openAfter_cons, hu]; exact hv, by rw [openAfter_cons, hu']; exact hv',
      hresult⟩

/-- Every parenthesis of a text that is opened is closed in it or due behind it. -/
theorem openAfter_count {due e : List Char} {line : Line} (h : openAfter due line = some e) :
    due.count ')' + line.count '(' = e.count ')' + line.count ')' := by
  induction line generalizing due with
  | nil =>
    cases h
    rfl
  | cons c rest ih =>
    rw [openAfter_cons, Option.bind_eq_some_iff] at h
    obtain ⟨d, hstep, hrest⟩ := h
    have hhead := pairStep_count hstep
    have htail := ih hrest
    rw [← List.singleton_append, List.count_append, List.count_append]
    omega

def KeepsHeight (xs ys : Line) : Prop :=
  ∀ due due' e e', openAfter due xs = some e → openAfter due' ys = some e' →
    ∃ u u', openAfter [] xs = some u ∧ openAfter [] ys = some u' ∧ e = u ++ due ∧
      e' = u' ++ due' ∧ u.length = u'.length

/-- A text by itself leaves the same characters due in its new form. -/
def LeavesSame (xs ys : Line) : Prop := (openAfter [] xs).isSome ∧ openAfter [] ys = openAfter [] xs

instance (xs ys : Line) : Decidable (LeavesSame xs ys) := inferInstanceAs (Decidable (_ ∧ _))

theorem role_of_not_isDelimiter (c : Char) (h : isDelimiter c = false) : role c = .passes := by
  have hne : ∀ d, isDelimiter d = true → c ≠ d := fun d hd heq => by simp [heq, hd] at h
  simp [role, hne '(' (by decide), hne '[' (by decide), hne ')' (by decide), hne ']' (by decide)]

theorem openAfter_skeleton (due : List Char) (line : Line) :
    openAfter due (skeleton line) = openAfter due line := by
  induction line generalizing due with
  | nil => rfl
  | cons c rest ih =>
    rw [skeleton, List.filter_cons, ← skeleton, openAfter_cons]
    by_cases hc : isDelimiter c = true
    · rw [if_pos hc, openAfter_cons]
      exact congrArg _ (funext ih)
    · have hstep := (pairStep_passes (role_of_not_isDelimiter c (by simpa using hc))).2
        (rfl : due = due)
      rw [if_neg hc, hstep]
      exact ih due

def SameEffect (xs ys : Line) : Prop := ∀ due, openAfter due ys = openAfter due xs

theorem SameEffect.piecewise : Piecewise SameEffect where
  nil _ := rfl
  char _ _ := rfl
  append {xs xs' ys ys'} hx hy due := by
    rw [openAfter_append, openAfter_append, hx due]
    exact congrArg _ (funext hy)

theorem sameEffect_of_skeleton {xs ys : Line} (h : skeleton ys = skeleton xs) :
    SameEffect xs ys := fun due => by
  rw [← openAfter_skeleton, h, openAfter_skeleton]

namespace Edit

def KeepsCall (e : Edit) : Prop :=
  (e.pattern.atoms = some e.templateAtoms ∨
    e.pattern.atoms = some (e.templateAtoms ++ [.sign '(', .sign ')'])) ∧
    ∀ part ∈ e.template, part.KeepsSkeleton

theorem render_sameEffect (e : Edit) (he : e.KeepsCall) (c : Place) (h : Hit)
    (hm : e.pattern.matchAt c = some h) : SameEffect h.text (e.render h) := by
  have hrender := e.render_skeleton he.2 h
  rcases he.1 with hatoms | hatoms
  · refine sameEffect_of_skeleton ?_
    rw [hrender, Pattern.matchAt_atoms _ _ hatoms c h hm]
  · intro due
    have htext := Pattern.matchAt_atoms _ _ hatoms c h hm
    rw [Atom.skeletonOf_append, ← hrender] at htext
    rw [← openAfter_skeleton due h.text, htext, openAfter_append, openAfter_skeleton]
    exact (Option.bind_fun_some _).symm

theorem wellNested_apply (e : Edit) (he : e.KeepsCall) (line : Line) :
    WellNested (e.apply line) ↔ WellNested line := by
  have heffect := Pattern.replaceAll_piecewise SameEffect.piecewise (e.render_sameEffect he) line
  rw [WellNested, WellNested, Edit.apply, heffect]

theorem wellNested_applyAll (es : List Edit) (hes : ∀ e ∈ es, e.KeepsCall) (line : Line) :
    WellNested (applyAll es line) ↔ WellNested line := by
  induction es generalizing line with
  | nil => rfl
  | cons e es ih =>
    calc WellNested (applyAll es (e.apply line))
      _ ↔ WellNested (e.apply line) := ih (fun e' he' => hes e' (by simp [he'])) _
      _ ↔ WellNested line := e.wellNested_apply (hes e (by simp)) line

/-- Between the same texts, a nested line stays nested if and only if each match leaves the
same. -/
theorem openAfter_segments (e : Edit) (ss : List Segment)
    (hheight : ∀ h, .hit h ∈ ss → KeepsHeight h.text (e.render h)) (due due' : List Char)
    (htext : openAfter due (ss.flatMap Segment.text) = some [])
    (hnew : openAfter due' (ss.flatMap (Segment.replace e.render)) = some []) :
    due = due' ∧ ∀ h, .hit h ∈ ss → LeavesSame h.text (e.render h) := by
  induction ss generalizing due due' with
  | nil =>
    have hd : due = [] := Option.some.inj htext
    have hd' : due' = [] := Option.some.inj hnew
    exact ⟨hd.trans hd'.symm, fun h hh => absurd hh List.not_mem_nil⟩
  | cons s ss ih =>
    rw [List.flatMap_cons, openAfter_append, Option.bind_eq_some_iff] at htext hnew
    obtain ⟨d, hs, hrest⟩ := htext
    obtain ⟨d', hs', hrest'⟩ := hnew
    obtain ⟨rfl, hall⟩ := ih (fun h hh => hheight h (by simp [hh])) d d' hrest hrest'
    cases s with
    | plain c =>
      change openAfter due [c] = some d at hs
      change openAfter due' [c] = some d at hs'
      rw [openAfter_single] at hs hs'
      exact ⟨pairStep_injective hs hs', fun h hh => hall h (by simpa using hh)⟩
    | hit h =>
      obtain ⟨u, u', hu, hu', hd, hd', hlength⟩ := hheight h (by simp) due due' d d hs hs'
      obtain ⟨hsame, hbefore⟩ := List.append_inj (hd.symm.trans hd') hlength
      refine ⟨hbefore, fun g hg => ?_⟩
      rcases List.mem_cons.1 hg with heq | hmem
      · cases heq
        exact ⟨by rw [hu]; rfl, by rw [hu, hu', hsame]⟩
      · exact hall g hmem

theorem openAfter_of_leavesSame {xs ys : Line} (h : LeavesSame xs ys) {due e : List Char}
    (hx : openAfter due xs = some e) : openAfter due ys = some e := by
  obtain ⟨u, hu⟩ := Option.isSome_iff_exists.1 h.1
  have hy := h.2.trans hu
  rw [← List.nil_append due, openAfter_frame due hu] at hx
  rw [← List.nil_append due, openAfter_frame due hy, hx]

theorem openAfter_replaced (e : Edit) (ss : List Segment)
    (hall : ∀ h, .hit h ∈ ss → LeavesSame h.text (e.render h)) (due last : List Char)
    (h : openAfter due (ss.flatMap Segment.text) = some last) :
    openAfter due (ss.flatMap (Segment.replace e.render)) = some last := by
  induction ss generalizing due with
  | nil => exact h
  | cons s ss ih =>
    rw [List.flatMap_cons, openAfter_append, Option.bind_eq_some_iff] at h
    obtain ⟨d, hs, hrest⟩ := h
    have hfirst : openAfter due (Segment.replace e.render s) = some d := by
      cases s with
      | plain c => exact hs
      | hit g => exact openAfter_of_leavesSame (hall g (by simp)) hs
    rw [List.flatMap_cons, openAfter_pass hfirst]
    exact ih (fun g hg => hall g (by simp [hg])) d hrest

theorem wellNested_apply_iff (e : Edit)
    (hheight : ∀ c h, e.pattern.matchAt c = some h → KeepsHeight h.text (e.render h))
    (line : Line) (hline : WellNested line) :
    WellNested (e.apply line) ↔
      ∀ h ∈ e.pattern.hits line, LeavesSame h.text (e.render h) := by
  have htext : openAfter [] ((e.pattern.segments line).flatMap Segment.text) = some [] := by
    rw [Pattern.segments_text]
    exact hline
  rw [WellNested, Edit.apply, Pattern.replaceAll_eq, Pattern.replaceFrom, ← Pattern.segments]
  constructor
  · intro hnew h hh
    refine (openAfter_segments e _ (fun g hg => ?_) [] [] htext hnew).2 h
      ((Pattern.mem_hits_iff _ line h).1 hh)
    obtain ⟨c, -, hm⟩ := Pattern.segmentsFrom_matchAt _ none 0 line g hg
    exact hheight c g hm
  · intro hall
    exact openAfter_replaced e _ (fun g hg => hall g ((Pattern.mem_hits_iff _ line g).2 hg)) [] []
      htext

end Edit

theorem openAfter_hit (p : Pattern) (line : Line) (hline : WellNested line) (h : Hit)
    (hh : h ∈ p.hits line) : ∃ c due e, p.matchAt c = some h ∧ openAfter due h.text = some e := by
  obtain ⟨c, ⟨before, hbefore⟩, hm⟩ :=
    Pattern.segmentsFrom_matchAt _ none 0 line h ((Pattern.mem_hits_iff p line h).1 hh)
  rw [← Pattern.matchAt_text p c h hm] at hbefore
  rw [WellNested, ← hbefore, openAfter_append, Option.bind_eq_some_iff] at hline
  obtain ⟨due, -, hline⟩ := hline
  rw [openAfter_append, Option.bind_eq_some_iff] at hline
  obtain ⟨e, he, -⟩ := hline
  exact ⟨c, due, e, hm, he⟩

section
variable {xs xs' ys ys' : Line} (hx : SameEffect xs xs') (hy : SameEffect ys ys')
include hx hy

theorem KeepsHeight.congr (h : KeepsHeight xs' ys') : KeepsHeight xs ys := by
  intro due due' e e'
  rw [← hx, ← hy, ← hx, ← hy]
  exact h due due' e e'

theorem leavesSame_congr : LeavesSame xs ys ↔ LeavesSame xs' ys' := by
  rw [LeavesSame, LeavesSame, hx, hy]

end

end JvsSharp
