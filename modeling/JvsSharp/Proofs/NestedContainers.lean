import JvsSharp.Proofs.ElidedAssignment
import JvsSharp.Proofs.Outermost
import JvsSharp.Proofs.TypeRuns

/-!
# Containers within the arguments of a container

A container with arguments occurs where its name and bracket are followed, in
the same run of type text, by what its arguments need. The match is a greedy
one: it goes on to the last closing bracket of the run, over all that is
nested in the arguments and over other declarations in the run as well.
-/

set_option autoImplicit false

namespace JvsSharp

namespace Pattern

variable {α : Type}

theorem mem_ends_all_cons (p : Pattern) (ps : List Pattern) (c : Place) (m : List Mark)
    (r : Place × List Mark) :
    r ∈ (all (p :: ps)).ends c m ↔ ∃ s ∈ p.ends c m, r ∈ (all ps).ends s.1 s.2 :=
  List.mem_flatMap

theorem ends_some (k : CharClass) (p : Pattern) (htakes : p.takes k = true)
    (hfilled : p.isFilled = true) (c : Place) (m : List Mark) (r : Place × List Mark)
    (h : r ∈ p.ends c m) :
    ∃ xs, xs ≠ [] ∧ (∀ x ∈ xs, k.mem x = true) ∧ c.rest = xs ++ r.1.rest := by
  obtain ⟨xs, hxs, hmem⟩ := ends_takes k p htakes c m r h
  have hlength := ends_isFilled p hfilled c m r h
  rw [hxs.1, List.length_append] at hlength
  exact ⟨xs, List.length_pos_iff.1 (by omega), hmem, hxs.1⟩

theorem mem_runEnds (k : CharClass) (b : Option Char) (xs rest : Line)
    (hx : ∀ x ∈ xs, k.mem x = true) : ⟨behind b xs, rest⟩ ∈ runEnds k b (xs ++ rest) := by
  induction xs generalizing b with
  | nil =>
    cases rest with
    | nil => exact List.mem_singleton.2 rfl
    | cons c rest =>
      rw [List.nil_append, runEnds]
      split
      · exact List.mem_append_right _ (List.mem_singleton.2 rfl)
      · exact List.mem_singleton.2 rfl
  | cons x xs ih =>
    rw [List.cons_append, runEnds, if_pos (hx x (by simp))]
    exact List.mem_append_left _ (ih (some x) fun y hy => hx y (by simp [hy]))

theorem stops_dropWhile (k : CharClass) (line : Line) : Stops k (line.dropWhile k.mem) := by
  have hnot := List.head?_dropWhile_not k.mem line
  unfold Stops
  cases hhead : (line.dropWhile k.mem).head? with
  | none => rfl
  | some c =>
    rw [hhead] at hnot
    simpa using hnot

theorem matchAt_isSome_iff (p : Pattern) (c : Place) :
    (p.matchAt c).isSome = true ↔ ∃ r, r ∈ p.ends c [] := by
  rw [matchAt_eq, Option.isSome_map, List.isSome_head?]
  cases p.ends c [] with
  | nil => simp
  | cons r rs => simp

theorem hit_of_ends (p : Pattern) (c : Place) (form : Hit → Prop)
    (hends : ∀ r ∈ p.ends c [], ∃ g, p.matchAt c = some g ∧ form g) (h : Hit)
    (hm : p.matchAt c = some h) : form h := by
  obtain ⟨r, hr⟩ := (matchAt_isSome_iff p c).1 (by rw [hm]; rfl)
  obtain ⟨g, hg, hform⟩ := hends r hr
  rw [hm] at hg
  exact Option.some.inj hg ▸ hform

theorem occursIn_iff (p : Pattern) (line : Line) :
    p.occursIn line = true ↔
      ∃ xs rest, line = xs ++ rest ∧ (p.matchAt ⟨behind none xs, rest⟩).isSome = true := by
  constructor
  · intro h
    obtain ⟨⟨skipped, hit⟩, hs⟩ := Option.isSome_iff_exists.1 h
    obtain ⟨hline, hm⟩ := searchFrom_text none line skipped hit hs
    exact ⟨skipped, _, hline, by rw [hm]; rfl⟩
  · rintro ⟨xs, rest, hline, hm⟩
    cases hocc : p.occursIn line with
    | true => rfl
    | false =>
      have habsent : p.search line = none := by simpa [occursIn] using hocc
      rw [hline, search, searchFrom_eq_none_iff, quiet_append, behind_append] at habsent
      cases rest with
      | nil =>
        rw [show behind none xs = behind (behind none xs) [] from rfl, habsent.2] at hm
        exact absurd hm Bool.false_ne_true
      | cons c rest =>
        have hquiet := habsent.1.2.1
        rw [List.append_nil] at hquiet
        rw [hquiet] at hm
        exact absurd hm Bool.false_ne_true

theorem runK_none (k : CharClass) (f : Place → Option α) (b : Option Char) (rest : Line)
    (hf : ∀ us vs b', (∀ u ∈ us, k.mem u = true) → us ++ vs = rest → f ⟨b', vs⟩ = none) :
    runK k f b rest = none := by
  induction rest generalizing b with
  | nil => exact hf [] [] b (by simp) rfl
  | cons c rest ih =>
    have hhere : f ⟨b, c :: rest⟩ = none := hf [] (c :: rest) b (by simp) rfl
    rw [runK]
    by_cases hc : k.mem c = true
    · have hlater : runK k f (some c) rest = none :=
        ih (some c) fun us vs b' hus heq =>
          hf (c :: us) vs b' (List.forall_mem_cons.2 ⟨hc, hus⟩) (by rw [List.cons_append, heq])
      rw [if_pos hc, hlater, hhere]
      rfl
    · rw [if_neg hc, hhere]

/-- A run gives nothing back of a text if its continuation fails at all places behind it. -/
theorem runK_longest (k : CharClass) (f : Place → Option α) (b : Option Char) (xs rest : Line)
    (hx : ∀ x ∈ xs, k.mem x = true)
    (hlonger : ∀ us vs b', us ≠ [] → (∀ u ∈ us, k.mem u = true) → us ++ vs = rest →
      f ⟨b', vs⟩ = none) (r : α) (hf : f ⟨behind b xs, rest⟩ = some r) :
    runK k f b (xs ++ rest) = some r := by
  induction xs generalizing b with
  | nil =>
    cases rest with
    | nil => exact hf
    | cons c rest =>
      rw [List.nil_append, runK]
      by_cases hc : k.mem c = true
      · have hlater : runK k f (some c) rest = none :=
          runK_none k f (some c) rest fun us vs b' hus heq =>
            hlonger (c :: us) vs b' (by simp) (List.forall_mem_cons.2 ⟨hc, hus⟩)
              (by rw [List.cons_append, heq])
        rw [if_pos hc, hlater]
        exact hf
      · rw [if_neg hc]
        exact hf
  | cons x xs ih =>
    rw [List.cons_append, runK, if_pos (hx x (by simp)),
      ih (some x) (fun y hy => hx y (by simp [hy])) hf]
    rfl

theorem matchK_longest (k : CharClass) (b : Option Char) (xs rest : Line) (m : List Mark)
    (f : Place → List Mark → Option α) (hne : xs ≠ []) (hx : ∀ x ∈ xs, k.mem x = true)
    (hlonger : ∀ us vs b', us ≠ [] → (∀ u ∈ us, k.mem u = true) → us ++ vs = rest →
      f ⟨b', vs⟩ m = none) (r : α) (hf : f ⟨behind b xs, rest⟩ m = some r) :
    (stretch k).matchK ⟨b, xs ++ rest⟩ m f = some r := by
  cases xs with
  | nil => exact absurd rfl hne
  | cons x xs =>
    have hrun := runK_longest k (fun c => f c m) (some x) xs rest
      (fun y hy => hx y (by simp [hy])) hlonger r hf
    have hmem : k.mem x = true := hx x (by simp)
    simp only [stretch, matchK, List.cons_append, hmem, if_true]
    exact hrun

theorem matchK_stretch_none (k : CharClass) (b : Option Char) (rest : Line) (m : List Mark)
    (f : Place → List Mark → Option α)
    (hf : ∀ us vs b', us ≠ [] → (∀ u ∈ us, k.mem u = true) → us ++ vs = rest →
      f ⟨b', vs⟩ m = none) : (stretch k).matchK ⟨b, rest⟩ m f = none := by
  cases rest with
  | nil => rfl
  | cons c rest =>
    by_cases hc : k.mem c = true
    · have hrun : runK k (fun c => f c m) (some c) rest = none :=
        runK_none k _ (some c) rest fun us vs b' hus heq =>
          hf (c :: us) vs b' (by simp) (List.forall_mem_cons.2 ⟨hc, hus⟩)
            (by rw [List.cons_append, heq])
      simp only [stretch, matchK, hc, if_true]
      exact hrun
    · simp only [stretch, matchK, if_neg hc]

end Pattern

namespace ContainerShape
open Pattern Need

def needs (s : ContainerShape) : List Need :=
  if s.mapLike then [any, sign ',', any, sign '>'] else [any, sign '>']

theorem needs_steady (s : ContainerShape) : areSteady s.needs = true := by
  unfold needs
  split <;> decide

theorem closing_needed (s : ContainerShape) : [sign '>'] <:+ s.needs := by
  unfold needs
  split
  · exact ⟨[any, sign ',', any], rfl⟩
  · exact ⟨[any], rfl⟩

section
variable {name : Line}

theorem areMet_any_sign (d : Char) (hd : Rules.typeText.mem d = true)
    (hword : Unicode.isWord d = false) (ns : List Need) (w xs rest : Line) (hne : xs ≠ [])
    (hx : ∀ x ∈ xs, Rules.typeText.mem x = true) (hmet : areMet name ns [] rest = true) :
    areMet name (any :: sign d :: ns) w (xs ++ d :: rest) = true := by
  cases xs with
  | nil => exact absurd rfl hne
  | cons x xs =>
    rw [List.cons_append, areMet_cons, hx x (by simp), Bool.true_and]
    change areMet name (sign d :: ns) _ (xs ++ d :: rest) = true
    refine areMet_of_later _ _ xs _ (fun y hy => hx y (by simp [hy])) ?_
    rw [areMet_cons, hd, Bool.true_and, wordBehind_other _ d hword, after,
      if_pos (by simp [isMet])]
    exact hmet

theorem not_closed (rest us vs : Line) (hrest : areMet name [sign '>'] [] rest = false)
    (heq : rest = us ++ '>' :: vs) : ¬∀ u ∈ us, Rules.typeText.mem u = true := by
  intro hus
  have hmet : areMet name [sign '>'] [] rest = true := by
    rw [heq]
    refine areMet_of_later _ _ us _ hus ?_
    rw [areMet_cons, after, if_pos (by simp [isMet]), areMet_nil]
    decide
  rw [hmet] at hrest
  exact absurd hrest.symm Bool.false_ne_true

end

theorem value_ends (c : Place) (m : List Mark) (r : Place × List Mark)
    (h : r ∈ (all [valueType, ">"]).ends c m) :
    ∃ xs, xs ≠ [] ∧ (∀ x ∈ xs, Rules.typeText.mem x = true) ∧
      c.rest = xs ++ '>' :: r.1.rest := by
  obtain ⟨value, hvalue, h⟩ := (mem_ends_all_cons _ _ c m r).1 h
  obtain ⟨xs, hne, hx, hrest⟩ := ends_some Rules.typeText valueType (by decide) (by decide) c m
    value hvalue
  obtain ⟨hclose, -⟩ := mem_ends_text ['>'] _ _ r ((mem_ends_all_single _ _ _ r).1 h)
  exact ⟨xs, hne, hx, by rw [hrest, hclose]; rfl⟩

/-- Arguments that are matched meet what is needed of them. -/
theorem areMet_of_arguments (s : ContainerShape) (c : Place) (m : List Mark)
    (r : Place × List Mark) (h : r ∈ s.arguments.ends c m) :
    ∃ t, c.rest = '<' :: t ∧ areMet s.source.toList s.needs [] t = true := by
  have hfirst : (Pattern.group 1 (stretch Rules.typeText)).takes Rules.typeText = true := by decide
  have hfilled : (Pattern.group 1 (stretch Rules.typeText)).isFilled = true := rfl
  cases hs : s.mapLike with
  | true =>
    rw [arguments, if_pos hs] at h
    obtain ⟨c₁, h₁, h⟩ := (mem_ends_all_cons _ _ c m r).1 h
    obtain ⟨c₂, h₂, h⟩ := (mem_ends_all_cons _ _ _ _ r).1 h
    obtain ⟨c₃, h₃, h⟩ := (mem_ends_all_cons _ _ _ _ r).1 h
    obtain ⟨hopen, -⟩ := mem_ends_text ['<'] c m c₁ h₁
    obtain ⟨xs, hne, hx, hrest⟩ := ends_some Rules.typeText _ hfirst hfilled _ _ c₂ h₂
    obtain ⟨hcomma, -⟩ := mem_ends_text [','] _ _ c₃ h₃
    obtain ⟨ys, hne', hy, hrest'⟩ := value_ends _ _ r h
    refine ⟨xs ++ ',' :: (ys ++ '>' :: r.1.rest), ?_, ?_⟩
    · rw [hopen, hrest, hcomma, hrest']
      rfl
    · rw [needs, if_pos hs]
      refine areMet_any_sign ',' (by decide) (by decide) _ _ xs _ hne hx ?_
      exact areMet_any_sign '>' (by decide) (by decide) _ _ ys _ hne' hy (areMet_nil _ _)
  | false =>
    rw [arguments, if_neg (by simp [hs])] at h
    obtain ⟨c₁, h₁, h⟩ := (mem_ends_all_cons _ _ c m r).1 h
    obtain ⟨c₂, h₂, h⟩ := (mem_ends_all_cons _ _ _ _ r).1 h
    obtain ⟨hopen, -⟩ := mem_ends_text ['<'] c m c₁ h₁
    obtain ⟨xs, hne, hx, hrest⟩ := ends_some Rules.typeText _ hfirst hfilled _ _ c₂ h₂
    obtain ⟨hclose, -⟩ := mem_ends_text ['>'] _ _ r ((mem_ends_all_single _ _ _ r).1 h)
    refine ⟨xs ++ '>' :: r.1.rest, ?_, ?_⟩
    · rw [hopen, hrest, hclose]
      rfl
    · rw [needs, if_neg (by simp [hs])]
      exact areMet_any_sign '>' (by decide) (by decide) _ _ xs _ hne hx (areMet_nil _ _)

theorem value_choices {α : Type} (b : Option Char) (gap rest : Line) (m : List Mark)
    (f : Place → List Mark → Option α) (hgap : ∀ x ∈ gap, Unicode.isBlank x = true)
    (hstops : Stops .blank rest) :
    valueType.matchK ⟨b, gap ++ rest⟩ m f =
      (((Pattern.seq (.span plainTypeText) ",").matchK ⟨behind b gap, rest⟩ m fun c m =>
          f c (⟨2, rest, c.rest⟩ :: m)).or
        ((stretch plainTypeText).matchK ⟨behind b gap, rest⟩ m fun c m =>
          f c (⟨2, rest, c.rest⟩ :: m))).or
      ((Pattern.seq slack (.group 2 (.one .blank))).matchK ⟨b, gap ++ rest⟩ m f) := by
  have hspan : ∀ g : Place → List Mark → Option α,
      Pattern.gap.matchK ⟨b, gap ++ rest⟩ m g = g ⟨behind b gap, rest⟩ m := fun g =>
    matchK_span .blank b gap rest m g hgap hstops
  simp only [valueType, matchK, hspan]

section
variable {α : Type} {name after : Line} (hafter : areMet name [sign '>'] [] after = false)
include hafter

/-- A choice that ends with a comma and a bracket finds none behind the last bracket. -/
theorem commaEnd_none (b : Option Char) (xs : Line) (hx : ∀ x ∈ xs, plainTypeText.mem x = true)
    (m : List Mark) (mark : Line → Mark) (f : Place → List Mark → Option α) :
    (Pattern.seq (.span plainTypeText) ",").matchK ⟨b, xs ++ '>' :: after⟩ m
      (fun c m => (all [">"]).matchK c (mark c.rest :: m) f) = none := by
  have hcut : after.takeWhile plainTypeText.mem ++ after.dropWhile plainTypeText.mem = after :=
    List.takeWhile_append_dropWhile
  have htaken : ∀ x ∈ after.takeWhile plainTypeText.mem, plainTypeText.mem x = true :=
    List.all_eq_true.1 List.all_takeWhile
  have hall : ∀ x ∈ xs ++ '>' :: after.takeWhile plainTypeText.mem, plainTypeText.mem x = true :=
    List.forall_mem_append.2 ⟨hx, List.forall_mem_cons.2 ⟨by decide, htaken⟩⟩
  have htext : xs ++ '>' :: after =
      (xs ++ '>' :: after.takeWhile plainTypeText.mem) ++ after.dropWhile plainTypeText.mem := by
    rw [List.append_assoc, List.cons_append, hcut]
  rw [htext, matchK, matchK_span plainTypeText b _ _ m _ hall (stops_dropWhile _ after)]
  cases hrest : after.dropWhile plainTypeText.mem with
  | nil => rfl
  | cons d rest =>
    by_cases hd : d = ','
    · subst hd
      refine (matchK_char ',' _ rest m _).trans ?_
      refine matchK_char_none '>' _ rest _ _ fun hhead => ?_
      obtain ⟨vs, rfl⟩ : ∃ vs, rest = '>' :: vs := by
        cases rest with
        | nil => simp at hhead
        | cons e vs => exact ⟨vs, by simpa using hhead⟩
      refine not_closed after (after.takeWhile plainTypeText.mem ++ [',']) vs hafter ?_ ?_
      · rw [List.append_assoc, List.singleton_append, ← hrest, hcut]
      · exact List.forall_mem_append.2
          ⟨fun x hmem => typeText_of_plain x (htaken x hmem), by decide⟩
    · exact matchK_char_none ',' _ (d :: rest) m _ (by simpa using hd)

theorem bracket_none (k : CharClass) (hk : ∀ x, k.mem x = true → Rules.typeText.mem x = true)
    (us vs : Line) (b : Option Char) (m : List Mark) (f : Place → List Mark → Option α)
    (hne : us ≠ []) (hus : ∀ u ∈ us, k.mem u = true) (heq : us ++ vs = '>' :: after) :
    (all [">"]).matchK ⟨b, vs⟩ m f = none := by
  refine matchK_char_none '>' b vs m _ fun hhead => ?_
  cases us with
  | nil => exact absurd rfl hne
  | cons u us =>
    rw [List.cons_append, List.cons.injEq] at heq
    cases vs with
    | nil => simp at hhead
    | cons v vs =>
      have hv : v = '>' := by simpa using hhead
      exact not_closed after us vs hafter (by rw [← heq.2, hv]) fun x hx =>
        hk x (hus x (by simp [hx]))

/-- A value that is not blank is read up to the last bracket. -/
theorem value_matchK (gap second : Line) (last : Char) (hgap : ∀ x ∈ gap, Unicode.isBlank x = true)
    (hsecond : ∀ x ∈ second, plainTypeText.mem x = true) (hlast : Rules.typeText.mem last = true)
    (hstart : Stops .blank (second ++ [last])) (b : Option Char) (m : List Mark)
    (f : Place → List Mark → Option α) (r : α)
    (hf : f ⟨some '>', after⟩
      (⟨2, second ++ [last] ++ '>' :: after, '>' :: after⟩ :: m) = some r) :
    (valueType.matchK ⟨b, gap ++ (second ++ [last] ++ '>' :: after)⟩ m fun c m =>
      (all [">"]).matchK c m f) = some r := by
  have hstops : Stops .blank (second ++ [last] ++ '>' :: after) := by
    rw [Stops, List.append_assoc, List.head?_append, List.singleton_append]
    rw [Stops, List.head?_append] at hstart
    cases hhead : second.head? with
    | none => simpa [hhead] using hstart
    | some x => simpa [hhead] using hstart
  rw [value_choices b gap _ m _ hgap hstops]
  by_cases hcomma : last = ','
  · -- A comma right before the bracket belongs to the first choice.
    have hspan : (Pattern.seq (.span plainTypeText) ",").matchK
        ⟨behind b gap, second ++ [last] ++ '>' :: after⟩ m (fun c m =>
          (all [">"]).matchK c (⟨2, second ++ [last] ++ '>' :: after, c.rest⟩ :: m) f) =
        some r := by
      rw [hcomma, List.append_assoc, List.singleton_append] at hf ⊢
      rw [matchK, matchK_span plainTypeText _ second _ m _ hsecond
        (stops_cons _ ',' _ (by decide))]
      refine (matchK_char ',' _ _ m _).trans ?_
      exact (matchK_char '>' _ _ _ _).trans hf
    rw [hspan]
    rfl
  · have hplain : ∀ x ∈ second ++ [last], plainTypeText.mem x = true :=
      List.forall_mem_append.2
        ⟨hsecond, List.forall_mem_singleton.2 (plain_of_typeText last hlast hcomma)⟩
    have hstretch := matchK_longest plainTypeText (behind b gap) (second ++ [last]) ('>' :: after) m
      (fun c m => (all [">"]).matchK c (⟨2, second ++ [last] ++ '>' :: after, c.rest⟩ :: m) f)
      (by simp) hplain (fun us vs b' hne hus heq =>
        bracket_none hafter plainTypeText typeText_of_plain us vs b' _ f hne hus heq) r
      ((matchK_char '>' _ _ _ _).trans hf)
    rw [commaEnd_none hafter _ _ hplain m
      (fun rest => ⟨2, second ++ [last] ++ '>' :: after, rest⟩) f, hstretch]
    rfl

/-- Of a blank value the last character is kept. -/
theorem value_blank_matchK (gap : Line) (last : Char) (hgap : ∀ x ∈ gap, Unicode.isBlank x = true)
    (hlast : Unicode.isBlank last = true) (b : Option Char) (m : List Mark)
    (f : Place → List Mark → Option α) (r : α)
    (hf : f ⟨some '>', after⟩ (⟨2, last :: '>' :: after, '>' :: after⟩ :: m) = some r) :
    (valueType.matchK ⟨b, gap ++ (last :: '>' :: after)⟩ m fun c m =>
      (all [">"]).matchK c m f) = some r := by
  have hall : ∀ x ∈ gap ++ [last], Unicode.isBlank x = true :=
    List.forall_mem_append.2 ⟨hgap, List.forall_mem_singleton.2 hlast⟩
  have htext : gap ++ (last :: '>' :: after) = (gap ++ [last]) ++ '>' :: after := by simp
  have hslack := runK_longest .blank (fun c => (Pattern.group 2 (.one .blank)).matchK c m fun c m =>
    (all [">"]).matchK c m f) b gap (last :: '>' :: after) hgap ?_ r ?_
  · rw [htext, value_choices b (gap ++ [last]) _ m _ hall (stops_cons _ '>' _ (by decide)),
      ← List.nil_append ('>' :: after), commaEnd_none hafter _ [] (by simp) m
      (fun rest => ⟨2, [] ++ '>' :: after, rest⟩) f, List.nil_append,
      matchK_stretch_none plainTypeText _ _ _ _ fun us vs b' hne hus heq =>
        bracket_none hafter plainTypeText typeText_of_plain us vs b' _ f hne hus heq, ← htext]
    exact hslack
  · intro us vs b' hne hus heq
    -- Only the last blank can be taken besides, and no blank is left behind it.
    cases us with
    | nil => exact absurd rfl hne
    | cons u us =>
      rw [List.cons_append, List.cons.injEq] at heq
      cases us with
      | nil =>
        have hblank : CharClass.blank.mem '>' = false := by decide
        rw [show vs = '>' :: after from heq.2]
        simp only [matchK, hblank]
        rfl
      | cons u' us =>
        rw [List.cons_append, List.cons.injEq] at heq
        exact absurd (hus u' (by simp)) (by rw [heq.2.1]; decide)
  · have hone : CharClass.blank.mem last = true := hlast
    refine (if_pos hone).trans ?_
    exact (matchK_char '>' _ _ _ _).trans hf

theorem exists_value (text : Line) (last : Char) (hcomma : ',' ∉ text)
    (htype : ∀ x ∈ text ++ [last], Rules.typeText.mem x = true) :
    ∃ gap second, text ++ [last] = gap ++ second ∧ (∀ x ∈ gap, Unicode.isBlank x = true) ∧
      second ≠ [] ∧ ∀ (b : Option Char) (m : List Mark) (f : Place → List Mark → Option α) (r : α),
        f ⟨some '>', after⟩ (⟨2, second ++ '>' :: after, '>' :: after⟩ :: m) = some r →
        (valueType.matchK ⟨b, text ++ [last] ++ '>' :: after⟩ m fun c m =>
          (all [">"]).matchK c m f) = some r := by
  have hcut : text.takeWhile Unicode.isBlank ++ text.dropWhile Unicode.isBlank = text :=
    List.takeWhile_append_dropWhile
  have hgap : ∀ x ∈ text.takeWhile Unicode.isBlank, Unicode.isBlank x = true :=
    List.all_eq_true.1 List.all_takeWhile
  have hlast : Rules.typeText.mem last = true := htype last (by simp)
  by_cases hblank : text.dropWhile Unicode.isBlank = [] ∧ Unicode.isBlank last = true
  · rw [hblank.1, List.append_nil] at hcut
    rw [hcut] at hgap
    refine ⟨text, [last], rfl, hgap, by simp, fun b m f r hf => ?_⟩
    rw [List.append_assoc]
    exact value_blank_matchK hafter text last hgap hblank.2 b m f r hf
  · refine ⟨text.takeWhile Unicode.isBlank, text.dropWhile Unicode.isBlank ++ [last], ?_, hgap,
      by simp, fun b m f r hf => ?_⟩
    · rw [← List.append_assoc, hcut]
    · have hsecond : ∀ x ∈ text.dropWhile Unicode.isBlank, plainTypeText.mem x = true := by
        intro x hx
        have hmem : x ∈ text := (List.dropWhile_suffix _).subset hx
        refine plain_of_typeText x (htype x (by simp [hmem])) ?_
        rintro rfl
        exact hcomma hmem
      have hstart : Stops .blank (text.dropWhile Unicode.isBlank ++ [last]) := by
        have hnot := List.head?_dropWhile_not Unicode.isBlank text
        rw [Stops, List.head?_append]
        cases hhead : text.dropWhile Unicode.isBlank with
        | nil => simpa [CharClass.mem, hhead] using hblank
        | cons c rest => simpa [CharClass.mem, hhead] using hnot
      have hmatch := value_matchK hafter _ _ last hgap hsecond hlast hstart b m f r hf
      rw [← hcut, List.append_assoc, List.append_assoc]
      rw [List.append_assoc] at hmatch
      exact hmatch

/-- A comma behind a text without one leaves nothing before the last bracket. -/
theorem comma_too_late (text : Line) (last : Char) (hcomma : ',' ∉ text) (us ys rest : Line)
    (hus : ∀ u ∈ us, Rules.typeText.mem u = true) (hne : ys ≠ [])
    (hys : ∀ y ∈ ys, Rules.typeText.mem y = true) :
    us ++ ',' :: (ys ++ '>' :: rest) ≠ text ++ last :: '>' :: after := by
  intro heq
  -- Where the comma is the last character, the text behind it starts with the bracket.
  have hlast : ys ++ '>' :: rest ≠ '>' :: after := by
    intro hsame
    cases ys with
    | nil => exact hne rfl
    | cons y ys =>
      rw [List.cons_append, List.cons.injEq] at hsame
      exact not_closed after ys rest hafter hsame.2.symm fun u hu => hys u (by simp [hu])
  rcases List.append_eq_append_iff.1 heq with ⟨as, htext, hsplit⟩ | ⟨bs, hsame, hsplit⟩
  · cases as with
    | nil =>
      rw [List.nil_append, List.cons.injEq] at hsplit
      exact hlast hsplit.2
    | cons a as =>
      rw [List.cons_append, List.cons.injEq] at hsplit
      exact hcomma (by simp [htext, ← hsplit.1])
  · cases bs with
    | nil =>
      rw [List.nil_append, List.cons.injEq] at hsplit
      exact hlast hsplit.2.symm
    | cons b bs =>
      rw [List.cons_append, List.cons.injEq] at hsplit
      cases bs with
      | nil => exact absurd (List.cons.inj hsplit.2).1 (by decide)
      | cons b' bs =>
        rw [List.cons_append, List.cons.injEq] at hsplit
        refine not_closed after (bs ++ ',' :: ys) rest hafter (by simpa using hsplit.2.2) ?_
        exact List.forall_mem_append.2 ⟨fun u hu => hus u (by simp [hsame, hu]),
          List.forall_mem_cons.2 ⟨by decide, hys⟩⟩

/-- Behind the last comma that leaves something for the value there is no other one. -/
theorem later_comma_none (text : Line) (last : Char) (hcomma : ',' ∉ text)
    (us vs : Line) (b : Option Char) (m : List Mark) (f : Place → List Mark → Option α)
    (hne : us ≠ []) (hus : ∀ u ∈ us, Rules.typeText.mem u = true)
    (heq : us ++ vs = ',' :: (text ++ [last] ++ '>' :: after)) :
    (all [",", valueType, ">"]).matchK ⟨b, vs⟩ m f = none := by
  rw [matchK_all_cons]
  cases vs with
  | nil => rfl
  | cons v vs =>
    by_cases hv : v = ','
    · subst hv
      refine (matchK_char ',' b vs m _).trans ?_
      rw [matchK_eq, List.findSome?_eq_none_iff]
      intro r hr
      obtain ⟨ys, hys, hy, hrest⟩ := value_ends ⟨some ',', vs⟩ m r hr
      cases us with
      | nil => exact absurd rfl hne
      | cons u us =>
        rw [show vs = ys ++ '>' :: r.1.rest from hrest, List.cons_append, List.cons.injEq,
          List.append_assoc] at heq
        exact absurd heq.2 (comma_too_late hafter text last hcomma us ys _
          (fun x hx => hus x (by simp [hx])) hys hy)
    · exact matchK_char_none ',' b (v :: vs) m _ (by simpa using hv)

/-- The arguments of a map are cut at that comma and read up to the last bracket. -/
theorem map_arguments_matchK (s : ContainerShape) (hs : s.mapLike = true) (first text : Line)
    (last : Char) (hne : first ≠ []) (hfirst : ∀ x ∈ first, Rules.typeText.mem x = true)
    (hcomma : ',' ∉ text) (htype : ∀ x ∈ text ++ [last], Rules.typeText.mem x = true) :
    ∃ gap second, text ++ [last] = gap ++ second ∧ (∀ x ∈ gap, Unicode.isBlank x = true) ∧
      second ≠ [] ∧ ∀ (b : Option Char) (m : List Mark) (f : Place → List Mark → Option α) (r : α),
        f ⟨some '>', after⟩ (⟨2, second ++ '>' :: after, '>' :: after⟩ ::
          ⟨1, first ++ ',' :: (text ++ [last] ++ '>' :: after),
            ',' :: (text ++ [last] ++ '>' :: after)⟩ :: m) = some r →
        s.arguments.matchK ⟨b, '<' :: (first ++ ',' :: (text ++ [last] ++ '>' :: after))⟩ m f =
          some r := by
  obtain ⟨gap, second, hcut, hgap, hsecond, hvalue⟩ := exists_value hafter text last hcomma htype
  refine ⟨gap, second, hcut, hgap, hsecond, fun b m f r hf => ?_⟩
  rw [arguments, if_pos hs, matchK_all_cons]
  refine (matchK_char '<' b _ m _).trans ?_
  rw [matchK_all_cons, matchK]
  refine matchK_longest Rules.typeText (some '<') first _ m _ hne hfirst
    (fun us vs b' hne hus heq => later_comma_none hafter text last hcomma us vs b' _ f hne hus heq)
    r ?_
  rw [matchK_all_cons]
  refine (matchK_char ',' _ _ _ _).trans ?_
  exact hvalue _ _ f r hf

theorem list_arguments_matchK (s : ContainerShape) (hs : s.mapLike = false) (args : Line)
    (hne : args ≠ []) (hargs : ∀ x ∈ args, Rules.typeText.mem x = true) (b : Option Char)
    (m : List Mark) (f : Place → List Mark → Option α) (r : α)
    (hf : f ⟨some '>', after⟩ (⟨1, args ++ '>' :: after, '>' :: after⟩ :: m) = some r) :
    s.arguments.matchK ⟨b, '<' :: (args ++ '>' :: after)⟩ m f = some r := by
  rw [arguments, if_neg (by simp [hs]), matchK_all_cons]
  refine (matchK_char '<' b _ m _).trans ?_
  rw [matchK_all_cons, matchK]
  exact matchK_longest Rules.typeText (some '<') args _ m _ hne hargs
    (fun us vs b' hne hus heq =>
      bracket_none hafter Rules.typeText (fun _ h => h) us vs b' _ f hne hus heq) r
    ((matchK_char '>' _ _ _ _).trans hf)

end

def Respaced (args written : Line) : Prop :=
  args = written ∨ ∃ first gap second, args = first ++ ',' :: (gap ++ second) ∧
    written = first ++ ',' :: ' ' :: second ∧ (∀ x ∈ gap, Unicode.isBlank x = true) ∧ second ≠ []

structure Renames (s : ContainerShape) (h : Hit) (args written : Line) : Prop where
  text : h.text = generic s.source.toList args []
  render : s.declared.render h = generic s.target.toList written []
  respaced : Respaced args written
  kept : s.mapLike = false → args = written
  type : ∀ x ∈ args, Rules.typeText.mem x = true
  closed : areMet s.source.toList [sign '>'] [] h.after = false

theorem mem_ends_opening (s : ContainerShape) (hs : s ∈ known) (c : Place) (m : List Mark)
    (ps : List Pattern) (r : Place × List Mark) :
    r ∈ (all (.edge :: lit s.source :: ps)).ends c m ↔
      c.before.any Unicode.isWord = false ∧ ∃ rest, c.rest = s.source.toList ++ rest ∧
        r ∈ (all ps).ends ⟨behind c.before s.source.toList, rest⟩ m := by
  obtain ⟨hne, hword⟩ := source_word s hs
  constructor
  · intro h
    obtain ⟨c₁, h₁, h⟩ := (mem_ends_all_cons _ _ c m r).1 h
    obtain ⟨hedge, rfl⟩ := mem_ends_edge c m c₁ h₁
    obtain ⟨c₂, h₂, h⟩ := (mem_ends_all_cons _ _ _ _ r).1 h
    rw [lit, ends, List.mem_map] at h₂
    obtain ⟨c', hc, rfl⟩ := h₂
    have hleads : c.Leads s.source.toList c' := skip?_leads _ c c' (by simpa using hc)
    refine ⟨Place.outside_of_atEdge hleads hne hword hedge, c'.rest, hleads.1, ?_⟩
    rw [← hleads.2]
    exact h
  · rintro ⟨hout, rest, hrest, h⟩
    have hedge : c.atEdge = true := by
      rw [show c = ⟨c.before, s.source.toList ++ rest⟩ by rw [← hrest]]
      exact Place.atEdge_word c.before _ _ hout hne hword
    refine (mem_ends_all_cons _ _ c m r).2 ⟨(c, m), by rw [ends, if_pos hedge]; simp, ?_⟩
    refine (mem_ends_all_cons _ _ c m r).2 ⟨(⟨behind c.before s.source.toList, rest⟩, m), ?_, h⟩
    rw [lit, ends, skip?_of_leads _ c ⟨behind c.before s.source.toList, rest⟩ ⟨hrest, rfl⟩]
    simp

theorem mem_ends_bracket (b : Option Char) (t : Line) (m : List Mark) (ps : List Pattern)
    (r : Place × List Mark) :
    r ∈ (all ("<" :: .run Rules.typeText :: ps)).ends ⟨b, t⟩ m ↔
      ∃ xs rest, t = '<' :: (xs ++ rest) ∧ (∀ x ∈ xs, Rules.typeText.mem x = true) ∧
        r ∈ (all ps).ends ⟨behind (some '<') xs, rest⟩ m := by
  constructor
  · intro h
    obtain ⟨c₁, h₁, h⟩ := (mem_ends_all_cons _ _ _ m r).1 h
    obtain ⟨c₂, h₂, h⟩ := (mem_ends_all_cons _ _ _ _ r).1 h
    rw [lit, ends, List.mem_map] at h₁
    obtain ⟨place, hskip, rfl⟩ := h₁
    obtain ⟨hopen, hbehind⟩ := skip?_leads ['<'] _ place (by simpa using hskip)
    rw [ends, List.mem_map] at h₂
    obtain ⟨inner, hrun, rfl⟩ := h₂
    obtain ⟨xs, hxs, hx⟩ := runEnds_passes _ _ _ _ hrun
    have hplace : inner = ⟨behind (some '<') xs, inner.rest⟩ := by
      rw [show some '<' = place.before from hbehind.symm, ← hxs.2]
    have htext : t = '<' :: (xs ++ inner.rest) := by
      rw [← hxs.1]
      exact hopen
    exact ⟨xs, inner.rest, htext, hx, hplace ▸ h⟩
  · rintro ⟨xs, rest, rfl, hx, h⟩
    refine (mem_ends_all_cons _ _ _ m r).2
      ⟨(⟨some '<', xs ++ rest⟩, m), by simp [lit, ends, Place.skip?], ?_⟩
    refine (mem_ends_all_cons _ _ _ m r).2 ⟨(⟨behind (some '<') xs, rest⟩, m), ?_, h⟩
    rw [ends]
    exact List.mem_map_of_mem (mem_runEnds Rules.typeText (some '<') xs rest hx)

theorem declared_matchAt (s : ContainerShape) (hs : s ∈ known) (b : Option Char)
    (hb : b.any Unicode.isWord = false) (t : Line) (h : Hit)
    (hargs : s.arguments.matchK ⟨behind b s.source.toList, '<' :: t⟩ [] (fun c m =>
      some ⟨b, textBetween (s.source.toList ++ '<' :: t) c.rest, m, c.rest⟩) = some h) :
    s.declared.pattern.matchAt ⟨b, s.source.toList ++ '<' :: t⟩ = some h := by
  obtain ⟨hne, hword⟩ := source_word s hs
  rw [matchAt, declared, matchK_all_cons, matchK_edge _ _ _ (Place.atEdge_word b _ _ hb hne hword),
    matchK_all_cons, lit, matchK_text, matchK_all_cons]
  exact hargs

/-- What the needs of a list come down to: its arguments and the last bracket of the run. -/
theorem list_text (name : Line) (w t : Line) (h : areMet name [any, sign '>'] w t = true) :
    ∃ args after, t = args ++ '>' :: after ∧ args ≠ [] ∧
      (∀ x ∈ args, Rules.typeText.mem x = true) ∧ areMet name [sign '>'] [] after = false := by
  cases t with
  | nil => exact absurd h Bool.false_ne_true
  | cons x t =>
    rw [areMet_cons, Bool.and_eq_true] at h
    obtain ⟨xs, after, rfl, hx, hafter⟩ := last_sign '>' _ t h.2
    exact ⟨x :: xs, after, rfl, by simp, List.forall_mem_cons.2 ⟨h.1, hx⟩, hafter⟩

theorem map_text (name : Line) (t : Line)
    (h : areMet name [any, sign ',', any, sign '>'] [] t = true) :
    ∃ first text last after, t = first ++ ',' :: (text ++ [last] ++ '>' :: after) ∧ first ≠ [] ∧
      (∀ x ∈ first, Rules.typeText.mem x = true) ∧ ',' ∉ text ∧
      (∀ x ∈ text ++ [last], Rules.typeText.mem x = true) ∧
      areMet name [sign '>'] [] after = false := by
  cases t with
  | nil => exact absurd h Bool.false_ne_true
  | cons x t =>
    rw [areMet_cons, Bool.and_eq_true] at h
    obtain ⟨us, v, rfl, hus, hmet⟩ := first_sign ',' _ _ t h.2
    obtain ⟨args, after, rfl, hne, hargs, hafter⟩ := list_text name _ v hmet
    obtain ⟨ys, last, rfl⟩ : ∃ ys last, args = ys ++ [last] :=
      ⟨args.dropLast, args.getLast hne, (List.dropLast_append_getLast hne).symm⟩
    obtain ⟨key, text, hsplit, hcomma⟩ := last_comma (',' :: ys) (by simp)
    have htype : ∀ c ∈ key ++ ',' :: text, Rules.typeText.mem c = true := by
      rw [← hsplit]
      exact List.forall_mem_cons.2 ⟨by decide, fun c hc => hargs c (by simp [hc])⟩
    refine ⟨x :: us ++ key, text, last, after, ?_, by simp, ?_, hcomma, ?_, hafter⟩
    · have htext : us ++ ',' :: (ys ++ [last] ++ '>' :: after) =
          us ++ ((',' :: ys) ++ ([last] ++ '>' :: after)) := by simp
      rw [htext, hsplit]
      simp
    · exact List.forall_mem_append.2
        ⟨List.forall_mem_cons.2 ⟨h.1, hus⟩, fun c hc => htype c (by simp [hc])⟩
    · exact List.forall_mem_append.2 ⟨fun c hc => htype c (by simp [hc]),
        List.forall_mem_singleton.2 (hargs last (by simp))⟩

/-- A container whose needs are met is matched, and the match is told. -/
theorem exists_declared_hit (s : ContainerShape) (hs : s ∈ known) (b : Option Char)
    (hb : b.any Unicode.isWord = false) (t : Line)
    (hmet : areMet s.source.toList s.needs [] t = true) :
    ∃ h args written,
      s.declared.pattern.matchAt ⟨b, s.source.toList ++ '<' :: t⟩ = some h ∧
      Renames s h args written := by
  have htext : ∀ args after : Line,
      textBetween (s.source.toList ++ '<' :: (args ++ '>' :: after)) after =
        generic s.source.toList args [] := by
    intro args after
    have hgeneric := generic_append s.source.toList args [] after
    rw [List.nil_append] at hgeneric
    change textBetween (generic s.source.toList args after) after = _
    rw [hgeneric, textBetween_left]
  cases hmap : s.mapLike with
  | true =>
    rw [needs, if_pos hmap] at hmet
    obtain ⟨first, text, last, after, rfl, hne, hfirst, hcomma, htype, hafter⟩ := map_text _ t hmet
    obtain ⟨gap, second, hcut, hgap, hsecond, hmatch⟩ :=
      map_arguments_matchK hafter s hmap first text last hne hfirst hcomma htype
    refine ⟨_, first ++ ',' :: (gap ++ second), first ++ ',' :: ' ' :: second,
      declared_matchAt s hs b hb _ _ (hmatch _ _ _ _ rfl), ?_, ?_,
      .inr ⟨first, gap, second, rfl, rfl, hgap, hsecond⟩, by simp [hmap], ?_, hafter⟩
    · rw [← hcut, ← htext _ after]
      simp
    · simp [Edit.render, declared, argumentParts, hmap, Part.render, Hit.group, Mark.text,
        textBetween_left, generic]
    · rw [← hcut]
      exact List.forall_mem_append.2 ⟨hfirst, List.forall_mem_cons.2 ⟨by decide, htype⟩⟩
  | false =>
    rw [needs, if_neg (by simp [hmap])] at hmet
    obtain ⟨args, after, rfl, hne, hargs, hafter⟩ := list_text _ _ t hmet
    refine ⟨_, args, args, declared_matchAt s hs b hb _ _
      (list_arguments_matchK hafter s hmap args hne hargs _ _ _ _ rfl), htext args after, ?_,
      .inl rfl, fun _ => rfl, hargs, hafter⟩
    simp [Edit.render, declared, argumentParts, hmap, Part.render, Hit.group, Mark.text,
      textBetween_left, generic]

/-- Every match of a container with its arguments is of this kind. -/
theorem declared_renames (s : ContainerShape) (hs : s ∈ known) (c : Place) (h : Hit)
    (hm : s.declared.pattern.matchAt c = some h) :
    c.before.any Unicode.isWord = false ∧ ∃ args written, Renames s h args written := by
  have hends := hm
  rw [matchAt_eq, Option.map_eq_some_iff] at hends
  obtain ⟨r, hr, -⟩ := hends
  obtain ⟨hout, rest, hrest, hends⟩ :=
    (mem_ends_opening s hs c [] _ r).1 (List.mem_of_mem_head? hr)
  obtain ⟨t, rfl, hmet⟩ := areMet_of_arguments s _ [] r ((mem_ends_all_single _ _ _ r).1 hends)
  obtain ⟨h', args, written, hm', hrenames⟩ := exists_declared_hit s hs c.before hout t hmet
  have hplace : c = ⟨c.before, s.source.toList ++ '<' :: t⟩ := by rw [← hrest]
  rw [← hplace, hm, Option.some.injEq] at hm'
  exact ⟨hout, args, written, hm' ▸ hrenames⟩

/-- The container in a run of type text, and behind its bracket in the run the same container
again, `n` times one behind the other; the last one has its arguments. -/
def chain (s : ContainerShape) : Nat → List Pattern
  | 0 => [.edge, lit s.source, s.arguments]
  | n + 1 => .edge :: lit s.source :: "<" :: .run Rules.typeText :: s.chain n

def nested (s : ContainerShape) (n : Nat) : Pattern := all (s.chain n)

theorem nested_zero (s : ContainerShape) : s.nested 0 = s.declared.pattern := rfl

def chainNeeds (s : ContainerShape) (n : Nat) : List Need :=
  List.replicate n Need.opening ++ s.needs

theorem chainNeeds_succ (s : ContainerShape) (n : Nat) :
    s.chainNeeds (n + 1) = Need.opening :: s.chainNeeds n := rfl

theorem chainNeeds_steady (s : ContainerShape) (n : Nat) : areSteady (s.chainNeeds n) = true := by
  induction n with
  | zero => exact s.needs_steady
  | succ n ih => exact ih

theorem needs_suffix (s : ContainerShape) (n : Nat) : s.needs <:+ s.chainNeeds n :=
  List.suffix_append _ _

theorem areMet_own (s : ContainerShape) (hs : s ∈ known) (ns : List Need)
    (hns : areSteady ns = true) (t : Line) :
    areMet s.source.toList (Need.opening :: ns) [] (s.source.toList ++ '<' :: t) =
      areMet s.source.toList ns [] t := by
  obtain ⟨hne, hword⟩ := source_word s hs
  have htype : ∀ x ∈ s.source.toList ++ ['<'], Rules.typeText.mem x = true :=
    List.forall_mem_append.2 ⟨fun x hx => typeText_word x (hword x hx), by decide⟩
  rw [show s.source.toList ++ '<' :: t = (s.source.toList ++ ['<']) ++ t by simp,
    areMet_append _ _ _ t htype, left_own_opening ns hns hne hword,
    wordAfter_concat _ _ '<' (by decide)]

theorem nested_begins_iff (s : ContainerShape) (hs : s ∈ known) (n : Nat) (c : Place) :
    (∃ r, r ∈ (s.nested n).ends c []) ↔
      c.before.any Unicode.isWord = false ∧ ∃ t, c.rest = s.source.toList ++ '<' :: t ∧
        areMet s.source.toList (s.chainNeeds n) [] t = true := by
  induction n generalizing c with
  | zero =>
    constructor
    · rintro ⟨r, hr⟩
      obtain ⟨hout, rest, hrest, hr⟩ := (mem_ends_opening s hs c [] _ r).1 hr
      obtain ⟨t, rfl, hmet⟩ := areMet_of_arguments s _ [] r ((mem_ends_all_single _ _ _ r).1 hr)
      exact ⟨hout, t, hrest, hmet⟩
    · rintro ⟨hout, t, ht, hmet⟩
      obtain ⟨h, args, written, hm, -⟩ := exists_declared_hit s hs c.before hout t hmet
      rw [← ht, matchAt_eq, Option.map_eq_some_iff] at hm
      obtain ⟨r, hr, -⟩ := hm
      exact ⟨r, List.mem_of_mem_head? hr⟩
  | succ n ih =>
    -- The word behind `xs` is empty exactly if the inner container may begin there.
    have hbegins : ∀ xs, wordAfter [] xs = [] ↔ (behind (some '<') xs).any Unicode.isWord = false :=
      fun xs => ((reads_other '<' (by decide)).behind xs).eq_nil_iff
    constructor
    · rintro ⟨r, hr⟩
      obtain ⟨hout, rest, hrest, hr⟩ := (mem_ends_opening s hs c [] _ r).1 hr
      obtain ⟨xs, rest, rfl, hx, hr⟩ := (mem_ends_bracket _ _ [] _ r).1 hr
      obtain ⟨hinner, t, rfl, hmet⟩ := (ih ⟨behind (some '<') xs, rest⟩).1 ⟨r, hr⟩
      refine ⟨hout, xs ++ (s.source.toList ++ '<' :: t), hrest, ?_⟩
      rw [chainNeeds_succ]
      refine areMet_of_later _ _ xs _ hx ?_
      rw [(hbegins xs).2 hinner, areMet_own s hs _ (s.chainNeeds_steady n)]
      exact hmet
    · rintro ⟨hout, t, ht, hmet⟩
      obtain ⟨xs, rest, hsplit, hx, hread, hmet⟩ := first_opening _ [] t (by simp [IsWordText]) hmet
      rw [List.nil_append] at hsplit
      obtain ⟨r, hr⟩ := (ih ⟨behind (some '<') xs, s.source.toList ++ '<' :: rest⟩).2
        ⟨(hbegins xs).1 hread, rest, rfl, hmet⟩
      exact ⟨r, (mem_ends_opening s hs c [] _ r).2
        ⟨hout, '<' :: t, ht, (mem_ends_bracket _ _ [] _ r).2 ⟨xs, _, by rw [hsplit], hx, hr⟩⟩⟩

theorem nested_occursIn_iff (s : ContainerShape) (hs : s ∈ known) (n : Nat) (line : Line) :
    (s.nested n).occursIn line = true ↔
      MetIn s.source.toList (s.chainNeeds (n + 1)) [] line := by
  rw [occursIn_iff, chainNeeds_succ]
  constructor
  · rintro ⟨xs, rest, rfl, hm⟩
    rw [matchAt_isSome_iff, nested_begins_iff s hs] at hm
    obtain ⟨hout, t, rfl, hmet⟩ := hm
    refine ⟨xs, _, rfl, ?_⟩
    rw [(reads_none.behind xs).eq_nil_iff.2 hout, areMet_own s hs _ (s.chainNeeds_steady n)]
    exact hmet
  · intro h
    obtain ⟨xs, rest, rfl, hread, hmet⟩ := metIn_first_opening _ line h
    refine ⟨xs, _, rfl, ?_⟩
    rw [matchAt_isSome_iff, nested_begins_iff s hs]
    exact ⟨(reads_none.behind xs).eq_nil_iff.1 hread, rest, rfl, hmet⟩

end ContainerShape

end JvsSharp
