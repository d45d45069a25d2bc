import JvsSharp.Proofs.GroupContents
import JvsSharp.Proofs.Words
import JvsSharp.Rules.Elided
import Mathlib.Data.List.Basic

/-!
# Assignments without types

The dot behind `this` is the only one in an assignment, and its last character
is the only closing parenthesis. So two assignments in a line never overlap,
and one of them is not mistaken for another with the same beginning. What the
index puts in place of an assignment is of the same form; nothing is found in
a completed line that would be completed in another way.
-/

set_option autoImplicit false

namespace JvsSharp

theorem append_cons_cancel (c : Char) (xs ys rest rest' : Line) (hx : c ∉ xs) (hy : c ∉ ys)
    (h : xs ++ c :: rest = ys ++ c :: rest') : xs = ys := by
  induction xs generalizing ys with
  | nil =>
    cases ys with
    | nil => rfl
    | cons y ys =>
      rw [List.nil_append, List.cons_append, List.cons.injEq] at h
      exact absurd (by simp [h.1]) hy
  | cons x xs ih =>
    cases ys with
    | nil =>
      rw [List.nil_append, List.cons_append, List.cons.injEq] at h
      exact absurd (by simp [h.1]) hx
    | cons y ys =>
      rw [List.cons_append, List.cons_append, List.cons.injEq] at h
      rw [h.1, ih ys (fun hmem => hx (by simp [hmem])) (fun hmem => hy (by simp [hmem])) h.2]

namespace Pattern

theorem mem_ends_all_append (ps qs : List Pattern) (c : Place) (m : List Mark)
    (r : Place × List Mark) :
    r ∈ (all (ps ++ qs)).ends c m ↔
      ∃ s ∈ (all ps).ends c m, r ∈ (all qs).ends s.1 s.2 := by
  induction ps generalizing c m with
  | nil => simp [all, ends]
  | cons p ps ih =>
    change r ∈ (Pattern.seq p (all (ps ++ qs))).ends c m ↔
      ∃ s ∈ (Pattern.seq p (all ps)).ends c m, r ∈ (all qs).ends s.1 s.2
    simp only [ends, List.mem_flatMap, ih]
    constructor
    · rintro ⟨a, ha, s, hs, hr⟩
      exact ⟨s, ⟨a, ha, hs⟩, hr⟩
    · rintro ⟨s, ⟨a, ha, hs⟩, hr⟩
      exact ⟨a, ha, s, hs, hr⟩

theorem mem_ends_all_single (p : Pattern) (c : Place) (m : List Mark) (r : Place × List Mark) :
    r ∈ (all [p]).ends c m ↔ r ∈ p.ends c m := by
  simp [all, ends]

theorem skipWhile_stops (k : CharClass) (b : Option Char) (line : Line) :
    Stops k (Place.skipWhile k b line).rest := by
  induction line generalizing b with
  | nil => rfl
  | cons x rest ih =>
    rw [Place.skipWhile]
    by_cases hx : k.mem x = true
    · rw [if_pos hx]
      exact ih (some x)
    · rw [if_neg hx]
      exact stops_cons k x rest (by simpa using hx)

theorem mem_ends_text (cs : List Char) (c : Place) (m : List Mark) (r : Place × List Mark)
    (h : r ∈ (Pattern.text cs).ends c m) : c.Leads cs r.1 := by
  rw [ends, List.mem_map] at h
  obtain ⟨c', hc, rfl⟩ := h
  exact skip?_leads cs c c' (by simpa using hc)

theorem mem_ends_chars (k : CharClass) (c : Place) (m : List Mark) (r : Place × List Mark)
    (h : r ∈ (chars k).ends c m) :
    ∃ xs, xs ≠ [] ∧ (∀ x ∈ xs, k.mem x = true) ∧ c.Leads xs r.1 ∧ Stops k r.1.rest ∧ r.2 = m := by
  rw [chars, ends, List.mem_flatMap] at h
  obtain ⟨s, hs, h⟩ := h
  obtain ⟨x, rest, hrest, hx, rfl⟩ := mem_ends_one k c m s hs
  rw [ends, List.mem_singleton] at h
  subst h
  obtain ⟨xs, hxs, hmem⟩ := skipWhile_passes k (some x) rest
  refine ⟨x :: xs, by simp, ?_, ⟨hrest.trans (congrArg (x :: ·) hxs.1), hxs.2⟩,
    skipWhile_stops k _ _, rfl⟩
  exact List.forall_mem_cons.2 ⟨hx, hmem⟩

def isRigid : Pattern → Bool
  | .empty | .text _ | .one _ | .span _ => true
  | .seq p q => p.isRigid && q.isRigid
  | .group _ p => p.isRigid
  | _ => false

/-- A rigid pattern goes over a text whatever stands around it, as long as the text is
followed by the same character. -/
theorem ends_rigid (p : Pattern) (hp : p.isRigid = true) (b b' : Option Char)
    (xs rest rest' : Line) (m m' : List Mark) (r : Place × List Mark)
    (h : r ∈ p.ends ⟨b, xs ++ rest⟩ m) (hr : r.1.rest = rest)
    (hhead : rest'.head? = rest.head?) :
    ∃ k, (⟨behind b' xs, rest'⟩, k) ∈ p.ends ⟨b', xs ++ rest'⟩ m' := by
  induction p generalizing b b' xs rest rest' m m' r with
  | empty =>
    rw [ends, List.mem_singleton] at h
    rw [h] at hr
    have hxs : xs = [] := List.append_left_eq_self.1 hr
    exact ⟨m', by simp [hxs, ends, behind]⟩
  | text cs =>
    rw [ends, List.mem_map] at h
    obtain ⟨c', hc, rfl⟩ := h
    obtain ⟨hrest, -⟩ := skip?_leads cs _ c' (by simpa using hc)
    rw [show c'.rest = rest from hr, List.append_cancel_right_eq] at hrest
    rw [hrest]
    exact ⟨m', by simp [ends, skip?_of_leads cs ⟨b', cs ++ rest'⟩ ⟨behind b' cs, rest'⟩ ⟨rfl, rfl⟩]⟩
  | one j =>
    obtain ⟨x, tail, htail, hx, rfl⟩ := mem_ends_one j _ m r h
    have hxs : xs ++ rest = [x] ++ rest := htail.trans (congrArg (x :: ·) hr)
    rw [List.append_cancel_right_eq] at hxs
    exact ⟨m', by simp [hxs, ends, hx, behind]⟩
  | span j =>
    rw [ends, List.mem_singleton] at h
    obtain ⟨ys, hys, hmem⟩ := skipWhile_passes j b (xs ++ rest)
    have hstops := skipWhile_stops j b (xs ++ rest)
    rw [h] at hr
    rw [hr] at hstops
    have hxs : xs ++ rest = ys ++ rest := hys.1.trans (congrArg (ys ++ ·) hr)
    rw [List.append_cancel_right_eq] at hxs
    -- What follows starts alike, so the span ends in the same place.
    have hstops' : Stops j rest' := by rw [Stops, hhead]; exact hstops
    exact ⟨m', by simp [ends, hxs, skipWhile_all j b' ys rest' hmem hstops']⟩
  | seq p q ihp ihq =>
    rw [isRigid, Bool.and_eq_true] at hp
    rw [ends, List.mem_flatMap] at h
    obtain ⟨s, hs, h⟩ := h
    obtain ⟨us, hus⟩ := ends_leads p _ _ _ hs
    obtain ⟨vs, hvs, -⟩ := ends_leads q _ _ _ h
    rw [hr] at hvs
    have hxs : xs ++ rest = (us ++ vs) ++ rest := by
      rw [List.append_assoc, ← hvs]
      exact hus.1
    rw [List.append_cancel_right_eq] at hxs
    subst hxs
    have hsecond : s.1 = ⟨behind b us, vs ++ rest⟩ := by
      obtain ⟨⟨sb, srest⟩, sm⟩ := s
      exact Place.mk.injEq .. ▸ ⟨hus.2, hvs⟩
    have hheads : (vs ++ rest').head? = (vs ++ rest).head? := by
      rw [List.head?_append, List.head?_append, hhead]
    rw [hsecond] at h
    rw [List.append_assoc] at hs
    obtain ⟨k, hk⟩ := ihp hp.1 b b' us (vs ++ rest) (vs ++ rest') m m' s hs (by rw [hsecond]) hheads
    obtain ⟨k', hk'⟩ := ihq hp.2 _ (behind b' us) vs rest rest' s.2 k r h hr hhead
    refine ⟨k', ?_⟩
    rw [ends, List.mem_flatMap, List.append_assoc, behind_append]
    exact ⟨_, hk, hk'⟩
  | group i p ih =>
    rw [ends, List.mem_map] at h
    obtain ⟨s, hs, rfl⟩ := h
    obtain ⟨k, hk⟩ := ih hp b b' xs rest rest' m m' s hs hr hhead
    exact ⟨_, by rw [ends, List.mem_map]; exact ⟨_, hk, rfl⟩⟩
  | _ => exact absurd hp Bool.false_ne_true

/-- Replacing changes nothing, or there is a first match up to which nothing is changed. -/
theorem replaceFrom_first (p : Pattern) (hp : ∀ c h, p.matchAt c = some h → h.text ≠ [])
    (f : Hit → Line) (b : Option Char) (line : Line) :
    p.replaceFrom f b line = line ∨ ∃ before c h more, p.matchAt c = some h ∧
      line = before ++ (h.text ++ h.after) ∧ p.replaceFrom f b line = before ++ (f h ++ more) := by
  induction line generalizing b with
  | nil => exact .inl (replaceFrom_nil p f b)
  | cons c rest ih =>
    cases hm : p.matchAt ⟨b, c :: rest⟩ with
    | none =>
      have hstep : p.replaceFrom f b (c :: rest) = c :: p.replaceFrom f (some c) rest :=
        replaceFrom_quiet p f b [c] rest ⟨hm, trivial⟩
      rcases ih (some c) with hsame | ⟨before, c', h, more, hm', hline, hreplaced⟩
      · exact .inl (by rw [hstep, hsame])
      · exact .inr ⟨c :: before, c', h, more, hm', by rw [hline, List.cons_append], by
          rw [hstep, hreplaced, List.cons_append]⟩
    | some h =>
      have htext : h.text ++ h.after = c :: rest := matchAt_text p _ h hm
      rw [← htext] at hm ⊢
      exact .inr ⟨[], _, h, _, hm, rfl, replaceFrom_hit p f b h.text h.after h hm rfl (hp _ h hm)⟩

end Pattern

structure IsAssignment (name text : Line) : Prop where
  word : IsWordText name
  form : ∃ value, text = "this.".toList ++ (name ++ (value ++ [')'])) ∧
    value ≠ [] ∧ EndsWord value ∧ '.' ∉ value ∧ ')' ∉ value

namespace IsAssignment

variable {name name' text text' : Line} (h : IsAssignment name text)
  (h' : IsAssignment name' text')
include h

theorem ne_nil : text ≠ [] := by
  obtain ⟨value, rfl, -⟩ := h.form
  simp

/-- What follows the first word has no dot, and a parenthesis at its end only. -/
theorem form_this : ∃ tail, text = "this.".toList ++ (tail ++ [')']) ∧
    '.' ∉ tail ∧ ')' ∉ tail := by
  obtain ⟨value, htext, -, -, hdot, hclose⟩ := h.form
  have hname : ∀ c, Unicode.isWord c = false → c ∉ name := fun c hc hmem =>
    absurd (h.word c hmem) (by simp [hc])
  refine ⟨name ++ value, by rw [htext, List.append_assoc], ?_, ?_⟩
  · rw [List.mem_append, not_or]
    exact ⟨hname '.' (by decide), hdot⟩
  · rw [List.mem_append, not_or]
    exact ⟨hname ')' (by decide), hclose⟩

include h'

theorem unique (rest rest' : Line) (heq : text ++ rest = text' ++ rest') :
    name = name' ∧ text = text' := by
  have hsame : text = text' := by
    obtain ⟨tail, rfl, -, hclose⟩ := h.form_this
    obtain ⟨tail', rfl, -, hclose'⟩ := h'.form_this
    simp only [List.append_assoc, List.append_cancel_left_eq, List.singleton_append] at heq
    rw [append_cons_cancel ')' tail tail' rest rest' hclose hclose' heq]
  obtain ⟨value, htext, hne, hends, -⟩ := h.form
  obtain ⟨value', htext', hne', hends', -⟩ := h'.form
  have hnames : name ++ (value ++ [')']) = name' ++ (value' ++ [')']) := by
    rw [htext, htext', List.append_cancel_left_eq] at hsame
    exact hsame
  have hbehind : ∀ v : Line, v ≠ [] → EndsWord v → EndsWord (v ++ [')']) := by
    intro v hv hends
    cases v with
    | nil => exact absurd rfl hv
    | cons c v => exact hends
  exact ⟨run_unique name name' _ _ h.word h'.word (hbehind _ hne hends) (hbehind _ hne' hends')
    hnames, hsame⟩

/-- An assignment that starts behind the start of another one starts behind its end. -/
theorem apart (before rest rest' : Line) (hbefore : before ≠ [])
    (heq : text ++ rest = before ++ (text' ++ rest')) : ∃ between, before = text ++ between := by
  obtain ⟨tail, htext, hdot, hclose⟩ := h.form_this
  obtain ⟨tail', htext', -, hclose'⟩ := h'.form_this
  rcases List.append_eq_append_iff.1 heq with ⟨between, hb, -⟩ | ⟨inner, hinner, hrest⟩
  · exact ⟨between, hb⟩
  · rcases List.eq_nil_or_concat inner with rfl | ⟨start, c, rfl⟩
    · exact ⟨[], by rw [hinner, List.append_nil, List.append_nil]⟩
    · -- The text of the other one would reach to the parenthesis, and its dot would be a second.
      rw [List.concat_eq_append, ← List.append_assoc, htext, ← List.append_assoc] at hinner
      obtain ⟨hbody, hlast⟩ := List.append_inj' hinner rfl
      have hstart : ')' ∉ start := fun hmem => by
        have : ')' ∈ "this.".toList ++ tail := hbody ▸ List.mem_append_right before hmem
        exact (List.mem_append.1 this).elim (by decide) hclose
      have hother : ')' ∉ "this.".toList ++ tail' := fun hmem =>
        (List.mem_append.1 hmem).elim (by decide) hclose'
      have hends : ("this.".toList ++ tail') ++ ')' :: rest' = start ++ ')' :: rest := by
        rw [htext', List.concat_eq_append, ← hlast] at hrest
        simpa only [List.append_assoc, List.singleton_append] using hrest
      have hsame := append_cons_cancel ')' _ _ _ _ hother hstart hends
      have hdots : "this".toList ++ '.' :: tail = (before ++ "this".toList) ++ '.' :: tail' := by
        rw [← hsame] at hbody
        rw [List.append_assoc]
        exact hbody
      have hcut := (List.append_cons_inj_of_notMem (by decide) hdot).1 hdots
      have hnil := congrArg List.length hcut.1
      rw [List.length_append] at hnil
      exact absurd (List.length_eq_zero_iff.1 (by omega)) hbefore

end IsAssignment

def Binding.typeText (b : Binding) : Line := b.container.toList ++ '<' :: (b.elementTypes ++ ['>'])

def Binding.assignment (b : Binding) (name : Line) : Line :=
  "this.".toList ++ (name ++ (" = new ".toList ++ (b.typeText ++ "()".toList)))

structure Binding.InTargetForm (b : Binding) : Prop where
  container : ∃ s ∈ ContainerShape.known, b.container = s.target
  types_text : ∀ c ∈ b.elementTypes, Rules.typeText.mem c = true
  types_mapped : Rules.primitiveTypes b.elementTypes = b.elementTypes

def valueText : CharClass := .union Rules.typeText (.oneOf ['=', '('])

theorem not_mem_valueText (value : Line) (h : ∀ c ∈ value, valueText.mem c = true) :
    '.' ∉ value ∧ ')' ∉ value :=
  ⟨fun hmem => absurd (h _ hmem) (by decide), fun hmem => absurd (h _ hmem) (by decide)⟩

theorem Binding.InTargetForm.isAssignment {b : Binding} (hb : b.InTargetForm) (name : Line)
    (hname : IsWordText name) : IsAssignment name (b.assignment name) := by
  have htargets : ∀ s ∈ ContainerShape.known, ∀ c ∈ s.target.toList, valueText.mem c = true := by
    decide
  obtain ⟨s, hs, hcontainer⟩ := hb.container
  have hvalue : ∀ c ∈ " = new ".toList ++ (b.typeText ++ ['(']), valueText.mem c = true := by
    intro c hc
    simp only [typeText, List.mem_append, List.mem_cons, List.not_mem_nil, or_false] at hc
    rcases hc with hc | (hc | rfl | hc | rfl) | rfl
    · exact (by decide : ∀ c ∈ " = new ".toList, valueText.mem c = true) c hc
    · exact htargets s hs c (hcontainer ▸ hc)
    · decide
    · exact Bool.or_eq_true .. ▸ .inl (hb.types_text c hc)
    · decide
    · decide
  refine ⟨hname, " = new ".toList ++ (b.typeText ++ ['(']), ?_, by simp, ?_,
    not_mem_valueText _ hvalue⟩
  · rw [Binding.assignment, List.append_assoc, List.append_assoc]
    rfl
  · exact endsWord_cons ' ' _ (by decide)

namespace Rules
open Pattern

def assignedValue : List Pattern :=
  [gap, "=", gap, "new", space, word, gap, "<", gap, ">", gap, "(", gap]

theorem elidedAssignment_eq :
    elidedAssignment = all ((lit "this." :: .group 1 word :: assignedValue) ++ [lit ")"]) := rfl

theorem mem_ends_elidedAssignment (c : Place) (m : List Mark) (r : Place × List Mark)
    (h : r ∈ elidedAssignment.ends c m) :
    ∃ name value, c.rest = ("this.".toList ++ (name ++ (value ++ [')']))) ++ r.1.rest ∧
      groupText r.2 1 = name ∧ IsWordText name ∧ value ≠ [] ∧ EndsWord value ∧
      '.' ∉ value ∧ ')' ∉ value := by
  rw [elidedAssignment_eq, mem_ends_all_append] at h
  obtain ⟨s, hs, hclose⟩ := h
  rw [mem_ends_all_single] at hclose
  change s ∈ (Pattern.seq (.text "this.".toList)
    (.seq (.group 1 word) (all assignedValue))).ends c m at hs
  rw [ends, List.mem_flatMap] at hs
  obtain ⟨a, ha, hs⟩ := hs
  rw [ends, List.mem_flatMap] at hs
  obtain ⟨d, hd, hs⟩ := hs
  rw [ends, List.mem_map] at hd
  obtain ⟨q, hq, rfl⟩ := hd
  obtain ⟨name, -, hname, hleads, hstops, -⟩ := mem_ends_chars .word _ _ q hq
  obtain ⟨value, hvalue, hmem⟩ := ends_takes valueText (all assignedValue) (by decide) _ _ s hs
  have hfilled := ends_isFilled (all assignedValue) (by decide) _ _ s hs
  have hthis := mem_ends_text "this.".toList c m a ha
  have hlast := mem_ends_text [')'] s.1 s.2 r hclose
  have hne : value ≠ [] := by
    rintro rfl
    rw [hvalue.1, List.nil_append] at hfilled
    omega
  refine ⟨name, value, ?_, ?_, hname, hne, ?_, not_mem_valueText value hmem⟩
  · rw [hthis.1, hleads.1, hvalue.1, hlast.1]
    simp
  · rw [ends_groupText (lit ")") s.1 s.2 r hclose 1 (by decide),
      ends_groupText (all assignedValue) _ _ s hs 1 (by decide), groupText, List.find?_cons,
      beq_self_eq_true]
    change textBetween a.1.rest q.1.rest = name
    rw [hleads.1, textBetween_left]
  · cases value with
    | nil => exact absurd rfl hne
    | cons x value =>
      change Stops .word q.1.rest at hstops
      rw [hvalue.1] at hstops
      exact hstops

theorem elidedAssignment_isAssignment (c : Place) (h : Hit)
    (hm : elidedAssignment.matchAt c = some h) : IsAssignment (h.group 1) h.text := by
  rw [matchAt_eq, Option.map_eq_some_iff] at hm
  obtain ⟨r, hr, rfl⟩ := hm
  obtain ⟨name, value, hrest, hgroup, hword, hvalue⟩ :=
    mem_ends_elidedAssignment c [] r (List.mem_of_mem_head? hr)
  rw [Hit.group_eq, hgroup]
  exact ⟨hword, value, by rw [hrest, textBetween_left], hvalue⟩

theorem elidedAssignment_moved (c : Place) (h : Hit) (hm : elidedAssignment.matchAt c = some h)
    (b : Option Char) (rest : Line) : elidedAssignment.matchAt ⟨b, h.text ++ rest⟩ ≠ none := by
  rw [matchAt_eq, Option.map_eq_some_iff] at hm
  obtain ⟨r, hr, rfl⟩ := hm
  have hends := List.mem_of_mem_head? hr
  rw [elidedAssignment_eq, mem_ends_all_append] at hends
  obtain ⟨s, hs, hclose⟩ := hends
  obtain ⟨body, hbody, -⟩ := ends_leads _ _ _ _ hs
  rw [mem_ends_all_single] at hclose
  obtain ⟨hlast, -⟩ := mem_ends_text [')'] s.1 s.2 r hclose
  have hrest : c.rest = body ++ ')' :: r.1.rest := by rw [hbody, hlast]; rfl
  have htext : textBetween c.rest r.1.rest = body ++ [')'] := by
    rw [hrest, List.append_cons, textBetween_left]
  have hplace : c = ⟨c.before, body ++ ')' :: r.1.rest⟩ := by rw [← hrest]
  rw [hplace] at hs
  obtain ⟨k, hk⟩ := ends_rigid _ (by decide) c.before b body (')' :: r.1.rest) (')' :: rest) [] []
    s hs hlast rfl
  have hmem : (⟨some ')', rest⟩, k) ∈ elidedAssignment.ends ⟨b, body ++ ')' :: rest⟩ [] := by
    rw [elidedAssignment_eq, mem_ends_all_append]
    refine ⟨_, hk, ?_⟩
    rw [mem_ends_all_single]
    exact List.mem_map.2 ⟨_, by simp [Place.skip?], rfl⟩
  intro hnone
  rw [htext, ← List.append_cons, matchAt_eq, Option.map_eq_none_iff,
    List.head?_eq_none_iff] at hnone
  rw [hnone] at hmem
  exact absurd hmem List.not_mem_nil

def completed (index : Index) (h : Hit) : Line :=
  match index.get? (h.group 1) with
  | some b => b.assignment (h.group 1)
  | none => h.text

theorem diamondInference_eq (index : Index) (line : Line) :
    diamondInference index line = elidedAssignment.replaceAll (completed index) line := by
  rw [diamondInference]
  congr
  funext h
  rw [completed]
  cases index.get? (h.group 1) with
  | none => rfl
  | some b => simp [Binding.assignment, Binding.typeText]

section
variable (index : Index) (hindex : ∀ name b, index.get? name = some b → b.InTargetForm)
include hindex

theorem completed_isAssignment (c : Place) (h : Hit) (hm : elidedAssignment.matchAt c = some h) :
    IsAssignment (h.group 1) (completed index h) := by
  have hit := elidedAssignment_isAssignment c h hm
  rw [completed]
  cases hb : index.get? (h.group 1) with
  | none => exact hit
  | some b => exact (hindex _ b hb).isAssignment _ hit.word

theorem completed_quiet (b : Option Char) (x : Char) (rest : Line)
    (hnone : elidedAssignment.matchAt ⟨b, x :: rest⟩ = none) (b' : Option Char) :
    elidedAssignment.matchAt
      ⟨b', x :: elidedAssignment.replaceFrom (completed index) (some x) rest⟩ = none := by
  cases hm : elidedAssignment.matchAt
      ⟨b', x :: elidedAssignment.replaceFrom (completed index) (some x) rest⟩ with
  | none => rfl
  | some h =>
    have hit := elidedAssignment_isAssignment _ h hm
    have htext := matchAt_text _ _ h hm
    have hne : ∀ c h, elidedAssignment.matchAt c = some h → h.text ≠ [] := fun c h hm =>
      (elidedAssignment_isAssignment c h hm).ne_nil
    -- Its text ends before the first assignment that was completed, so it stood there before.
    have hstood : ∃ last, x :: rest = h.text ++ last := by
      rcases replaceFrom_first elidedAssignment hne (completed index) (some x) rest with
        hsame | ⟨before, c, g, more, hg, hline, hreplaced⟩
      · exact ⟨h.after, by rw [htext, hsame]⟩
      · rw [hreplaced] at htext
        obtain ⟨between, hbetween⟩ := hit.apart (completed_isAssignment index hindex c g hg)
          (x :: before) h.after more (by simp) htext
        refine ⟨between ++ (g.text ++ g.after), ?_⟩
        rw [hline, ← List.cons_append, hbetween, List.append_assoc]
    obtain ⟨last, hlast⟩ := hstood
    rw [hlast] at hnone
    exact absurd hnone (elidedAssignment_moved _ h hm b last)

/-- All that can be found in a completed line is written as it would be completed. -/
theorem completed_settled (b : Option Char) (line : Line) (c : Place) (h : Hit)
    (hc : c.rest <:+ elidedAssignment.replaceFrom (completed index) b line)
    (hm : elidedAssignment.matchAt c = some h) : completed index h = h.text := by
  have hit := elidedAssignment_isAssignment c h hm
  induction hn : line.length using Nat.strongRecOn generalizing b line with
  | ind n ih =>
    obtain ⟨before, hbefore⟩ := hc
    rw [← matchAt_text _ c h hm] at hbefore
    cases line with
    | nil =>
      rw [replaceFrom_nil] at hbefore
      have hnil := (List.append_eq_nil_iff.1 hbefore).2
      exact absurd (List.append_eq_nil_iff.1 hnil).1 hit.ne_nil
    | cons x rest =>
      cases hfirst : elidedAssignment.matchAt ⟨b, x :: rest⟩ with
      | none =>
        have hstep : elidedAssignment.replaceFrom (completed index) b (x :: rest) =
            x :: elidedAssignment.replaceFrom (completed index) (some x) rest :=
          replaceFrom_quiet _ _ b [x] rest ⟨hfirst, trivial⟩
        rw [hstep] at hbefore
        cases before with
        | nil =>
          -- No assignment began here before the completion, so none does now.
          have hquiet := completed_quiet index hindex b x rest hfirst c.before
          rw [← hbefore, List.nil_append, matchAt_text _ c h hm] at hquiet
          exact absurd (hm.symm.trans hquiet) (by simp)
        | cons y before =>
          rw [List.cons_append, List.cons.injEq, matchAt_text _ c h hm] at hbefore
          exact ih rest.length (by simp [← hn]) (some x) rest ⟨before, hbefore.2⟩ rfl
      | some g =>
        have hline : g.text ++ g.after = x :: rest := matchAt_text _ _ g hfirst
        have hg := elidedAssignment_isAssignment _ g hfirst
        have hfilled := completed_isAssignment index hindex _ g hfirst
        rw [← hline] at hfirst hbefore
        rw [replaceFrom_hit _ _ b g.text g.after g hfirst rfl hg.ne_nil] at hbefore
        by_cases hnil : before = []
        · -- The match is the completed assignment itself.
          rw [hnil, List.nil_append] at hbefore
          obtain ⟨hname, hsame⟩ := hfilled.unique hit _ _ hbefore.symm
          rw [completed, hname] at hsame
          rw [completed]
          cases hget : index.get? (h.group 1) with
          | none => rfl
          | some b =>
            rw [hget] at hsame
            exact hsame
        · -- It begins behind that assignment, in what is left of the line.
          obtain ⟨between, rfl⟩ := hfilled.apart hit before _ _ hnil hbefore.symm
          rw [List.append_assoc, List.append_cancel_left_eq, matchAt_text _ c h hm] at hbefore
          refine ih g.after.length ?_ _ g.after ⟨between, hbefore⟩ rfl
          have := List.length_pos_iff.2 hg.ne_nil
          rw [← hn, ← hline, List.length_append]
          omega

theorem diamondInference_twice (line : Line) :
    diamondInference index (diamondInference index line) = diamondInference index line := by
  rw [diamondInference_eq, diamondInference_eq]
  refine replaceAll_eq_self _ _ _ fun c h hc hm => ?_
  rw [replaceAll_eq] at hc
  exact completed_settled index hindex none line c h hc hm

end

end Rules

end JvsSharp
