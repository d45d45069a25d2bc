import JvsSharp.Pattern.Match

/-!
# All ways of a pattern

The places where a match may end are listed in the order of preference, so
the matcher's answer is the first of them that its continuation accepts. The
list is what statements about a pattern are made of; the matcher itself never
builds it.
-/

set_option autoImplicit false

namespace JvsSharp.Pattern

def runEnds (k : CharClass) : Option Char → Line → List Place
  | b, [] => [⟨b, []⟩]
  | b, x :: rest =>
      if k.mem x then runEnds k (some x) rest ++ [⟨b, x :: rest⟩] else [⟨b, x :: rest⟩]

def fewestEnds (k : CharClass) : Option Char → Line → List Place
  | b, [] => [⟨b, []⟩]
  | b, x :: rest => ⟨b, x :: rest⟩ :: if k.mem x then fewestEnds k (some x) rest else []

def starEnds (step : Place → List Mark → List (Place × List Mark)) :
    Nat → Place → List Mark → List (Place × List Mark)
  | 0, c, m => [(c, m)]
  | n + 1, c, m =>
      ((step c m).flatMap fun r => starEnds step n r.1 r.2) ++ [(c, m)]

def ends : Pattern → Place → List Mark → List (Place × List Mark)
  | .empty, c, m => [(c, m)]
  | .text cs, c, m => (c.skip? cs).toList.map (·, m)
  | .one k, c, m =>
      match c.rest with
      | [] => []
      | x :: rest => if k.mem x then [(⟨some x, rest⟩, m)] else []
  | .span k, c, m => [(Place.skipWhile k c.before c.rest, m)]
  | .run k, c, m => (runEnds k c.before c.rest).map (·, m)
  | .fewest k, c, m => (fewestEnds k c.before c.rest).map (·, m)
  | .edge, c, m => if c.atEdge then [(c, m)] else []
  | .start, c, m => if c.before.isNone then [(c, m)] else []
  | .seq p q, c, m => (ends p c m).flatMap fun r => ends q r.1 r.2
  | .alt p q, c, m => ends p c m ++ ends q c m
  | .star p, c, m => starEnds (fun c m => ends p c m) c.rest.length c m
  | .group i p, c, m => (ends p c m).map fun r => (r.1, ⟨i, c.rest, r.1.rest⟩ :: r.2)

variable {α β γ : Type}

theorem findSome?_flatMap (f : β → Option α) (g : γ → List β) (xs : List γ) :
    (xs.flatMap g).findSome? f = xs.findSome? fun x => (g x).findSome? f := by
  induction xs with
  | nil => rfl
  | cons x xs ih =>
    simp only [List.flatMap_cons, List.findSome?_append, List.findSome?_cons, ih]
    cases (g x).findSome? f <;> rfl

@[simp] theorem findSome?_single (f : β → Option α) (x : β) : [x].findSome? f = f x := by
  simp only [List.findSome?_cons, List.findSome?_nil]
  cases f x <;> rfl

theorem runK_eq (k : CharClass) (f : Place → Option α) (b : Option Char) (line : Line) :
    runK k f b line = (runEnds k b line).findSome? f := by
  induction line generalizing b with
  | nil => rw [runK, runEnds, findSome?_single]
  | cons x rest ih =>
    rw [runK, runEnds, ih]
    split <;> simp only [List.findSome?_append, findSome?_single]

theorem fewestK_eq (k : CharClass) (f : Place → Option α) (b : Option Char) (line : Line) :
    fewestK k f b line = (fewestEnds k b line).findSome? f := by
  induction line generalizing b with
  | nil => rw [fewestK, fewestEnds, findSome?_single]
  | cons x rest ih =>
    rw [fewestK, fewestEnds, ih, List.findSome?_cons]
    cases f ⟨b, x :: rest⟩ with
    | some a => rfl
    | none => split <;> rfl

theorem starK_eq (step : Place → List Mark → List (Place × List Mark))
    (f : Place → List Mark → Option α) (n : Nat) (c : Place) (m : List Mark) :
    starK (fun c m f => (step c m).findSome? fun r => f r.1 r.2) f n c m =
      (starEnds step n c m).findSome? fun r => f r.1 r.2 := by
  induction n generalizing c m with
  | zero => rw [starK, starEnds, findSome?_single]
  | succ n ih =>
    rw [starK, starEnds, List.findSome?_append, findSome?_flatMap, findSome?_single]
    simp only [ih]

/-- The matcher finds the first end that the continuation accepts. -/
theorem matchK_eq (p : Pattern) (c : Place) (m : List Mark) (f : Place → List Mark → Option α) :
    p.matchK c m f = (p.ends c m).findSome? fun r => f r.1 r.2 := by
  induction p generalizing c m f with
  | empty => rw [matchK, ends, findSome?_single]
  | text cs =>
    rw [matchK, ends]
    cases c.skip? cs <;> simp
  | one k =>
    rw [matchK, ends]
    cases c.rest with
    | nil => rfl
    | cons x rest => by_cases h : k.mem x <;> simp [h]
  | span k => rw [matchK, ends, findSome?_single]
  | run k => rw [matchK, ends, runK_eq, List.findSome?_map]; rfl
  | fewest k => rw [matchK, ends, fewestK_eq, List.findSome?_map]; rfl
  | edge => rw [matchK, ends]; split <;> simp
  | start => rw [matchK, ends]; split <;> simp
  | seq p q ihp ihq => simp only [matchK, ends, ihp, ihq, findSome?_flatMap]
  | alt p q ihp ihq => simp only [matchK, ends, ihp, ihq, List.findSome?_append]
  | star p ih =>
    rw [matchK, ends, ← starK_eq]
    simp only [ih]
  | group i p ih => simp only [matchK, ends, ih, List.findSome?_map]; rfl

theorem matchAt_eq (p : Pattern) (c : Place) :
    p.matchAt c = (p.ends c []).head?.map fun r =>
      ⟨c.before, textBetween c.rest r.1.rest, r.2, r.1.rest⟩ := by
  rw [matchAt, matchK_eq]
  cases p.ends c [] <;> rfl

theorem skip?_suffix (cs : List Char) (c c' : Place) (h : c.skip? cs = some c') :
    c'.rest <:+ c.rest := by
  induction cs generalizing c with
  | nil =>
    cases h
    exact List.suffix_refl _
  | cons x cs ih =>
    obtain ⟨b, rest⟩ := c
    cases rest with
    | nil => simp [Place.skip?] at h
    | cons y rest =>
      rw [Place.skip?] at h
      split at h
      · exact (ih _ h).trans (List.suffix_cons y rest)
      · simp at h

theorem skipWhile_suffix (k : CharClass) (b : Option Char) (line : Line) :
    (Place.skipWhile k b line).rest <:+ line := by
  induction line generalizing b with
  | nil => exact List.suffix_refl _
  | cons x rest ih =>
    rw [Place.skipWhile]
    split
    · exact (ih _).trans (List.suffix_cons x rest)
    · exact List.suffix_refl _

theorem runEnds_suffix (k : CharClass) (b : Option Char) (line : Line) (c : Place)
    (h : c ∈ runEnds k b line) : c.rest <:+ line := by
  induction line generalizing b with
  | nil =>
    rw [runEnds, List.mem_singleton] at h
    exact h ▸ List.suffix_refl _
  | cons x rest ih =>
    rw [runEnds] at h
    split at h
    · rcases List.mem_append.1 h with h | h
      · exact (ih _ h).trans (List.suffix_cons x rest)
      · exact List.mem_singleton.1 h ▸ List.suffix_refl _
    · exact List.mem_singleton.1 h ▸ List.suffix_refl _

theorem fewestEnds_suffix (k : CharClass) (b : Option Char) (line : Line) (c : Place)
    (h : c ∈ fewestEnds k b line) : c.rest <:+ line := by
  induction line generalizing b with
  | nil =>
    rw [fewestEnds, List.mem_singleton] at h
    exact h ▸ List.suffix_refl _
  | cons x rest ih =>
    rw [fewestEnds] at h
    rcases List.mem_cons.1 h with h | h
    · exact h ▸ List.suffix_refl _
    · split at h
      · exact (ih _ h).trans (List.suffix_cons x rest)
      · simp at h

/-- A repetition keeps what each of its rounds keeps. -/
theorem starEnds_related (step : Place → List Mark → List (Place × List Mark))
    (R : Place × List Mark → Place × List Mark → Prop) (hrefl : ∀ a, R a a)
    (htrans : ∀ a b c, R a b → R b c → R a c) (hs : ∀ c m r, r ∈ step c m → R (c, m) r) (n : Nat)
    (c : Place) (m : List Mark) (r : Place × List Mark) (h : r ∈ starEnds step n c m) :
    R (c, m) r := by
  induction n generalizing c m with
  | zero =>
    rw [starEnds, List.mem_singleton] at h
    exact h ▸ hrefl _
  | succ n ih =>
    rw [starEnds, List.mem_append, List.mem_flatMap] at h
    rcases h with ⟨s, hfirst, h⟩ | h
    · exact htrans _ s r (hs c m s hfirst) (ih s.1 s.2 h)
    · exact List.mem_singleton.1 h ▸ hrefl _

theorem ends_suffix (p : Pattern) (c : Place) (m : List Mark) (r : Place × List Mark)
    (h : r ∈ p.ends c m) : r.1.rest <:+ c.rest := by
  induction p generalizing c m r with
  | empty =>
    rw [ends, List.mem_singleton] at h
    exact h ▸ List.suffix_refl _
  | text cs =>
    rw [ends, List.mem_map] at h
    obtain ⟨c', hc, rfl⟩ := h
    exact skip?_suffix cs c c' (by simpa using hc)
  | one k =>
    rw [ends] at h
    cases hr : c.rest with
    | nil => simp [hr] at h
    | cons x rest =>
      simp only [hr] at h
      split at h
      · exact List.mem_singleton.1 h ▸ List.suffix_cons x rest
      · simp at h
  | span k =>
    rw [ends, List.mem_singleton] at h
    exact h ▸ skipWhile_suffix k c.before c.rest
  | run k =>
    rw [ends, List.mem_map] at h
    obtain ⟨c', hc, rfl⟩ := h
    exact runEnds_suffix k _ _ c' hc
  | fewest k =>
    rw [ends, List.mem_map] at h
    obtain ⟨c', hc, rfl⟩ := h
    exact fewestEnds_suffix k _ _ c' hc
  | edge =>
    rw [ends] at h
    split at h
    · exact List.mem_singleton.1 h ▸ List.suffix_refl _
    · simp at h
  | start =>
    rw [ends] at h
    split at h
    · exact List.mem_singleton.1 h ▸ List.suffix_refl _
    · simp at h
  | seq p q ihp ihq =>
    rw [ends, List.mem_flatMap] at h
    obtain ⟨s, hs, h⟩ := h
    exact (ihq _ _ _ h).trans (ihp _ _ _ hs)
  | alt p q ihp ihq =>
    rw [ends, List.mem_append] at h
    exact h.elim (ihp _ _ _) (ihq _ _ _)
  | star p ih =>
    exact starEnds_related _ (fun a b => b.1.rest <:+ a.1.rest) (fun _ => List.suffix_refl _)
      (fun _ _ _ hab hbc => hbc.trans hab) (fun c m r => ih c m r) _ c m r h
  | group i p ih =>
    rw [ends, List.mem_map] at h
    obtain ⟨s, hs, rfl⟩ := h
    exact ih c m s hs

theorem textBetween_append (line last : Line) (h : last <:+ line) :
    textBetween line last ++ last = line := by
  obtain ⟨t, rfl⟩ := h
  simp [textBetween]

/-- A hit is what stands at its place: its text and then what follows it. -/
theorem matchAt_text (p : Pattern) (c : Place) (h : Hit) (hm : p.matchAt c = some h) :
    h.text ++ h.after = c.rest := by
  rw [matchAt_eq, Option.map_eq_some_iff] at hm
  obtain ⟨r, hr, rfl⟩ := hm
  exact textBetween_append _ _ (ends_suffix p c [] r (List.mem_of_mem_head? hr))

end JvsSharp.Pattern
