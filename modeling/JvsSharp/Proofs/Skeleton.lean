import JvsSharp.Proofs.Outline
import JvsSharp.Proofs.Piecewise

/-!
# The delimiters that a match is made of

The skeleton of a text is what is left of it when all but its parentheses,
brackets, braces and angle brackets is taken out. If the parts of a pattern
that stand outside its groups take no delimiters but those of fixed texts, the
skeleton of every match is known up to the groups: it is a list of signs and
groups that can be read off the pattern. An edit whose template has the same
list keeps the skeleton of every line.
-/

set_option autoImplicit false

namespace JvsSharp

def delimiterPairs : List (Char × Char) :=
  [('(', ')'), ('[', ']'), ('\x7b', '\x7d'), ('<', '>')]

def delimiters : List Char := delimiterPairs.flatMap fun p => [p.1, p.2]

def isDelimiter (c : Char) : Bool := delimiters.contains c

def skeleton (line : Line) : Line := line.filter isDelimiter

@[simp] theorem skeleton_append (xs ys : Line) :
    skeleton (xs ++ ys) = skeleton xs ++ skeleton ys := List.filter_append ..

theorem skeleton_eq_nil (line : Line) (h : ∀ c ∈ line, isDelimiter c = false) :
    skeleton line = [] := by
  rw [skeleton, List.filter_eq_nil_iff]
  intro c hc
  simp [h c hc]

def CharClass.isBare (k : CharClass) : Bool := delimiters.all fun c => !k.mem c

theorem CharClass.not_isDelimiter (k : CharClass) (hk : k.isBare = true) (c : Char)
    (hc : k.mem c = true) : isDelimiter c = false := by
  cases hd : isDelimiter c with
  | false => rfl
  | true =>
    have hnot := List.all_eq_true.1 hk c (List.contains_iff_mem.1 hd)
    simp [hc] at hnot

inductive Atom where
  | sign (c : Char)
  | group (i : Nat)
  deriving DecidableEq, Repr

def groupText (m : List Mark) (i : Nat) : Line :=
  match m.find? fun mark => mark.group == i with
  | some mark => mark.text
  | none => []

theorem Hit.group_eq (h : Hit) (i : Nat) : h.group i = groupText h.marks i := rfl

namespace Atom

def skeleton (a : Atom) (m : List Mark) : Line :=
  match a with
  | .sign c => [c]
  | .group i => JvsSharp.skeleton (groupText m i)

def isOutside (is : List Nat) : Atom → Bool
  | .sign _ => true
  | .group i => !is.contains i

def skeletonOf (m : List Mark) (as : List Atom) : Line := as.flatMap fun a => a.skeleton m

theorem skeletonOf_cons (m : List Mark) (a : Atom) (as : List Atom) :
    skeletonOf m (a :: as) = a.skeleton m ++ skeletonOf m as := List.flatMap_cons

theorem skeletonOf_append (m : List Mark) (as bs : List Atom) :
    skeletonOf m (as ++ bs) = skeletonOf m as ++ skeletonOf m bs := List.flatMap_append

theorem skeletonOf_signs (m : List Mark) (cs : Line) : skeletonOf m (cs.map .sign) = cs := by
  induction cs with
  | nil => rfl
  | cons c cs ih => exact congrArg (c :: ·) ih

end Atom

namespace Pattern

def groups : Pattern → List Nat
  | .seq p q => p.groups ++ q.groups
  | .alt p q => p.groups ++ q.groups
  | .star p => p.groups
  | .group i p => i :: p.groups
  | _ => []

/-- What the skeleton of a match is made of, if it can be told. A group may not be marked
again by what follows it, and the choices of the pattern have to agree. -/
def atoms : Pattern → Option (List Atom)
  | .empty => some []
  | .text cs => some ((skeleton cs).map .sign)
  | .one k => if k.isBare then some [] else none
  | .span k => if k.isBare then some [] else none
  | .run k => if k.isBare then some [] else none
  | .fewest k => if k.isBare then some [] else none
  | .edge => some []
  | .start => some []
  | .seq p q =>
      p.atoms.bind fun as => q.atoms.bind fun bs =>
        if as.all (Atom.isOutside q.groups) then some (as ++ bs) else none
  | .alt p q => if p.atoms = q.atoms then p.atoms else none
  | .star p => if p.atoms = some [] then some [] else none
  | .group i _ => some [.group i]

theorem ends_groupText (p : Pattern) (c : Place) (m : List Mark) (r : Place × List Mark)
    (h : r ∈ p.ends c m) (i : Nat) (hi : i ∉ p.groups) : groupText r.2 i = groupText m i := by
  induction p generalizing c m r with
  | empty =>
    rw [ends, List.mem_singleton] at h
    rw [h]
  | text cs =>
    rw [ends, List.mem_map] at h
    obtain ⟨c', -, rfl⟩ := h
    rfl
  | one k =>
    obtain ⟨x, rest, -, -, rfl⟩ := mem_ends_one k c m r h
    rfl
  | span k =>
    rw [ends, List.mem_singleton] at h
    rw [h]
  | run k =>
    rw [ends, List.mem_map] at h
    obtain ⟨c', -, rfl⟩ := h
    rfl
  | fewest k =>
    rw [ends, List.mem_map] at h
    obtain ⟨c', -, rfl⟩ := h
    rfl
  | edge => rw [(mem_ends_edge c m r h).2]
  | start => rw [(mem_ends_start c m r h).2]
  | seq p q ihp ihq =>
    rw [groups, List.mem_append, not_or] at hi
    rw [ends, List.mem_flatMap] at h
    obtain ⟨s, hs, h⟩ := h
    rw [ihq _ _ _ h hi.2, ihp _ _ _ hs hi.1]
  | alt p q ihp ihq =>
    rw [groups, List.mem_append, not_or] at hi
    rw [ends, List.mem_append] at h
    exact h.elim (fun h => ihp _ _ _ h hi.1) fun h => ihq _ _ _ h hi.2
  | star p ih =>
    exact starEnds_related _ (fun a b => groupText b.2 i = groupText a.2 i) (fun _ => rfl)
      (fun _ _ _ hab hbc => hbc.trans hab) (fun c m r h => ih c m r h hi) _ c m r h
  | group j p ih =>
    rw [groups, List.mem_cons, not_or] at hi
    rw [ends, List.mem_map] at h
    obtain ⟨s, hs, rfl⟩ := h
    have hj : (j == i) = false := beq_false_of_ne (Ne.symm hi.1)
    rw [← ih c m s hs hi.2, groupText, List.find?_cons, hj]
    rfl

theorem ends_skeletonOf (p : Pattern) (c : Place) (m : List Mark) (r : Place × List Mark)
    (h : r ∈ p.ends c m) (as : List Atom) (has : as.all (Atom.isOutside p.groups) = true) :
    Atom.skeletonOf r.2 as = Atom.skeletonOf m as := by
  induction as with
  | nil => rfl
  | cons a as ih =>
    rw [List.all_cons, Bool.and_eq_true] at has
    have hfirst : a.skeleton r.2 = a.skeleton m := by
      cases a with
      | sign c => rfl
      | group i =>
        have hi : i ∉ p.groups := by simpa [Atom.isOutside] using has.1
        rw [Atom.skeleton, Atom.skeleton, ends_groupText p c m r h i hi]
    rw [Atom.skeletonOf_cons, Atom.skeletonOf_cons, hfirst, ih has.2]

theorem skeleton_of_passes (k : CharClass) (c c' : Place) (h : Passes k c c')
    (hk : k.isBare = true) : ∃ xs, c.rest = xs ++ c'.rest ∧ skeleton xs = [] := by
  obtain ⟨xs, hleads, hmem⟩ := h
  exact ⟨xs, hleads.1, skeleton_eq_nil xs fun x hx => k.not_isDelimiter hk x (hmem x hx)⟩

theorem starEnds_skeleton (step : Place → List Mark → List (Place × List Mark))
    (hstep : ∀ c m r, r ∈ step c m → ∃ xs, c.rest = xs ++ r.1.rest ∧ skeleton xs = [])
    (n : Nat) (c : Place) (m : List Mark) (r : Place × List Mark) (h : r ∈ starEnds step n c m) :
    ∃ xs, c.rest = xs ++ r.1.rest ∧ skeleton xs = [] := by
  refine starEnds_related step
    (fun a b => ∃ xs, a.1.rest = xs ++ b.1.rest ∧ skeleton xs = []) (fun _ => ⟨[], rfl, rfl⟩) ?_
    hstep n c m r h
  rintro a b c ⟨xs, hxs, hbare⟩ ⟨ys, hys, hbare'⟩
  exact ⟨xs ++ ys, by rw [hxs, hys, List.append_assoc], by simp [hbare, hbare']⟩

/-- The skeleton of what a match goes over is that of the atoms of its pattern. -/
theorem ends_atoms (p : Pattern) (as : List Atom) (has : p.atoms = some as) (c : Place)
    (m : List Mark) (r : Place × List Mark) (h : r ∈ p.ends c m) :
    ∃ xs, c.rest = xs ++ r.1.rest ∧ skeleton xs = Atom.skeletonOf r.2 as := by
  induction p generalizing as c m r with
  | empty =>
    cases has
    rw [ends, List.mem_singleton] at h
    exact ⟨[], by rw [h]; rfl, rfl⟩
  | text cs =>
    cases has
    rw [ends, List.mem_map] at h
    obtain ⟨c', hc, rfl⟩ := h
    have hleads := skip?_leads cs c c' (by simpa using hc)
    exact ⟨cs, hleads.1, (Atom.skeletonOf_signs m _).symm⟩
  | one k =>
    rw [atoms, Option.ite_none_right_eq_some] at has
    obtain ⟨hk, has⟩ := has
    cases has
    obtain ⟨x, rest, hrest, hx, rfl⟩ := mem_ends_one k c m r h
    exact ⟨[x], hrest, skeleton_eq_nil [x] fun y hy =>
      List.mem_singleton.1 hy ▸ k.not_isDelimiter hk x hx⟩
  | span k =>
    rw [atoms, Option.ite_none_right_eq_some] at has
    obtain ⟨hk, has⟩ := has
    cases has
    rw [ends, List.mem_singleton] at h
    exact skeleton_of_passes k c r.1 (h ▸ skipWhile_passes k c.before c.rest) hk
  | run k =>
    rw [atoms, Option.ite_none_right_eq_some] at has
    obtain ⟨hk, has⟩ := has
    cases has
    rw [ends, List.mem_map] at h
    obtain ⟨c', hc, rfl⟩ := h
    exact skeleton_of_passes k c c' (runEnds_passes k _ _ c' hc) hk
  | fewest k =>
    rw [atoms, Option.ite_none_right_eq_some] at has
    obtain ⟨hk, has⟩ := has
    cases has
    rw [ends, List.mem_map] at h
    obtain ⟨c', hc, rfl⟩ := h
    exact skeleton_of_passes k c c' (fewestEnds_passes k _ _ c' hc) hk
  | edge =>
    cases has
    exact ⟨[], by rw [(mem_ends_edge c m r h).2]; rfl, rfl⟩
  | start =>
    cases has
    exact ⟨[], by rw [(mem_ends_start c m r h).2]; rfl, rfl⟩
  | seq p q ihp ihq =>
    rw [atoms, Option.bind_eq_some_iff] at has
    obtain ⟨as, hp, has⟩ := has
    obtain ⟨bs, hq, has⟩ := Option.bind_eq_some_iff.1 has
    rw [Option.ite_none_right_eq_some] at has
    obtain ⟨houtside, has⟩ := has
    cases has
    rw [ends, List.mem_flatMap] at h
    obtain ⟨s, hs, h⟩ := h
    obtain ⟨xs, hxs, hskeleton⟩ := ihp as hp c m s hs
    obtain ⟨ys, hys, hskeleton'⟩ := ihq bs hq s.1 s.2 r h
    refine ⟨xs ++ ys, by rw [hxs, hys, List.append_assoc], ?_⟩
    -- The second part marks none of the groups that the atoms of the first part read.
    rw [skeleton_append, Atom.skeletonOf_append, hskeleton, hskeleton',
      ends_skeletonOf q s.1 s.2 r h as houtside]
  | alt p q ihp ihq =>
    rw [atoms, Option.ite_none_right_eq_some] at has
    rw [ends, List.mem_append] at h
    exact h.elim (fun h => ihp as has.2 c m r h) fun h => ihq as (has.1 ▸ has.2) c m r h
  | star p ih =>
    rw [atoms, Option.ite_none_right_eq_some] at has
    obtain ⟨hp, has⟩ := has
    cases has
    exact starEnds_skeleton _ (fun c m r => ih [] hp c m r) _ c m r h
  | group i p ih =>
    cases has
    rw [ends, List.mem_map] at h
    obtain ⟨s, hs, rfl⟩ := h
    obtain ⟨xs, hxs⟩ := ends_suffix p c m s hs
    refine ⟨xs, hxs.symm, ?_⟩
    have hgroup : groupText (⟨i, c.rest, s.1.rest⟩ :: s.2) i = xs := by
      rw [groupText, List.find?_cons, beq_self_eq_true]
      change textBetween c.rest s.1.rest = xs
      rw [← hxs, textBetween_left]
    simp [Atom.skeletonOf, Atom.skeleton, hgroup]

theorem matchAt_atoms (p : Pattern) (as : List Atom) (has : p.atoms = some as) (c : Place)
    (h : Hit) (hm : p.matchAt c = some h) : skeleton h.text = Atom.skeletonOf h.marks as := by
  rw [matchAt_eq, Option.map_eq_some_iff] at hm
  obtain ⟨r, hr, rfl⟩ := hm
  obtain ⟨xs, hxs, hskeleton⟩ := ends_atoms p as has c [] r (List.mem_of_mem_head? hr)
  rw [hxs, textBetween_left, hskeleton]

end Pattern

def SameSkeleton (xs ys : Line) : Prop := skeleton ys = skeleton xs

theorem SameSkeleton.piecewise : Piecewise SameSkeleton where
  nil := rfl
  char _ := rfl
  append {xs xs' ys ys'} hx hy := by
    rw [SameSkeleton, skeleton_append, skeleton_append, hx, hy]

namespace Part

def atoms : Part → List Atom
  | .text cs => (skeleton cs).map .sign
  | .group i => [.group i]
  | .mapped _ i => [.group i]

def KeepsSkeleton : Part → Prop
  | .mapped f _ => ∀ xs, skeleton (f xs) = skeleton xs
  | _ => True

theorem render_skeleton (part : Part) (hpart : part.KeepsSkeleton) (h : Hit) :
    skeleton (part.render h) = Atom.skeletonOf h.marks part.atoms := by
  cases part with
  | text cs => exact (Atom.skeletonOf_signs h.marks _).symm
  | group i => exact (List.append_nil _).symm
  | mapped f i => exact (hpart _).trans (List.append_nil _).symm

end Part

namespace Edit

def templateAtoms (e : Edit) : List Atom := e.template.flatMap Part.atoms

def IsFaithful (e : Edit) : Prop := e.pattern.atoms = some e.templateAtoms

instance (e : Edit) : Decidable e.IsFaithful := inferInstanceAs (Decidable (_ = _))

def KeepsSkeleton (e : Edit) : Prop := e.IsFaithful ∧ ∀ part ∈ e.template, part.KeepsSkeleton

theorem render_skeleton (e : Edit) (he : ∀ part ∈ e.template, part.KeepsSkeleton) (h : Hit) :
    skeleton (e.render h) = Atom.skeletonOf h.marks e.templateAtoms := by
  obtain ⟨pattern, parts⟩ := e
  rw [render, templateAtoms]
  induction parts with
  | nil => rfl
  | cons part parts ih =>
    rw [List.flatMap_cons, List.flatMap_cons, skeleton_append, Atom.skeletonOf_append,
      part.render_skeleton (he part (by simp)), ih fun p hp => he p (by simp [hp])]

theorem render_sameSkeleton (e : Edit) (he : e.KeepsSkeleton) (c : Place) (h : Hit)
    (hm : e.pattern.matchAt c = some h) : SameSkeleton h.text (e.render h) := by
  rw [SameSkeleton, e.render_skeleton he.2, Pattern.matchAt_atoms _ _ he.1 c h hm]

theorem apply_skeleton (e : Edit) (he : e.KeepsSkeleton) (line : Line) :
    skeleton (e.apply line) = skeleton line :=
  Pattern.replaceAll_piecewise SameSkeleton.piecewise (e.render_sameSkeleton he) line

theorem applyAll_skeleton (es : List Edit) (hes : ∀ e ∈ es, e.KeepsSkeleton) (line : Line) :
    skeleton (applyAll es line) = skeleton line := by
  induction es generalizing line with
  | nil => rfl
  | cons e es ih =>
    calc skeleton (applyAll es (e.apply line))
      _ = skeleton (e.apply line) := ih (fun e' he' => hes e' (by simp [he'])) _
      _ = skeleton line := e.apply_skeleton (hes e (by simp)) line

end Edit

end JvsSharp
