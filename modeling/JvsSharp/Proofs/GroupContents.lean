import JvsSharp.Proofs.Skeleton

/-!
# What the groups of a match hold

The characters that a pattern can go over are known by their classes, and so
is whether it goes over any at all. If the last part that marks a group passes
such a test, then so does the text of the group in every match.
-/

set_option autoImplicit false

namespace JvsSharp

namespace CharClass

def partOf (j : CharClass) : CharClass → Bool
  | .union a b => j.partOf a || j.partOf b
  | .word => j.inWord
  | k => j == k

def within : CharClass → CharClass → Bool
  | .only c, k => k.mem c
  | .oneOf cs, k => cs.all k.mem
  | .union a b, k => a.within k && b.within k
  | j, k => j.partOf k

theorem mem_of_partOf (j k : CharClass) (h : j.partOf k = true) (x : Char)
    (hx : j.mem x = true) : k.mem x = true := by
  induction k with
  | union a b iha ihb =>
    rw [partOf, Bool.or_eq_true] at h
    rw [mem, Bool.or_eq_true]
    exact h.imp iha ihb
  | word => exact isWord_of_inWord j h x hx
  | _ => exact eq_of_beq h ▸ hx

theorem mem_of_within (j k : CharClass) (h : j.within k = true) (x : Char)
    (hx : j.mem x = true) : k.mem x = true := by
  induction j with
  | only c =>
    rw [mem, beq_iff_eq] at hx
    exact hx ▸ h
  | oneOf cs => exact List.all_eq_true.1 h x (by simpa [mem] using hx)
  | union a b iha ihb =>
    rw [within, Bool.and_eq_true] at h
    rw [mem, Bool.or_eq_true] at hx
    exact hx.elim (iha h.1) (ihb h.2)
  | _ => exact mem_of_partOf _ k h x hx

end CharClass

namespace Pattern

theorem Passes.trans {k : CharClass} {a b c : Place} (h : Passes k a b) (h' : Passes k b c) :
    Passes k a c := by
  obtain ⟨xs, hxs, hx⟩ := h
  obtain ⟨ys, hys, hy⟩ := h'
  refine ⟨xs ++ ys, hxs.trans hys, fun z hz => ?_⟩
  exact (List.mem_append.1 hz).elim (hx z) (hy z)

theorem Passes.mono {j k : CharClass} (hjk : j.within k = true) {c c' : Place}
    (h : Passes j c c') : Passes k c c' := by
  obtain ⟨xs, hxs, hx⟩ := h
  exact ⟨xs, hxs, fun x hmem => CharClass.mem_of_within j k hjk x (hx x hmem)⟩

def takes (k : CharClass) : Pattern → Bool
  | .empty => true
  | .text cs => cs.all k.mem
  | .one j => j.within k
  | .span j => j.within k
  | .run j => j.within k
  | .fewest j => j.within k
  | .edge => true
  | .start => true
  | .seq p q => p.takes k && q.takes k
  | .alt p q => p.takes k && q.takes k
  | .star p => p.takes k
  | .group _ p => p.takes k

theorem ends_takes (k : CharClass) (p : Pattern) (hp : p.takes k = true) (c : Place)
    (m : List Mark) (r : Place × List Mark) (h : r ∈ p.ends c m) : Passes k c r.1 := by
  induction p generalizing c m r with
  | empty =>
    rw [ends, List.mem_singleton] at h
    exact h ▸ .refl k c
  | text cs =>
    rw [ends, List.mem_map] at h
    obtain ⟨c', hc, rfl⟩ := h
    exact ⟨cs, skip?_leads cs c c' (by simpa using hc), List.all_eq_true.1 hp⟩
  | one j =>
    obtain ⟨x, rest, hrest, hx, rfl⟩ := mem_ends_one j c m r h
    refine ⟨[x], ⟨hrest, rfl⟩, fun y hy => ?_⟩
    exact List.mem_singleton.1 hy ▸ CharClass.mem_of_within j k hp x hx
  | span j =>
    rw [ends, List.mem_singleton] at h
    exact h ▸ (skipWhile_passes j c.before c.rest).mono hp
  | run j =>
    rw [ends, List.mem_map] at h
    obtain ⟨c', hc, rfl⟩ := h
    exact (runEnds_passes j _ _ c' hc).mono hp
  | fewest j =>
    rw [ends, List.mem_map] at h
    obtain ⟨c', hc, rfl⟩ := h
    exact (fewestEnds_passes j _ _ c' hc).mono hp
  | edge => rw [(mem_ends_edge c m r h).2]; exact .refl k c
  | start => rw [(mem_ends_start c m r h).2]; exact .refl k c
  | seq p q ihp ihq =>
    rw [takes, Bool.and_eq_true] at hp
    rw [ends, List.mem_flatMap] at h
    obtain ⟨s, hs, h⟩ := h
    exact (ihp hp.1 _ _ _ hs).trans (ihq hp.2 _ _ _ h)
  | alt p q ihp ihq =>
    rw [takes, Bool.and_eq_true] at hp
    rw [ends, List.mem_append] at h
    exact h.elim (ihp hp.1 _ _ _) (ihq hp.2 _ _ _)
  | star p ih =>
    exact starEnds_related _ (fun a b => Passes k a.1 b.1) (fun a => .refl k a.1)
      (fun _ _ _ hab hbc => hab.trans hbc) (ih hp) _ c m r h
  | group i p ih =>
    rw [ends, List.mem_map] at h
    obtain ⟨s, hs, rfl⟩ := h
    exact ih hp c m s hs

def isFilled : Pattern → Bool
  | .text cs => !cs.isEmpty
  | .one _ => true
  | .seq p q => p.isFilled || q.isFilled
  | .alt p q => p.isFilled && q.isFilled
  | .group _ p => p.isFilled
  | _ => false

theorem ends_isFilled (p : Pattern) (hp : p.isFilled = true) (c : Place) (m : List Mark)
    (r : Place × List Mark) (h : r ∈ p.ends c m) : r.1.rest.length < c.rest.length := by
  induction p generalizing c m r with
  | text cs =>
    rw [ends, List.mem_map] at h
    obtain ⟨c', hc, rfl⟩ := h
    obtain ⟨hrest, -⟩ := skip?_leads cs c c' (by simpa using hc)
    have hcs : 0 < cs.length := List.length_pos_iff.2 (by simpa [isFilled] using hp)
    have hlength := congrArg List.length hrest
    rw [List.length_append] at hlength
    change c'.rest.length < c.rest.length
    omega
  | one k =>
    obtain ⟨x, rest, hrest, -, rfl⟩ := mem_ends_one k c m r h
    simp [hrest]
  | seq p q ihp ihq =>
    rw [ends, List.mem_flatMap] at h
    obtain ⟨s, hs, h⟩ := h
    have hfirst := (ends_suffix p _ _ _ hs).length_le
    have hsecond := (ends_suffix q _ _ _ h).length_le
    rw [isFilled, Bool.or_eq_true] at hp
    rcases hp with hp | hp
    · have := ihp hp _ _ _ hs
      omega
    · have := ihq hp _ _ _ h
      omega
  | alt p q ihp ihq =>
    rw [isFilled, Bool.and_eq_true] at hp
    rw [ends, List.mem_append] at h
    exact h.elim (ihp hp.1 _ _ _) (ihq hp.2 _ _ _)
  | group i p ih =>
    rw [ends, List.mem_map] at h
    obtain ⟨s, hs, rfl⟩ := h
    exact ih hp c m s hs
  | _ => exact absurd hp Bool.false_ne_true

def sets (test : Pattern → Bool) (i : Nat) : Pattern → Bool
  | .seq p q => q.sets test i || (!q.groups.contains i && p.sets test i)
  | .alt p q => p.sets test i && q.sets test i
  | .group j p => if j = i then test p else p.sets test i
  | _ => false

section
variable {test : Pattern → Bool} (Φ : Line → Prop)
  (htest : ∀ p, test p = true → ∀ c m r, r ∈ p.ends c m → Φ (textBetween c.rest r.1.rest))
include htest

/-- What the test tells of all that a part goes over holds of the group that the part marks. -/
theorem ends_sets (i : Nat) (p : Pattern) (hp : p.sets test i = true) (c : Place)
    (m : List Mark) (r : Place × List Mark) (h : r ∈ p.ends c m) : Φ (groupText r.2 i) := by
  induction p generalizing c m r with
  | seq p q ihp ihq =>
    rw [ends, List.mem_flatMap] at h
    obtain ⟨s, hs, h⟩ := h
    rw [sets, Bool.or_eq_true, Bool.and_eq_true] at hp
    rcases hp with hp | ⟨hq, hp⟩
    · exact ihq hp _ _ _ h
    · rw [ends_groupText q _ _ _ h i (by simpa using hq)]
      exact ihp hp _ _ _ hs
  | alt p q ihp ihq =>
    rw [sets, Bool.and_eq_true] at hp
    rw [ends, List.mem_append] at h
    exact h.elim (ihp hp.1 _ _ _) (ihq hp.2 _ _ _)
  | group j p ih =>
    rw [ends, List.mem_map] at h
    obtain ⟨s, hs, rfl⟩ := h
    rw [sets] at hp
    by_cases hj : j = i
    · rw [if_pos hj] at hp
      rw [groupText, List.find?_cons, hj, beq_self_eq_true]
      exact htest p hp c m s hs
    · rw [if_neg hj] at hp
      rw [groupText, List.find?_cons, beq_false_of_ne hj]
      exact ih hp c m s hs
  | _ => exact absurd hp Bool.false_ne_true

theorem group_of_sets (i : Nat) (p : Pattern) (hp : p.sets test i = true) (c : Place) (h : Hit)
    (hm : p.matchAt c = some h) : Φ (h.group i) := by
  rw [matchAt_eq, Option.map_eq_some_iff] at hm
  obtain ⟨r, hr, rfl⟩ := hm
  exact ends_sets Φ htest i p hp c [] r (List.mem_of_mem_head? hr)

end

theorem group_mem (k : CharClass) (i : Nat) (p : Pattern) (hp : p.sets (takes k) i = true)
    (c : Place) (h : Hit) (hm : p.matchAt c = some h) : ∀ x ∈ h.group i, k.mem x = true := by
  refine group_of_sets (fun xs => ∀ x ∈ xs, k.mem x = true) (fun q hq c m r hr => ?_) i p hp c h hm
  obtain ⟨xs, hxs, hx⟩ := ends_takes k q hq c m r hr
  rw [hxs.1, textBetween_left]
  exact hx

theorem group_ne_nil (i : Nat) (p : Pattern) (hp : p.sets isFilled i = true)
    (c : Place) (h : Hit) (hm : p.matchAt c = some h) : h.group i ≠ [] := by
  refine group_of_sets (· ≠ []) (fun q hq c m r hr => ?_) i p hp c h hm
  have hlength := ends_isFilled q hq c m r hr
  obtain ⟨xs, hxs⟩ := ends_suffix q c m r hr
  rw [← hxs, List.length_append] at hlength
  rw [← hxs, textBetween_left]
  exact List.length_pos_iff.1 (by omega)

end Pattern

end JvsSharp
