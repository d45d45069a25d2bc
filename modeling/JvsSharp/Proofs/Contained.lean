import JvsSharp.Proofs.Newlines
import JvsSharp.Proofs.RenamingPasses

/-!
# Replacing within a stretch

A pattern that goes over no `d` finds all its matches between two of them. So
a line may be cut at a `d`: what is replaced before it stays before it, and
what stands behind it is replaced as if nothing had happened. Characters that
an edit does not bring in are missing in the result if they are missing in
the text.
-/

set_option autoImplicit false

namespace JvsSharp

namespace Pattern

def skirts (d : Char) : Pattern → Bool
  | .empty | .edge | .start => true
  | .text cs => !cs.contains d
  | .one k | .span k | .run k | .fewest k => !k.mem d
  | .seq p q | .alt p q => p.skirts d && q.skirts d
  | .star p | .group _ p => p.skirts d

theorem Passes.not_mem {k : CharClass} {d : Char} (hk : k.mem d = false) {c c' : Place}
    (h : Passes k c c') : ∃ xs, c.Leads xs c' ∧ d ∉ xs := by
  obtain ⟨xs, hleads, hxs⟩ := h
  exact ⟨xs, hleads, fun hmem => Bool.false_ne_true (hk.symm.trans (hxs d hmem))⟩

theorem ends_skirts (d : Char) (p : Pattern) (hp : p.skirts d = true) (c : Place) (m : List Mark)
    (r : Place × List Mark) (h : r ∈ p.ends c m) : ∃ xs, c.Leads xs r.1 ∧ d ∉ xs := by
  have hjoin : ∀ {a b c : Place}, (∃ xs, a.Leads xs b ∧ d ∉ xs) →
      (∃ xs, b.Leads xs c ∧ d ∉ xs) → ∃ xs, a.Leads xs c ∧ d ∉ xs := by
    rintro a b c ⟨xs, hxs, hx⟩ ⟨ys, hys, hy⟩
    exact ⟨xs ++ ys, hxs.trans hys, by simp [hx, hy]⟩
  have hstay : ∀ c : Place, ∃ xs, c.Leads xs c ∧ d ∉ xs := fun c => ⟨[], .refl c, by simp⟩
  induction p generalizing c m r with
  | empty =>
    rw [ends, List.mem_singleton] at h
    exact h ▸ hstay c
  | text cs => exact ⟨cs, mem_ends_text cs c m r h, by simpa [skirts] using hp⟩
  | one k =>
    obtain ⟨x, rest, hrest, hx, rfl⟩ := mem_ends_one k c m r h
    refine ⟨[x], ⟨hrest, rfl⟩, fun hmem => ?_⟩
    rw [← List.mem_singleton.1 hmem] at hx
    simp [skirts, hx] at hp
  | span k =>
    rw [ends, List.mem_singleton] at h
    exact h ▸ (skipWhile_passes k c.before c.rest).not_mem (by simpa [skirts] using hp)
  | run k =>
    rw [ends, List.mem_map] at h
    obtain ⟨c', hc, rfl⟩ := h
    exact (runEnds_passes k _ _ c' hc).not_mem (by simpa [skirts] using hp)
  | fewest k =>
    rw [ends, List.mem_map] at h
    obtain ⟨c', hc, rfl⟩ := h
    exact (fewestEnds_passes k _ _ c' hc).not_mem (by simpa [skirts] using hp)
  | edge => exact (mem_ends_edge c m r h).2 ▸ hstay c
  | start => exact (mem_ends_start c m r h).2 ▸ hstay c
  | seq p q ihp ihq =>
    rw [skirts, Bool.and_eq_true] at hp
    rw [ends, List.mem_flatMap] at h
    obtain ⟨s, hs, h⟩ := h
    exact hjoin (ihp hp.1 _ _ _ hs) (ihq hp.2 _ _ _ h)
  | alt p q ihp ihq =>
    rw [skirts, Bool.and_eq_true] at hp
    rw [ends, List.mem_append] at h
    exact h.elim (ihp hp.1 _ _ _) (ihq hp.2 _ _ _)
  | star p ih =>
    exact starEnds_related _ (fun a b => ∃ xs, a.1.Leads xs b.1 ∧ d ∉ xs) (fun a => hstay a.1)
      (fun _ _ _ => hjoin) (ih hp) _ c m r h
  | group i p ih =>
    rw [ends, List.mem_map] at h
    obtain ⟨s, hs, rfl⟩ := h
    exact ih hp c m s hs

theorem not_mem_text (d : Char) (p : Pattern) (hp : p.skirts d = true) (c : Place) (h : Hit)
    (hm : p.matchAt c = some h) : d ∉ h.text := by
  rw [matchAt_eq, Option.map_eq_some_iff] at hm
  obtain ⟨r, hr, rfl⟩ := hm
  obtain ⟨xs, hxs, hd⟩ := ends_skirts d p hp c [] r (List.mem_of_mem_head? hr)
  rw [hxs.1, textBetween_left]
  exact hd

/-- Replacing before a character that the pattern goes around stays before it. -/
theorem replaceFrom_cut (p : Pattern) (hp : p.isFilled = true) (d : Char)
    (hd : p.skirts d = true) (f : Hit → Line) {R : Line → Line → Prop} (hR : Piecewise R)
    (hf : ∀ c h, p.matchAt c = some h → R h.text (f h)) (b : Option Char) (xs rest : Line) :
    ∃ xs', R xs xs' ∧ p.replaceFrom f b (xs ++ d :: rest) =
      xs' ++ p.replaceFrom f (behind b xs) (d :: rest) := by
  induction hn : xs.length using Nat.strongRecOn generalizing b xs with
  | _ n ih =>
    cases xs with
    | nil => exact ⟨[], hR.nil, rfl⟩
    | cons c xs =>
      cases hm : p.matchAt ⟨b, c :: (xs ++ d :: rest)⟩ with
      | none =>
        have hstep := replaceFrom_quiet p f b [c] (xs ++ d :: rest) ⟨hm, trivial⟩
        obtain ⟨xs', hxs, hrest⟩ := ih xs.length (by simp [← hn]) (some c) xs rfl
        refine ⟨c :: xs', hR.append (hR.char c) hxs, ?_⟩
        rw [List.cons_append, List.cons_append]
        exact hstep.trans (congrArg (c :: ·) hrest)
      | some h =>
        have hne := text_ne_nil p hp _ h hm
        have htext : h.text ++ h.after = (c :: xs) ++ d :: rest := matchAt_text p _ h hm
        -- The match ends before the character.
        obtain ⟨ys, hxs, hafter⟩ : ∃ ys, c :: xs = h.text ++ ys ∧ h.after = ys ++ d :: rest := by
          rcases List.append_eq_append_iff.1 htext with ⟨ys, hxs, hafter⟩ | ⟨ys, hlong, hafter⟩
          · exact ⟨ys, hxs, hafter⟩
          · cases ys with
            | nil =>
              rw [List.append_nil] at hlong
              exact ⟨[], by rw [hlong, List.append_nil], hafter.symm⟩
            | cons y ys =>
              rw [List.cons_append, List.cons.injEq] at hafter
              refine absurd ?_ (not_mem_text d p hd _ h hm)
              rw [hlong, hafter.1]
              simp
        have hshorter : ys.length < n := by
          have hpos := List.length_pos_iff.2 hne
          rw [← hn, hxs, List.length_append]
          omega
        obtain ⟨ys', hys, hrest⟩ := ih _ hshorter (behind b h.text) ys rfl
        have hm' : p.matchAt ⟨b, h.text ++ (ys ++ d :: rest)⟩ = some h := by
          rw [← hafter, htext]
          exact hm
        refine ⟨f h ++ ys', hxs ▸ hR.append (hf _ h hm) hys, ?_⟩
        rw [hxs, List.append_assoc, replaceFrom_hit p f b h.text _ h hm' rfl hne, hrest,
          behind_append, List.append_assoc]

theorem Replaced.piecewise {p : Pattern} {f : Hit → Line} {R : Line → Line → Prop}
    (hR : Piecewise R) (hf : ∀ c h, p.matchAt c = some h → R h.text (f h)) {b : Option Char}
    {line line' : Line} (h : p.Replaced f b line line') : R line line' := by
  induction h with
  | nil b => exact hR.nil
  | keep _ _ ih => exact hR.append (hR.char _) ih
  | hit hm _ ih => exact hR.append (hf _ _ hm) ih

end Pattern

open Pattern

def Lacks (ds : List Char) (xs : Line) : Prop := ∀ d ∈ ds, d ∉ xs

theorem lacks_iff (ds : List Char) (xs : Line) :
    Lacks ds xs ↔ ∀ x ∈ xs, (CharClass.except ds).mem x = true := by
  simp only [Lacks, CharClass.mem, Bool.not_eq_true', List.contains_eq_mem, decide_eq_false_iff_not]
  exact ⟨fun h x hx hd => h x hd hx, fun h d hd hx => h d hx hd⟩

theorem lacks_append (ds : List Char) (xs ys : Line) :
    Lacks ds (xs ++ ys) ↔ Lacks ds xs ∧ Lacks ds ys := by
  simp only [Lacks, List.mem_append, not_or]
  exact ⟨fun h => ⟨fun d hd => (h d hd).1, fun d hd => (h d hd).2⟩,
    fun h d hd => ⟨h.1 d hd, h.2 d hd⟩⟩

theorem Lacks.piecewise (ds : List Char) :
    Piecewise fun xs ys => Lacks ds xs → Lacks ds ys where
  nil := id
  char _ := id
  append {xs xs' ys ys'} hx hy h := by
    rw [lacks_append] at h ⊢
    exact ⟨hx h.1, hy h.2⟩

namespace Edit

section
variable (e : Edit) (he : e.pattern.isFilled = true) (ds : List Char)
  (hspares : ∀ d ∈ ds, e.Spares d)
include hspares

theorem render_lacks (c : Place) (h : Hit) (hm : e.pattern.matchAt c = some h)
    (htext : Lacks ds h.text) : Lacks ds (e.render h) := fun d hd =>
  e.render_spares d (hspares d hd) c h hm (htext d hd)

include he

theorem replaceFrom_cut (d : Char) (hd : e.pattern.skirts d = true) (b : Option Char)
    (xs rest : Line) (hxs : Lacks ds xs) :
    ∃ xs', Lacks ds xs' ∧ e.pattern.replaceFrom e.render b (xs ++ d :: rest) =
      xs' ++ e.pattern.replaceFrom e.render (behind b xs) (d :: rest) := by
  obtain ⟨xs', hkeep, hcut⟩ := Pattern.replaceFrom_cut e.pattern he d hd e.render
    (Lacks.piecewise ds) (e.render_lacks ds hspares) b xs rest
  exact ⟨xs', hkeep hxs, hcut⟩

theorem replaceFrom_lacks (b : Option Char) (xs : Line) (hxs : Lacks ds xs) :
    Lacks ds (e.pattern.replaceFrom e.render b xs) :=
  (replaced_replaceFrom e.pattern he e.render b xs).piecewise (Lacks.piecewise ds)
    (e.render_lacks ds hspares) hxs

end

end Edit

end JvsSharp
