import JvsSharp.Proofs.Contained

/-!
# Edits that take characters away

Some edits take marked characters away wherever they have an effect. What one
such edit takes away no later one brings back, so a sequence of them leaves a
line as it is only if each of them does, whatever the order. If every match
loses a marked character, the edit leaves exactly the lines alone in which it
does not occur.
-/

set_option autoImplicit false

namespace JvsSharp
open Pattern

def Sheds (marked : Char → Bool) (xs ys : Line) : Prop :=
  ys.countP marked < xs.countP marked ∨ ys = xs

namespace Sheds

variable {marked : Char → Bool}

theorem countP_le {xs ys : Line} (h : Sheds marked xs ys) :
    ys.countP marked ≤ xs.countP marked := by
  rcases h with hless | rfl
  · exact Nat.le_of_lt hless
  · exact Nat.le_refl _

theorem piecewise (marked : Char → Bool) : Piecewise (Sheds marked) where
  nil := .inr rfl
  char _ := .inr rfl
  append := by
    intro xs xs' ys ys' hx hy
    have hx' := hx.countP_le
    have hy' := hy.countP_le
    rcases hx with hx | rfl
    · left
      rw [List.countP_append, List.countP_append]
      omega
    rcases hy with hy | rfl
    · left
      rw [List.countP_append, List.countP_append]
      omega
    · exact .inr rfl

end Sheds

namespace Pattern

variable {p : Pattern} {f : Hit → Line} {b : Option Char} {line line' : Line}

/-- If every match loses a marked character, a pass without an effect has found no match. -/
theorem Replaced.countP_lt {marked : Char → Bool} (h : p.Replaced f b line line')
    (hf : ∀ c h, p.matchAt c = some h → (f h).countP marked < h.text.countP marked) :
    line'.countP marked < line.countP marked ∨ Quiet p b line [] := by
  induction h with
  | nil b => exact .inr trivial
  | @keep b c rest rest' hm _ ih =>
    rcases ih with hless | hquiet
    · left
      rw [List.countP_cons, List.countP_cons]
      omega
    · exact .inr ⟨by rw [List.append_nil]; exact hm, hquiet⟩
  | @hit b h rest' hm hrest _ =>
    have hhit := hf _ h hm
    have hmore := (hrest.piecewise (Sheds.piecewise marked) fun c h hm =>
      .inl (hf c h hm)).countP_le
    left
    rw [List.countP_append, List.countP_append]
    omega

theorem occursIn_of_quiet (p : Pattern) (hp : p.isFilled = true) (line : Line)
    (h : Quiet p none line []) : p.occursIn line = false := by
  refine occursIn_absent p line ((searchFrom_eq_none_iff p none line).2 ⟨h, ?_⟩)
  cases hm : p.matchAt ⟨behind none line, []⟩ with
  | none => rfl
  | some hit =>
    have htext := matchAt_text p _ hit hm
    exact absurd (List.append_eq_nil_iff.1 htext).1 (text_ne_nil p hp _ hit hm)

end Pattern

namespace Edit

theorem apply_of_not_occursIn (e : Edit) (line : Line) (h : e.pattern.occursIn line = false) :
    e.apply line = line :=
  e.apply_absent line (by simpa [occursIn, Absent] using h)

variable {marked : Char → Bool}

theorem apply_sheds (e : Edit)
    (he : ∀ c h, e.pattern.matchAt c = some h → Sheds marked h.text (e.render h)) (line : Line) :
    Sheds marked line (e.apply line) :=
  replaceAll_piecewise (Sheds.piecewise marked) he line

/-- An edit of which every match loses marked characters leaves a line as it is only if it does
not occur there. -/
theorem apply_eq_iff_of_lt (e : Edit)
    (he : ∀ c h, e.pattern.matchAt c = some h →
      (e.render h).countP marked < h.text.countP marked)
    (hfilled : e.pattern.isFilled = true) (line : Line) :
    e.apply line = line ↔ e.pattern.occursIn line = false := by
  refine ⟨fun hsame => ?_, e.apply_of_not_occursIn line⟩
  rcases (e.replaced hfilled line).countP_lt he with hless | hquiet
  · rw [hsame] at hless
    exact absurd hless (Nat.lt_irrefl _)
  · exact occursIn_of_quiet e.pattern hfilled line hquiet

section
variable (es : List Edit) (hes : ∀ e ∈ es, ∀ line, Sheds marked line (e.apply line))
include hes

theorem countP_applyAll_le (line : Line) :
    (applyAll es line).countP marked ≤ line.countP marked := by
  induction es generalizing line with
  | nil => exact Nat.le_refl _
  | cons e es ih =>
    have hlater := ih (fun e' he' => hes e' (by simp [he'])) (e.apply line)
    exact Nat.le_trans hlater (hes e (by simp) line).countP_le

/-- Such edits, one after the other, leave a line as it is only if each of them does: what one of
them takes away does not come back. -/
theorem applyAll_eq_iff (line : Line) :
    applyAll es line = line ↔ ∀ e ∈ es, e.apply line = line := by
  induction es with
  | nil => simp [applyAll]
  | cons e es ih =>
    have hrest : ∀ e' ∈ es, ∀ line, Sheds marked line (e'.apply line) := fun e' he' =>
      hes e' (by simp [he'])
    change applyAll es (e.apply line) = line ↔ _
    rw [List.forall_mem_cons, ← ih hrest]
    refine ⟨fun heq => ?_, fun h => by rw [h.1, h.2]⟩
    have hsame : e.apply line = line := by
      have hlater := countP_applyAll_le es hrest (e.apply line)
      rw [heq] at hlater
      rcases hes e (by simp) line with hless | hsame
      · omega
      · exact hsame
    rw [hsame] at heq
    exact ⟨hsame, heq⟩

end

end Edit

end JvsSharp
