import JvsSharp.Proofs.Folding
import JvsSharp.Proofs.Locality
import JvsSharp.Proofs.Phrases
import JvsSharp.Proofs.Piecewise
import Mathlib.Data.List.Infix

/-!
# Lines that no rule recognises

Many patterns have a fixed text in every one of their ways, so they cannot
occur in a line without that text. All rules of the general mode are set off
by a few such texts, but for two: constants need an underscore to be changed,
and `else` is looked for in any case. A line without any of these is written
as it was read.
-/

set_option autoImplicit false

namespace JvsSharp

namespace Pattern

def needs (ws : List Line) : Pattern → Bool
  | .text cs => ws.any fun w => decide (w <:+: cs)
  | .seq p q => p.needs ws || q.needs ws
  | .alt p q => p.needs ws && q.needs ws
  | .group _ p => p.needs ws
  | _ => false

theorem ends_of_needs (ws : List Line) (p : Pattern) (hp : p.needs ws = true) (c : Place)
    (m : List Mark) (r : Place × List Mark) (h : r ∈ p.ends c m) :
    ∃ xs, c.Leads xs r.1 ∧ ∃ w ∈ ws, w <:+: xs := by
  induction p generalizing c m r with
  | text cs =>
    rw [needs, List.any_eq_true] at hp
    obtain ⟨w, hw, hinfix⟩ := hp
    rw [ends, List.mem_map] at h
    obtain ⟨c', hc, rfl⟩ := h
    exact ⟨cs, skip?_leads cs c c' (by simpa using hc), w, hw, of_decide_eq_true hinfix⟩
  | seq p q ihp ihq =>
    rw [needs, Bool.or_eq_true] at hp
    rw [ends, List.mem_flatMap] at h
    obtain ⟨s, hs, h⟩ := h
    rcases hp with hp | hq
    · obtain ⟨xs, hx, w, hw, hinfix⟩ := ihp hp c m s hs
      obtain ⟨ys, hy⟩ := ends_leads q s.1 s.2 r h
      exact ⟨xs ++ ys, hx.trans hy, w, hw, hinfix.trans (List.infix_append' [] xs ys)⟩
    · obtain ⟨xs, hx⟩ := ends_leads p c m s hs
      obtain ⟨ys, hy, w, hw, hinfix⟩ := ihq hq s.1 s.2 r h
      exact ⟨xs ++ ys, hx.trans hy, w, hw, hinfix.trans (List.suffix_append xs ys).isInfix⟩
  | alt p q ihp ihq =>
    rw [needs, Bool.and_eq_true] at hp
    rw [ends, List.mem_append] at h
    exact h.elim (ihp hp.1 c m r) (ihq hp.2 c m r)
  | group i p ih =>
    rw [ends, List.mem_map] at h
    obtain ⟨s, hs, rfl⟩ := h
    exact ih hp c m s hs
  | _ => exact absurd hp Bool.false_ne_true

theorem infix_of_leads (pre rest xs : Line) (b : Option Char) (c : Place)
    (h : Place.Leads ⟨b, rest⟩ xs c) : xs <:+: pre ++ rest :=
  ⟨pre, c.rest, by rw [show rest = xs ++ c.rest from h.1, List.append_assoc]⟩

theorem absent_of_needs (ws : List Line) (p : Pattern) (hp : p.needs ws = true) (line : Line)
    (h : ∀ w ∈ ws, ¬w <:+: line) : p.Absent line := by
  refine absent_of_forall p line fun pre rest hline => matchAt_eq_none p _ fun r hr => ?_
  obtain ⟨xs, hleads, w, hw, hinfix⟩ := ends_of_needs ws p hp _ [] r hr
  exact h w hw (hline ▸ hinfix.trans (infix_of_leads pre rest xs _ r.1 hleads))

end Pattern

open Pattern

def recognisedTexts : List Line :=
  ["(", "<", "@", "_", "extends", "implements", "import ", "System.out.print", "class",
   "interface", "public", "package", "final", "boolean", "Boolean", "Integer", "Long", "Float",
   "Double", "Character", "Byte", "Short", "String"].map String.toList

structure Unrecognised (line : Line) : Prop where
  no_text : ∀ text ∈ recognisedTexts, ¬text <:+: line
  no_else : ¬"else".toList <:+: line.map foldCase

/-- Only the constants and the mending of `else` are set off without such a text. -/
theorem triggers_need : ∀ r ∈ Mode.general.rules, r ≠ .constants →
    ∀ p ∈ r.triggers, p = Rules.elseIf.pattern ∨ p.needs recognisedTexts = true := by
  decide +kernel

theorem elseIf_absent (line : Line) (h : ¬"else".toList <:+: line.map foldCase) :
    Rules.elseIf.pattern.Absent line := by
  refine absent_of_forall _ line fun pre rest hline => matchAt_eq_none _ _ fun r hr => ?_
  simp only [Rules.elseIf, all, List.foldr_cons, ends, List.mem_flatMap] at hr
  obtain ⟨s, hs, t, ht, -⟩ := hr
  obtain ⟨-, rfl⟩ := mem_ends_edge _ _ _ hs
  rw [anyCase_eq] at ht
  obtain ⟨xs, hleads, hfold⟩ := mem_ends_folded _ (by decide) _ _ _ ht
  have hinfix : xs <:+: line := hline ▸ infix_of_leads pre rest xs _ t.1 hleads
  exact h (hfold ▸ hinfix.map foldCase)

namespace Unrecognised

variable {line : Line} (h : Unrecognised line)
include h

theorem triggers_absent (r : Rule) (hr : r ∈ Mode.general.rules) (hne : r ≠ .constants) :
    ∀ p ∈ r.triggers, p.Absent line := by
  intro p hp
  rcases triggers_need r hr hne p hp with rfl | hneeds
  · exact elseIf_absent line h.no_else
  · exact absent_of_needs _ p hneeds line h.no_text

theorem no_underscore : '_' ∉ line := by
  intro hmem
  obtain ⟨pre, post, hline⟩ := List.append_of_mem hmem
  refine h.no_text ['_'] (by decide) ⟨pre, post, ?_⟩
  rw [hline, List.append_assoc]
  rfl

theorem turns (index : Index) (r : Rule) (hr : r ∈ Mode.general.rules) :
    Turns index [r] line line := by
  by_cases hconstants : r = .constants
  · subst hconstants
    exact .single (fun _ => rfl) (Rules.constants_eq_self line h.no_underscore)
  · refine .absent fun other hother => ?_
    rw [List.mem_singleton.1 hother]
    exact h.triggers_absent r hr hconstants

theorem trackOverride_idle (state : OverrideState) :
    Rules.trackOverride ⟨line, state⟩ = ⟨line, .idle⟩ := by
  have habsent := h.triggers_absent .override (by decide) (by decide)
  have hmarker : Rules.overrideMarker.occursIn line = false :=
    occursIn_absent _ line (habsent _ (by simp [Rule.triggers]))
  rw [Rules.trackOverride, hmarker]
  cases state with
  | idle => rfl
  | pending =>
    have hkept := replaceFirst_absent _ Rules.overridable.render line
      (habsent Rules.overridable.pattern (by simp [Rule.triggers]))
    simp only [hkept]
    rfl

end Unrecognised

/-- A line that no rule of the general mode recognises is written as it was read, whatever the
index holds and whatever the line before it was, and it leaves no mark for the next one. -/
theorem unrecognised_line_kept (line : Line) (h : Unrecognised line) (index : Index)
    (state : OverrideState) :
    convertLine Mode.general.rules index ⟨line, state⟩ = ⟨line, .idle⟩ := by
  have hturns : Turns index Locality.plainRules line line :=
    .all fun r hr => h.turns index r (List.dropLast_subset _ hr)
  have hplain : convertLine Locality.plainRules index ⟨line, state⟩ = ⟨line, state⟩ := by
    rw [Locality.convertLine_plain index Locality.plainRules (by decide) line state,
      hturns .idle]
  rw [Locality.general_rules, Locality.convertLine_append, hplain]
  exact h.trackOverride_idle state

def nearMisses : Line := "x = System.in; import; elſif klass, strings→ѕtrıng[privat];".toList

/-- Words that come close to the recognised ones are not recognised: `import` without a blank
behind it, `elſif`, `System.in`, `strings`, and others with letters beyond ASCII. -/
theorem near_misses_kept :
    Unrecognised nearMisses ∧
      convertLine Mode.general.rules [("x".toList, ⟨"List", "int".toList⟩)]
        ⟨nearMisses, .pending⟩ = ⟨nearMisses, .idle⟩ := by
  have h : Unrecognised nearMisses := ⟨by decide +kernel, by decide +kernel⟩
  exact ⟨h, unrecognised_line_kept nearMisses h _ .pending⟩

end JvsSharp
