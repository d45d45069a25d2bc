import JvsSharp.Proofs.Caseless
import JvsSharp.Proofs.Taking

/-!
# Words in any mixture of cases

A pattern that asks for a word in any case goes over the texts that the
folding of case turns into that word. Of the characters beyond ASCII two are
folded to an ASCII letter, the long s and the Kelvin sign.
-/

set_option autoImplicit false

namespace JvsSharp

theorem isUpper_iff (c : Char) : c.isUpper = true ↔ 65 ≤ c.toNat ∧ c.toNat ≤ 90 := by
  change decide (65 ≤ c.val ∧ c.val ≤ 90) = true ↔ _
  simp [UInt32.le_iff_toNat_le, ← Char.toNat_val]

theorem isLower_iff (c : Char) : c.isLower = true ↔ 97 ≤ c.toNat ∧ c.toNat ≤ 122 := by
  change (decide (97 ≤ c.val) && decide (c.val ≤ 122)) = true ↔ _
  simp [UInt32.le_iff_toNat_le, ← Char.toNat_val]

theorem not_isUpper_of_code (c : Char) (h : 90 < c.toNat) : c.isUpper = false := by
  rw [Bool.eq_false_iff, ne_eq, isUpper_iff]
  omega

/-- The simple folding of case. A character whose folding is not ASCII is left as it is, since
no word that is looked for holds one. -/
def foldCase (c : Char) : Char :=
  if c = 'ſ' then 's' else if c.toNat = 0x212A then 'k' else c.toLower

theorem toLower_of_isLower (c : Char) (h : c.isLower = true) : c.toLower = c := by
  rw [isLower_iff] at h
  exact Unicode.toLower_of_not_isUpper c (not_isUpper_of_code c (by omega))

theorem toLower_toLower (c : Char) : c.toLower.toLower = c.toLower := by
  cases hc : c.isUpper with
  | false => rw [Unicode.toLower_of_not_isUpper c hc, Unicode.toLower_of_not_isUpper c hc]
  | true =>
    have hcode := (isUpper_iff c).1 hc
    rcases (Unicode.ascii_case c (by omega)).2 with hself | hlower
    · rw [hself, hself]
    · exact toLower_of_isLower _ hlower

theorem mem_eitherCase_iff (c x : Char) (hc : c.isLower = true) :
    (CharClass.eitherCase c).mem x = true ↔ foldCase x = c := by
  have hcode := (isLower_iff c).1 hc
  have hself : 90 < x.toNat → x.toLower = x := fun hx =>
    Unicode.toLower_of_not_isUpper x (not_isUpper_of_code x hx)
  simp only [CharClass.mem, toLower_of_isLower c hc, Bool.or_eq_true, Bool.and_eq_true, beq_iff_eq]
  by_cases hs : x = 'ſ'
  · have hne : ('ſ' : Char) ≠ c := by
      rintro rfl
      exact absurd hcode (by decide)
    rw [hs] at hself ⊢
    rw [hself (by decide)]
    simp [foldCase, hne, eq_comm]
  · by_cases hk : x.toNat = 0x212A
    · have hne : x ≠ c := by
        rintro rfl
        omega
      rw [hself (by omega)]
      simp [foldCase, hs, hk, hne, eq_comm]
    · simp [foldCase, hs, hk]

namespace Pattern

def folded (cs : List Char) : Pattern := all (cs.map fun c => .one (.eitherCase c))

theorem anyCase_eq (s : String) : anyCase s = folded s.toList := rfl

theorem mem_ends_folded (cs : List Char) (hcs : ∀ d ∈ cs, d.isLower = true) (c : Place)
    (m : List Mark) (r : Place × List Mark) (h : r ∈ (folded cs).ends c m) :
    ∃ xs, c.Leads xs r.1 ∧ xs.map foldCase = cs := by
  induction cs generalizing c m with
  | nil =>
    have hr : r = (c, m) := List.mem_singleton.1 h
    exact ⟨[], hr ▸ .refl c, rfl⟩
  | cons d cs ih =>
    obtain ⟨s, hs, hrest⟩ := List.mem_flatMap.1 h
    obtain ⟨x, rest, htext, hx, rfl⟩ := mem_ends_one _ c m s hs
    obtain ⟨xs, hleads, hfold⟩ := ih (fun e he => hcs e (by simp [he])) _ _ hrest
    have hfirst : c.Leads [x] ⟨some x, rest⟩ := ⟨htext, rfl⟩
    refine ⟨[x] ++ xs, hfirst.trans hleads, ?_⟩
    rw [mem_eitherCase_iff d x (hcs d (by simp))] at hx
    rw [List.map_append, hfold, List.map_singleton, hx]
    rfl

theorem ends_folded_toLower (cs : List Char) (c : Place) (m : List Mark) :
    (folded cs).ends c m = (folded (cs.map Char.toLower)).ends c m := by
  have hmem : ∀ d x : Char,
      (CharClass.eitherCase d).mem x = (CharClass.eitherCase d.toLower).mem x := by
    intro d x
    rw [CharClass.mem, CharClass.mem, toLower_toLower]
  induction cs generalizing c m with
  | nil => rfl
  | cons d cs ih =>
    simp only [folded, all, List.map_cons, List.foldr_cons, ends, hmem d]
    congr
    funext r
    exact ih r.1 r.2

theorem matchK_folded {α : Type} (cs : List Char) (hcs : ∀ d ∈ cs, d.isLower = true)
    (b : Option Char) (xs rest : Line) (hxs : xs.map foldCase = cs) (m : List Mark)
    (f : Place → List Mark → Option α) :
    (folded cs).matchK ⟨b, xs ++ rest⟩ m f = f ⟨behind b xs, rest⟩ m := by
  induction xs generalizing cs b with
  | nil =>
    rw [← hxs]
    rfl
  | cons x xs ih =>
    rw [List.map_cons] at hxs
    subst hxs
    have hmem := (mem_eitherCase_iff (foldCase x) x (hcs _ (by simp))).2 rfl
    have hrest := ih _ (fun d hd => hcs d (by simp [hd])) (some x) rfl
    simp only [folded, List.map_cons, matchK_all_cons, matchK, List.cons_append, hmem, if_true]
    exact hrest

end Pattern

end JvsSharp
