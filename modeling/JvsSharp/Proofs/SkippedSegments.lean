import JvsSharp.Proofs.Initials

/-!
# Segments that the casing skips

Every character behind an underscore begins a segment. The casing goes over
underscores in pairs, so it finds a segment behind an odd number of them and
skips one behind an even number. What becomes of the character at a place is
told by the underscores that stand right before it.
-/

set_option autoImplicit false

namespace JvsSharp.Casing

structure SegmentsRaised (w v : Line) : Prop where
  length : v.length = w.length
  first : ∀ c, w[0]? = some c → v[0]? = some c.toUpper
  segment : ∀ (i : Nat) c, w[i]? = some '_' → w[i + 1]? = some c → v[i + 1]? = some c.toUpper
  other : ∀ (i : Nat) b c, w[i]? = some b → b ≠ '_' → w[i + 1]? = some c → v[i + 1]? = some c

def underscoresBefore (w : Line) (i : Nat) : Nat := trailingUnderscores (w.take i)

/-- A letter in lower case stands behind an even number of underscores, at least two. -/
def SkipsSegment (w : Line) : Prop :=
  ∃ (i : Nat) (c : Char), w[i]? = some c ∧ c.isLower = true ∧ 0 < underscoresBefore w i ∧
    Even (underscoresBefore w i)

theorem underscoresBefore_succ (w : Line) (i : Nat) (b : Char) (h : w[i]? = some b) :
    underscoresBefore w (i + 1) = if b == '_' then underscoresBefore w i + 1 else 0 := by
  rw [underscoresBefore, List.take_add_one, h, Option.toList_some, trailingUnderscores_concat]
  rfl

theorem exists_before (w : Line) (i : Nat) (c : Char) (h : w[i + 1]? = some c) :
    ∃ b, w[i]? = some b := by
  obtain ⟨hlt, -⟩ := List.getElem?_eq_some_iff.1 h
  exact ⟨_, List.getElem?_eq_getElem (Nat.lt_of_succ_lt hlt)⟩

theorem getElem?_upperInitials (due : Bool) (w : Line) (i : Nat) :
    (upperInitials due w)[i]? =
      w[i]?.map fun c => if (w.take i).foldl dueAfter due then c.toUpper else c := by
  induction w generalizing due i with
  | nil => rfl
  | cons c rest ih =>
    cases i with
    | zero => rfl
    | succ i => exact ih (dueAfter due c) i

theorem length_pascal (w : Line) (hw : IsNameText w) : (pascal w).length = w.length := by
  have hletters := congrArg List.length (map_toLower_upperInitials true w hw)
  rwa [List.length_map, List.length_map, ← pascal_eq w hw] at hletters

section
variable {w : Line} (hfirst : w.head? ≠ some '_')
include hfirst

/-- The initial of the name counts as any other character does, since it is no underscore. -/
theorem due_iff (i : Nat) (c : Char) (hc : w[i]? = some c) :
    (w.take i).foldl dueAfter true = true ↔ i = 0 ∨ Odd (underscoresBefore w i) := by
  cases w with
  | nil => exact absurd hc (by simp)
  | cons d rest =>
    have hd : (d == '_') = false := by simpa using hfirst
    cases i with
    | zero => simp
    | succ i =>
      have hsame : dueAfter true d = dueAfter false d := by rw [dueAfter, dueAfter, hd]; rfl
      rw [underscoresBefore, ← due_iff_odd, List.take_succ_cons, List.foldl_cons, hsame,
        ← List.foldl_cons]
      simp

/-- The character at a place and the underscores right before it tell what the casing writes
there. -/
theorem getElem?_pascal (hw : IsNameText w) (i : Nat) : (pascal w)[i]? =
    w[i]?.map fun c => if i = 0 ∨ Odd (underscoresBefore w i) then c.toUpper else c := by
  rw [pascal_eq w hw, getElem?_upperInitials]
  cases hc : w[i]? with
  | none => rfl
  | some c =>
    rw [Option.map_some, Option.map_some, if_congr (due_iff hfirst i c hc) rfl rfl]

theorem not_raised_of_skips (hw : IsNameText w) (h : SkipsSegment w) :
    ¬SegmentsRaised w (pascal w) := by
  intro hraised
  obtain ⟨i, c, hc, hlower, hpos, heven⟩ := h
  cases i with
  | zero => exact absurd hpos (by simp [underscoresBefore, trailingUnderscores])
  | succ i =>
    obtain ⟨b, hb⟩ := exists_before w i c hc
    have hunderscore : b = '_' := by
      rw [underscoresBefore_succ w i b hb] at hpos
      by_contra hne
      simp [hne] at hpos
    have hupper := hraised.segment i c (hunderscore ▸ hb) hc
    have hkept : (pascal w)[i + 1]? = some c := by
      rw [getElem?_pascal hfirst hw, hc, Option.map_some, if_neg (by simpa using heven)]
    have hself : c.toUpper = c := Option.some.inj (hupper.symm.trans hkept)
    exact absurd ((toUpper_eq_self_iff c).1 hself) (by simp [hlower])

theorem raised_of_not_skips (hw : IsNameText w) (h : ¬SkipsSegment w) :
    SegmentsRaised w (pascal w) where
  length := length_pascal w hw
  first c hc := by
    rw [getElem?_pascal hfirst hw, hc, Option.map_some, if_pos (.inl rfl)]
  segment i c hi hc := by
    have hpos : 0 < underscoresBefore w (i + 1) := by
      rw [underscoresBefore_succ w i '_' hi]
      simp
    rw [getElem?_pascal hfirst hw, hc, Option.map_some]
    by_cases hodd : Odd (underscoresBefore w (i + 1))
    · rw [if_pos (.inr hodd)]
    · -- A segment that is not found has nothing to raise.
      have hself : c.toUpper = c := by
        rw [toUpper_eq_self_iff, Bool.eq_false_iff]
        exact fun hlower => h ⟨i + 1, c, hc, hlower, hpos, Nat.not_odd_iff_even.1 hodd⟩
      rw [if_neg (by simpa using hodd), hself]
  other i b c hi hb hc := by
    have hnone : underscoresBefore w (i + 1) = 0 := by
      rw [underscoresBefore_succ w i b hi, if_neg (by simpa using hb)]
    rw [getElem?_pascal hfirst hw, hc, Option.map_some, if_neg (by simp [hnone])]

end

/-- Behind an odd number of underscores the initial of a segment is raised and behind an even
number it is not. So every segment is raised if and only if none that stands behind an even number
of underscores starts in lower case. -/
theorem segments_raised_iff (w : Line) (hw : IsNameText w) (hfirst : w.head? ≠ some '_') :
    (∀ i : Nat, (pascal w)[i]? =
        w[i]?.map fun c => if i = 0 ∨ Odd (underscoresBefore w i) then c.toUpper else c) ∧
      (SegmentsRaised w (pascal w) ↔ ¬SkipsSegment w) := by
  refine ⟨getElem?_pascal hfirst hw, ?_⟩
  constructor
  · exact fun hraised hskips => not_raised_of_skips hfirst hw hskips hraised
  · exact raised_of_not_skips hfirst hw

/-- A capital behind two underscores needs no raising. -/
theorem capital_segment_raised :
    let name := "max_size__Of_2_rows".toList
    IsNameText name ∧ name.head? ≠ some '_' ∧ pascal name = "Max_Size__Of_2_Rows".toList ∧
      ¬SkipsSegment name ∧ SegmentsRaised name (pascal name) := by
  intro name
  have hname : IsNameText name := by unfold IsNameText; decide +kernel
  have hfirst : name.head? ≠ some '_' := by decide
  have hskips : ¬SkipsSegment name := by
    have hcapital : ∀ i < name.length, 0 < underscoresBefore name i →
        Even (underscoresBefore name i) → i = 10 := by decide +kernel
    rintro ⟨i, c, hc, hlower, hpos, heven⟩
    obtain rfl := hcapital i (List.getElem?_eq_some_iff.1 hc).1 hpos heven
    obtain rfl : 'O' = c := Option.some.inj hc
    exact absurd hlower (by decide)
  have hraised := (segments_raised_iff name hname hfirst).2.2 hskips
  exact ⟨hname, hfirst, by decide +kernel, hskips, hraised⟩

/-- The second of two underscores is taken for the initial of the segment. -/
theorem doubled_underscore_skips_segment :
    let name := "max__size".toList
    pascal name = "Max__size".toList ∧ ¬SegmentsRaised name (pascal name) := by
  intro name
  refine ⟨by decide +kernel, fun h => ?_⟩
  have hupper : (pascal name)[5]? = some 'S' := h.segment 4 's' rfl rfl
  revert hupper
  decide +kernel

end JvsSharp.Casing
