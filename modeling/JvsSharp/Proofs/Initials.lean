import JvsSharp.Proofs.Folding
import Mathlib.Algebra.Ring.Parity
import Mathlib.Data.List.Induction

/-!
# Initials of the segments of a name

In a name of ASCII characters the casing of segments goes from left to right
and has to know only whether the next character is an initial. An underscore
makes it one unless the underscore is an initial itself, so of a run of
underscores it is the parity that counts: a letter is an initial exactly if an
odd number of them stands right before it.
-/

set_option autoImplicit false

namespace JvsSharp

def nameChar : CharClass := .union .lower (.union .upper (.union .digit (.only '_')))

def IsNameText (w : Line) : Prop := ∀ c ∈ w, nameChar.mem c = true

section
variable {c : Char} (h : nameChar.mem c = true)
include h

theorem nameChar_code : c.toNat < 0x80 := by
  have hnine : '9'.toNat = 57 := rfl
  simp only [nameChar, CharClass.mem, Bool.or_eq_true, isLower_iff, isUpper_iff,
    Char.isDigit_iff_toNat, beq_iff_eq] at h
  rcases h with h | h | h | rfl
  · omega
  · omega
  · omega
  · decide

theorem nameChar_toUpper : nameChar.mem c.toUpper = true ∧ c.toUpper.toUpper = c.toUpper ∧
    c.toUpper.toLower = c.toLower ∧ (c.toUpper == '_') = (c == '_') := by
  refine Unicode.forall_ascii (P := fun c => nameChar.mem c = true → nameChar.mem c.toUpper = true ∧
    c.toUpper.toUpper = c.toUpper ∧ c.toUpper.toLower = c.toLower ∧
      (c.toUpper == '_') = (c == '_')) ?_ c (nameChar_code h) h
  decide +kernel

theorem isWord_nameChar : Unicode.isWord c = true :=
  CharClass.isWord_of_inWord nameChar (by decide) c h

theorem upper_nameChar : Unicode.upper c = [c.toUpper] := by
  rw [Unicode.upper, if_pos (nameChar_code h)]

theorem foldCase_nameChar : foldCase c = c.toLower := by
  have hcode := nameChar_code h
  have hs : c ≠ 'ſ' := by
    rintro rfl
    exact absurd hcode (by decide)
  have hk : c.toNat ≠ 0x212A := by omega
  rw [foldCase, if_neg hs, if_neg hk]

end

/-- A letter in lower case is the only character that has another upper case. -/
theorem toUpper_eq_self_iff (c : Char) : c.toUpper = c ↔ c.isLower = false := by
  constructor
  · intro hself
    rw [Bool.eq_false_iff]
    intro hlower
    have hcode := (isLower_iff c).1 hlower
    refine Unicode.forall_ascii (P := fun c => c.isLower = true → c.toUpper ≠ c) ?_ c (by omega)
      hlower hself
    decide +kernel
  · exact Unicode.toUpper_of_not_isLower c

namespace Casing

def dueAfter (due : Bool) (c : Char) : Bool := !due && c == '_'

def upperInitials : Bool → Line → Line
  | _, [] => []
  | due, c :: rest => (if due then c.toUpper else c) :: upperInitials (dueAfter due c) rest

theorem upperInitials_other (c : Char) (rest : Line) (hc : (c == '_') = false) :
    upperInitials false (c :: rest) = c :: upperInitials false rest := by
  rw [upperInitials, dueAfter, hc]
  rfl

theorem pascalRest_eq (w : Line) (hw : IsNameText w) : pascalRest w = upperInitials false w := by
  fun_induction pascalRest w with
  | case1 => rfl
  | case2 c => rfl
  | case3 c d rest hcd ih =>
    have hd : nameChar.mem d = true := hw d (by simp)
    have hc : c = '_' := by simpa [isWord_nameChar hd] using hcd
    rw [ih fun x hx => hw x (by simp [hx]), upper_nameChar hd, hc]
    rfl
  | case4 c d rest hcd ih =>
    have hd : nameChar.mem d = true := hw d (by simp)
    have hc : (c == '_') = false := by simpa [isWord_nameChar hd] using hcd
    rw [ih fun x hx => hw x (List.mem_cons_of_mem c hx), upperInitials_other c _ hc]

theorem pascal_eq (w : Line) (hw : IsNameText w) : pascal w = upperInitials true w := by
  cases w with
  | nil => rfl
  | cons c rest =>
    have hc : nameChar.mem c = true := hw c (by simp)
    rw [pascal, if_pos (isWord_nameChar hc), upper_nameChar hc,
      pascalRest_eq rest fun x hx => hw x (by simp [hx])]
    rfl

theorem capitalizeFirst_eq (c : Char) (rest : Line) (hc : nameChar.mem c = true) :
    capitalizeFirst (c :: rest) = c.toUpper :: rest := by
  rw [capitalizeFirst, upper_nameChar hc]
  rfl

section
variable (due : Bool) (w : Line) (hw : IsNameText w)
include hw

theorem isNameText_upperInitials : IsNameText (upperInitials due w) := by
  induction w generalizing due with
  | nil => exact hw
  | cons c rest ih =>
    intro d hd
    have hc : nameChar.mem c = true := hw c (by simp)
    rcases List.mem_cons.1 hd with rfl | hd
    · cases due with
      | true => exact (nameChar_toUpper hc).1
      | false => exact hc
    · exact ih _ (fun x hx => hw x (by simp [hx])) d hd

theorem upperInitials_idempotent :
    upperInitials due (upperInitials due w) = upperInitials due w := by
  induction w generalizing due with
  | nil => rfl
  | cons c rest ih =>
    obtain ⟨-, htwice, -, hunderscore⟩ := nameChar_toUpper (hw c (by simp))
    have hrest := ih (dueAfter due c) fun x hx => hw x (by simp [hx])
    cases due with
    | true => simpa [upperInitials, dueAfter, htwice] using hrest
    | false => simpa [upperInitials] using hrest

theorem map_toLower_upperInitials :
    (upperInitials due w).map Char.toLower = w.map Char.toLower := by
  induction w generalizing due with
  | nil => rfl
  | cons c rest ih =>
    obtain ⟨-, -, hlower, -⟩ := nameChar_toUpper (hw c (by simp))
    rw [upperInitials, List.map_cons, List.map_cons, ih _ fun x hx => hw x (by simp [hx])]
    cases due with
    | true => rw [if_pos rfl, hlower]
    | false => rfl

end

theorem upperInitials_eq_self_iff (due : Bool) (w : Line) :
    upperInitials due w = w ↔ ∀ pre c post, w = pre ++ c :: post →
      pre.foldl dueAfter due = true → c.isLower = false := by
  induction w generalizing due with
  | nil => simp [upperInitials]
  | cons d rest ih =>
    rw [upperInitials, List.cons.injEq, ih]
    constructor
    · rintro ⟨hd, hrest⟩ pre c post hline hdue
      cases pre with
      | nil =>
        obtain ⟨rfl, rfl⟩ := List.cons.inj hline
        rw [List.foldl_nil] at hdue
        rw [hdue, if_pos rfl] at hd
        exact (toUpper_eq_self_iff d).1 hd
      | cons x pre =>
        obtain ⟨rfl, rfl⟩ := List.cons.inj hline
        exact hrest pre c post rfl hdue
    · intro h
      constructor
      · cases due with
        | true => exact (toUpper_eq_self_iff d).2 (h [] d rest rfl rfl)
        | false => rfl
      · intro pre c post hline hdue
        exact h (d :: pre) c post (by rw [hline]; rfl) hdue

def trailingUnderscores (w : Line) : Nat := (w.reverse.takeWhile (· == '_')).length

theorem trailingUnderscores_concat (w : Line) (c : Char) : trailingUnderscores (w ++ [c]) =
    if c == '_' then trailingUnderscores w + 1 else 0 := by
  rw [trailingUnderscores, List.reverse_append, List.reverse_singleton, List.singleton_append,
    List.takeWhile_cons]
  split
  · rfl
  · rfl

theorem due_iff_odd (w : Line) :
    w.foldl dueAfter false = true ↔ Odd (trailingUnderscores w) := by
  induction w using List.reverseRecOn with
  | nil => simp [trailingUnderscores]
  | append_singleton w c ih =>
    rw [List.foldl_append, List.foldl_cons, List.foldl_nil, trailingUnderscores_concat, dueAfter]
    by_cases hc : (c == '_') = true
    · rw [hc, if_pos rfl, Bool.and_true, Nat.odd_add_one, ← ih, Bool.not_eq_true,
        Bool.not_eq_true']
    · rw [if_neg hc]
      simp [hc]

/-- A segment behind the first one starts in lower case. Underscores are counted in pairs, so
its letter stands behind an odd number of them. -/
def HasLowerSegment (w : Line) : Prop :=
  ∃ pre c post, w = pre ++ c :: post ∧ c.isLower = true ∧ Odd (trailingUnderscores pre)

theorem upperInitials_eq_self_iff_segments (w : Line) :
    upperInitials false w = w ↔ ¬HasLowerSegment w := by
  rw [upperInitials_eq_self_iff]
  constructor
  · rintro h ⟨pre, c, post, hline, hlower, hodd⟩
    have hnot := h pre c post hline ((due_iff_odd pre).2 hodd)
    exact nomatch hnot.symm.trans hlower
  · intro h pre c post hline hdue
    rw [Bool.eq_false_iff]
    exact fun hlower => h ⟨pre, c, post, hline, hlower, (due_iff_odd pre).1 hdue⟩

/-- The two casings of a name agree if its later segments start in upper case already. -/
theorem capitalizeFirst_eq_pascal_iff (c : Char) (rest : Line) (hc : c.isLower = true)
    (hw : IsNameText (c :: rest)) :
    capitalizeFirst (c :: rest) = pascal (c :: rest) ↔ ¬HasLowerSegment (c :: rest) := by
  have hne : (c == '_') = false := by
    rw [beq_eq_false_iff_ne]
    rintro rfl
    exact absurd hc (by decide)
  have hpascal : upperInitials true (c :: rest) = c.toUpper :: upperInitials false rest := rfl
  rw [← upperInitials_eq_self_iff_segments, upperInitials_other c rest hne, pascal_eq _ hw,
    hpascal, capitalizeFirst_eq c rest (hw c (by simp)), List.cons.injEq, List.cons.injEq,
    and_iff_right rfl, and_iff_right rfl]
  exact eq_comm

end Casing

end JvsSharp
