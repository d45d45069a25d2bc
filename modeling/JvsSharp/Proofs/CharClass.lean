import JvsSharp.Pattern.Basic

/-!
# What is known of a class of characters

Two questions about classes can be answered from their form: whether all their
members are word characters, or none of them, and whether two classes have a
member in common. The answers err on the safe side only.
-/

set_option autoImplicit false

namespace JvsSharp

instance (priority := 2000) decidableForallMem (p : Char → Prop) [DecidablePred p]
    (text : List Char) : Decidable (∀ c ∈ text, p c) :=
  -- An instance that runs through every character there is would be taken first otherwise.
  List.decidableBAll p text

namespace Unicode

def blankCodes : List Nat :=
  [0x9, 0xA, 0xB, 0xC, 0xD, 0x20, 0x85, 0xA0, 0x1680, 0x2000, 0x2001, 0x2002, 0x2003, 0x2004,
   0x2005, 0x2006, 0x2007, 0x2008, 0x2009, 0x200A, 0x2028, 0x2029, 0x202F, 0x205F, 0x3000]

theorem blankCodes_of_isBlank (c : Char) (h : isBlank c = true) : c.toNat ∈ blankCodes := by
  simp only [isBlank] at h
  simp only [blankCodes, List.mem_cons, List.not_mem_nil, or_false]
  split at h
  · simp only [Bool.or_eq_true, Bool.and_eq_true, beq_iff_eq, decide_eq_true_eq] at h
    omega
  · simp only [Bool.or_eq_true, Bool.and_eq_true, beq_iff_eq, decide_eq_true_eq] at h
    omega

theorem isWord_of_isBlank (c : Char) (h : isBlank c = true) : isWord c = false := by
  have hall : ∀ n ∈ blankCodes, isWord (Char.ofNat n) = false := by decide +kernel
  have hc := hall c.toNat (blankCodes_of_isBlank c h)
  rwa [Char.ofNat_toNat] at hc

theorem isAlphanum_iff (c : Char) :
    c.isAlphanum = true ↔ (c.isUpper = true ∨ c.isLower = true) ∨ c.isDigit = true := by
  change ((c.isUpper || c.isLower) || c.isDigit) = true ↔ _
  rw [Bool.or_eq_true, Bool.or_eq_true]

theorem isWord_of_isAlphanum (c : Char) (h : c.isAlphanum = true) : isWord c = true := by
  have hlow : c.toNat < 0x80 := by
    have hcode : (decide (65 ≤ c.val ∧ c.val ≤ 90) ||
        (decide (97 ≤ c.val) && decide (c.val ≤ 122)) ||
        (decide (48 ≤ c.val) && decide (c.val ≤ 57))) = true := h
    simp only [Bool.or_eq_true, Bool.and_eq_true, decide_eq_true_eq,
      UInt32.le_iff_toNat_le] at hcode
    change ((65 ≤ c.toNat ∧ c.toNat ≤ 90) ∨ (97 ≤ c.toNat ∧ c.toNat ≤ 122)) ∨
      (48 ≤ c.toNat ∧ c.toNat ≤ 57) at hcode
    omega
  rw [isWord, if_pos hlow, isAsciiWord, h]
  rfl

/-- A letter with the same lower case as `c` is a word character if that lower case is one. -/
theorem isWord_of_toLower (c x : Char) (hc : isWord c.toLower = true) (h : x.toLower = c.toLower) :
    isWord x = true := by
  by_cases hx : x.isUpper = true
  · exact isWord_of_isAlphanum x ((isAlphanum_iff x).2 (Or.inl (Or.inl hx)))
  · have hsame : x.toLower = x := dif_neg fun hr => hx (decide_eq_true hr)
    rw [← hsame, h]
    exact hc

end Unicode

namespace CharClass

def inWord : CharClass → Bool
  | .only c => Unicode.isWord c
  | .eitherCase c => Unicode.isWord c.toLower
  | .word | .lower | .upper | .digit => true
  | .oneOf cs => cs.all Unicode.isWord
  | .union a b => a.inWord && b.inWord
  | .blank | .inLine | .except _ => false

def offWord : CharClass → Bool
  | .only c => !Unicode.isWord c
  | .blank => true
  | .oneOf cs => cs.all fun c => !Unicode.isWord c
  | .union a b => a.offWord && b.offWord
  | .eitherCase _ | .word | .lower | .upper | .digit | .inLine | .except _ => false

theorem isWord_of_inWord (k : CharClass) (hk : k.inWord = true) (x : Char)
    (hx : k.mem x = true) : Unicode.isWord x = true := by
  induction k with
  | only c =>
    rw [mem, beq_iff_eq] at hx
    exact hx ▸ hk
  | eitherCase c =>
    simp only [mem, Bool.or_eq_true, Bool.and_eq_true, beq_iff_eq] at hx
    rcases hx with (hx | ⟨-, rfl⟩) | ⟨-, hx⟩
    · exact Unicode.isWord_of_toLower c x hk hx
    · decide
    · rw [← Char.ofNat_toNat x, hx]
      decide +kernel
  | word => exact hx
  | lower => exact Unicode.isWord_of_isAlphanum x ((Unicode.isAlphanum_iff x).2 (.inl (.inr hx)))
  | upper => exact Unicode.isWord_of_isAlphanum x ((Unicode.isAlphanum_iff x).2 (.inl (.inl hx)))
  | digit => exact Unicode.isWord_of_isAlphanum x ((Unicode.isAlphanum_iff x).2 (.inr hx))
  | oneOf cs =>
    rw [inWord, List.all_eq_true] at hk
    exact hk x (by simpa [mem] using hx)
  | union a b iha ihb =>
    rw [inWord, Bool.and_eq_true] at hk
    rw [mem, Bool.or_eq_true] at hx
    exact hx.elim (iha hk.1) (ihb hk.2)
  | _ => simp [inWord] at hk

theorem isWord_of_offWord (k : CharClass) (hk : k.offWord = true) (x : Char)
    (hx : k.mem x = true) : Unicode.isWord x = false := by
  induction k with
  | only c =>
    rw [mem, beq_iff_eq] at hx
    simpa [offWord, hx] using hk
  | blank => exact Unicode.isWord_of_isBlank x hx
  | oneOf cs =>
    rw [offWord, List.all_eq_true] at hk
    simpa using hk x (by simpa [mem] using hx)
  | union a b iha ihb =>
    rw [offWord, Bool.and_eq_true] at hk
    rw [mem, Bool.or_eq_true] at hx
    exact hx.elim (iha hk.1) (ihb hk.2)
  | _ => simp [offWord] at hk

def split (j k : CharClass) : Bool := (j.inWord && k.offWord) || (j.offWord && k.inWord)

def avoids (j : CharClass) : CharClass → Bool
  | .only c => !j.mem c
  | .oneOf cs => cs.all fun c => !j.mem c
  | .union a b => avoids j a && avoids j b
  | k => split j k

def disjoint : CharClass → CharClass → Bool
  | .only c, k => !k.mem c
  | .oneOf cs, k => cs.all fun c => !k.mem c
  | .union a b, k => disjoint a k && disjoint b k
  | j, k => avoids j k

theorem not_mem_of_split (j k : CharClass) (h : split j k = true) (x : Char)
    (hj : j.mem x = true) : k.mem x = false := by
  rw [split, Bool.or_eq_true, Bool.and_eq_true, Bool.and_eq_true] at h
  cases hk : k.mem x with
  | false => rfl
  | true =>
    rcases h with ⟨hin, hoff⟩ | ⟨hoff, hin⟩
    · have := isWord_of_inWord j hin x hj
      have := isWord_of_offWord k hoff x hk
      simp_all
    · have := isWord_of_offWord j hoff x hj
      have := isWord_of_inWord k hin x hk
      simp_all

theorem not_mem_of_avoids (j k : CharClass) (h : avoids j k = true) (x : Char)
    (hj : j.mem x = true) : k.mem x = false := by
  induction k with
  | only c =>
    rw [avoids] at h
    cases hk : (CharClass.only c).mem x with
    | false => rfl
    | true =>
      rw [mem, beq_iff_eq] at hk
      rw [hk] at hj
      simp [hj] at h
  | oneOf cs =>
    rw [avoids, List.all_eq_true] at h
    cases hk : (CharClass.oneOf cs).mem x with
    | false => rfl
    | true => simpa [hj] using h x (by simpa [mem] using hk)
  | union a b iha ihb =>
    rw [avoids, Bool.and_eq_true] at h
    rw [mem, iha h.1, ihb h.2]
    rfl
  | _ => exact not_mem_of_split j _ h x hj

theorem not_mem_of_disjoint (j k : CharClass) (h : disjoint j k = true) (x : Char)
    (hj : j.mem x = true) : k.mem x = false := by
  induction j with
  | only c =>
    rw [mem, beq_iff_eq] at hj
    simpa [disjoint, hj] using h
  | oneOf cs =>
    rw [disjoint, List.all_eq_true] at h
    simpa using h x (by simpa [mem] using hj)
  | union a b iha ihb =>
    rw [disjoint, Bool.and_eq_true] at h
    rw [mem, Bool.or_eq_true] at hj
    exact hj.elim (iha h.1) (ihb h.2)
  | _ => exact not_mem_of_avoids _ k h x hj

theorem disjoint_of_common (j k : CharClass) (x : Char) (hj : j.mem x = true)
    (hk : k.mem x = true) : disjoint j k = false := by
  cases hd : disjoint j k with
  | false => rfl
  | true => simp [not_mem_of_disjoint j k hd x hj] at hk

end CharClass

end JvsSharp
