import JvsSharp.Proofs.Words
import JvsSharp.Text.Trim

/-!
# Angle brackets of a type

Only the brackets of a text decide whether it is balanced. Trimming a type and
mapping its words keep them, so they keep the balance too.
-/

set_option autoImplicit false

namespace JvsSharp

def bracketStep (d : Nat) (c : Char) : Option Nat :=
  if c = '<' then some (d + 1)
  else if c = '>' then if d = 0 then none else some (d - 1)
  else some d

def depthFrom (d : Nat) (line : Line) : Option Nat := line.foldlM bracketStep d

def Balanced (line : Line) : Prop := depthFrom 0 line = some 0

instance (line : Line) : Decidable (Balanced line) := inferInstanceAs (Decidable (_ = _))

def isBracket (c : Char) : Bool := c == '<' || c == '>'

def brackets (line : Line) : Line := line.filter isBracket

theorem brackets_append (xs ys : Line) : brackets (xs ++ ys) = brackets xs ++ brackets ys :=
  List.filter_append ..

theorem brackets_eq_nil (line : Line) (h : ∀ c ∈ line, isBracket c = false) :
    brackets line = [] := by
  rw [brackets, List.filter_eq_nil_iff]
  intro c hc
  simp [h c hc]

theorem depthFrom_cons (d : Nat) (c : Char) (rest : Line) :
    depthFrom d (c :: rest) = (bracketStep d c).bind fun e => depthFrom e rest := rfl

theorem bracketStep_plain (d : Nat) (c : Char) (h : isBracket c = false) :
    bracketStep d c = some d := by
  rw [isBracket, Bool.or_eq_false_iff, beq_eq_false_iff_ne, beq_eq_false_iff_ne] at h
  rw [bracketStep, if_neg h.1, if_neg h.2]

theorem depthFrom_brackets (d : Nat) (line : Line) :
    depthFrom d (brackets line) = depthFrom d line := by
  induction line generalizing d with
  | nil => rfl
  | cons c rest ih =>
    rw [brackets, List.filter_cons, depthFrom_cons]
    cases hc : isBracket c with
    | true =>
      rw [if_pos rfl, depthFrom_cons]
      exact congrArg _ (funext ih)
    | false =>
      rw [if_neg (by simp), bracketStep_plain d c hc]
      exact ih d

theorem balanced_congr (xs ys : Line) (h : brackets xs = brackets ys) :
    Balanced xs ↔ Balanced ys := by
  rw [Balanced, Balanced, ← depthFrom_brackets 0 xs, ← depthFrom_brackets 0 ys, h]

theorem depthFrom_append (d : Nat) (xs ys : Line) :
    depthFrom d (xs ++ ys) = (depthFrom d xs).bind fun e => depthFrom e ys :=
  List.foldlM_append

theorem depthFrom_plain (d : Nat) (xs : Line) (h : ∀ c ∈ xs, isBracket c = false) :
    depthFrom d xs = some d := by
  rw [← depthFrom_brackets, brackets_eq_nil xs h]
  rfl

theorem bracketStep_count (d e : Nat) (c : Char) (h : bracketStep d c = some e) :
    d + [c].count '<' = e + [c].count '>' := by
  rw [bracketStep] at h
  split at h
  · next hc =>
    cases h
    simp [hc]
  · next hopen =>
    split at h
    · next hclose =>
      split at h
      · simp at h
      · cases h
        simp [hclose]
        omega
    · next hclose =>
      cases h
      simp [hopen, hclose]

theorem depthFrom_count (d e : Nat) (line : Line) (h : depthFrom d line = some e) :
    d + line.count '<' = e + line.count '>' := by
  induction line generalizing d with
  | nil =>
    cases h
    rfl
  | cons c rest ih =>
    rw [depthFrom_cons, Option.bind_eq_some_iff] at h
    obtain ⟨d', hstep, hrest⟩ := h
    have hhead := bracketStep_count d d' c hstep
    have htail := ih d' hrest
    rw [← List.singleton_append, List.count_append, List.count_append]
    omega

theorem Balanced.count {line : Line} (h : Balanced line) : line.count '<' = line.count '>' := by
  have hcount := depthFrom_count 0 0 line h
  omega

theorem isBracket_of_isWord (c : Char) (h : Unicode.isWord c = true) : isBracket c = false := by
  cases hb : isBracket c with
  | false => rfl
  | true =>
    rw [isBracket, Bool.or_eq_true, beq_iff_eq, beq_iff_eq] at hb
    rcases hb with rfl | rfl
    · exact absurd h (by decide)
    · exact absurd h (by decide)

theorem isBracket_of_isBlank (c : Char) (h : Unicode.isBlank c = true) : isBracket c = false := by
  cases hb : isBracket c with
  | false => rfl
  | true =>
    rw [isBracket, Bool.or_eq_true, beq_iff_eq, beq_iff_eq] at hb
    rcases hb with rfl | rfl
    · exact absurd h (by decide)
    · exact absurd h (by decide)

theorem brackets_trimStart (line : Line) : brackets (Text.trimStart line) = brackets line := by
  have hdropped : brackets (line.takeWhile Unicode.isBlank) = [] :=
    brackets_eq_nil _ fun c hc =>
      isBracket_of_isBlank c (List.all_eq_true.1 List.all_takeWhile c hc)
  have hcut : line.takeWhile Unicode.isBlank ++ line.dropWhile Unicode.isBlank = line :=
    List.takeWhile_append_dropWhile
  have hline := congrArg brackets hcut
  rwa [brackets_append, hdropped, List.nil_append] at hline

theorem brackets_trim (line : Line) : brackets (Text.trim line) = brackets line := by
  have hend : ∀ xs, brackets (Text.trimEnd xs) = brackets xs := by
    intro xs
    rw [Text.trimEnd, brackets, List.filter_reverse, ← brackets, brackets_trimStart, brackets,
      List.filter_reverse, List.reverse_reverse]
    rfl
  rw [Text.trim, hend, brackets_trimStart]

theorem brackets_mapWords (f : Line → Line) (hf : ∀ w, IsWordText w → IsWordText (f w))
    (line : Line) : brackets (mapWords f line) = brackets line := by
  have hflush : ∀ w, IsWordText w → brackets (flush f w) = [] := by
    intro w hw
    rw [flush]
    split
    · rfl
    · exact brackets_eq_nil _ fun c hc => isBracket_of_isWord c (hf w hw c hc)
  have hfrom : ∀ w, IsWordText w → brackets (mapWordsFrom f w line) = brackets line := by
    induction line with
    | nil => exact hflush
    | cons c rest ih =>
      intro w hw
      rw [mapWordsFrom]
      cases hc : Unicode.isWord c with
      | true =>
        rw [if_pos rfl, ih (w ++ [c]) fun d hd => by
          rcases List.mem_append.1 hd with hd | hd
          · exact hw d hd
          · exact List.mem_singleton.1 hd ▸ hc]
        rw [brackets, brackets, List.filter_cons_of_neg (by simp [isBracket_of_isWord c hc])]
      | false =>
        rw [if_neg (by simp), brackets_append, hflush w hw, List.nil_append, brackets, brackets,
          List.filter_cons, List.filter_cons, ← brackets, ← brackets, ih [] (by simp [IsWordText])]
  exact hfrom [] (by simp [IsWordText])

namespace Rules

theorem primitiveKeyword_word (w : Line) (hw : IsWordText w) :
    IsWordText (primitiveKeyword w) := by
  have hkeywords : ∀ p ∈ primitives, (p.2.toList.all Unicode.isWord) = true := by decide
  rw [primitiveKeyword]
  split
  · next p hp => exact List.all_eq_true.1 (hkeywords p (List.mem_of_find?_eq_some hp))
  · exact hw

theorem brackets_primitiveTypes (line : Line) :
    brackets (primitiveTypes line) = brackets line := by
  rw [primitiveTypes_eq, brackets_mapWords primitiveKeyword primitiveKeyword_word]

end Rules

end JvsSharp
