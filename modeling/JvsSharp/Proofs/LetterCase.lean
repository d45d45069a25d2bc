import JvsSharp.Proofs.BareCalls

/-!
# Texts that differ in the case of letters

In an ASCII text a change of case changes no class of characters that a rule
asks for, apart from the two cases themselves. So two such texts with the same
letters have their words, their white space and their signs in the same
places.
-/

set_option autoImplicit false

namespace JvsSharp
open Pattern

def IsAscii (line : Line) : Prop := ∀ c ∈ line, c.toNat < 0x80

instance (line : Line) : Decidable (IsAscii line) :=
  inferInstanceAs (Decidable (∀ c ∈ line, c.toNat < 0x80))

def SameLetters (xs ys : Line) : Prop := ys.map Char.toLower = xs.map Char.toLower

theorem isAscii_append (xs ys : Line) : IsAscii (xs ++ ys) ↔ IsAscii xs ∧ IsAscii ys :=
  List.forall_mem_append

namespace SameLetters

theorem refl (xs : Line) : SameLetters xs xs := rfl

variable {xs ys : Line}

theorem length (h : SameLetters xs ys) : ys.length = xs.length := by
  simpa using congrArg List.length h

theorem append {xs' ys' : Line} (h : SameLetters xs ys) (h' : SameLetters xs' ys') :
    SameLetters (xs ++ xs') (ys ++ ys') := by
  rw [SameLetters, List.map_append, List.map_append, h, h']

theorem cut (us vs : Line) (h : SameLetters xs (us ++ vs)) :
    ∃ us₀ vs₀, xs = us₀ ++ vs₀ ∧ SameLetters us₀ us ∧ SameLetters vs₀ vs := by
  rw [SameLetters, List.map_append, eq_comm, List.map_eq_append_iff] at h
  obtain ⟨us₀, vs₀, hcut, hus, hvs⟩ := h
  exact ⟨us₀, vs₀, hcut, hus.symm, hvs.symm⟩

end SameLetters

def KeepsLetters (xs ys : Line) : Prop := IsAscii xs → IsAscii ys ∧ SameLetters xs ys

theorem KeepsLetters.piecewise : Piecewise KeepsLetters where
  nil h := ⟨h, rfl⟩
  char _ h := ⟨h, rfl⟩
  append {xs xs' ys ys'} hx hy h := by
    rw [isAscii_append] at h ⊢
    obtain ⟨hascii, hletters⟩ := hx h.1
    obtain ⟨hascii', hletters'⟩ := hy h.2
    exact ⟨⟨hascii, hascii'⟩, hletters.append hletters'⟩

def CaseFree (q : Char → Bool) : Prop := ∀ c : Char, c.toNat < 0x80 → q c.toLower = q c

namespace CaseFree

theorem of_codes (q : Char → Bool)
    (h : ∀ n < 0x80, q (Char.ofNat n).toLower = q (Char.ofNat n)) : CaseFree q :=
  Unicode.forall_ascii (P := fun c => q c.toLower = q c) h

theorem isWord : CaseFree Unicode.isWord := .of_codes _ (by decide)

theorem isBlank : CaseFree Unicode.isBlank := .of_codes _ (by decide)

theorem callStart : CaseFree Rules.callStart.mem := .of_codes _ (by decide)

theorem parenthesis : CaseFree (· == '(') := .of_codes _ (by decide)

variable {q : Char → Bool} (hq : CaseFree q)
include hq

theorem map_toLower (xs : Line) (hx : IsAscii xs) : (xs.map Char.toLower).map q = xs.map q := by
  rw [List.map_map]
  exact List.map_congr_left fun c hc => hq c (hx c hc)

variable {xs ys : Line} (hx : IsAscii xs) (hy : IsAscii ys) (h : SameLetters xs ys)
include hx hy h

theorem map_eq : ys.map q = xs.map q := by
  rw [← hq.map_toLower ys hy, ← hq.map_toLower xs hx, h]

theorem forall_mem (hall : ∀ c ∈ ys, q c = true) : ∀ c ∈ xs, q c = true := by
  intro c hc
  have hmem : q c ∈ ys.map q := by
    rw [hq.map_eq hx hy h]
    exact List.mem_map_of_mem hc
  obtain ⟨d, hd, heq⟩ := List.mem_map.1 hmem
  exact heq ▸ hall d hd

theorem head_any : ys.head?.any q = xs.head?.any q := by
  have hany : ∀ o : Option Char, o.any q = (o.map q).getD false := fun o => by cases o <;> rfl
  rw [hany, hany, ← List.head?_map, ← List.head?_map, hq.map_eq hx hy h]

end CaseFree

theorem isNameText_of_ascii (w : Line) (hascii : IsAscii w) (hw : IsWordText w) :
    IsNameText w := by
  intro c hc
  refine Unicode.forall_ascii (P := fun c => Unicode.isWord c = true → nameChar.mem c = true) ?_ c
    (hascii c hc) (hw c hc)
  decide

theorem isAscii_of_name (w : Line) (hw : IsNameText w) : IsAscii w := fun c hc =>
  nameChar_code (hw c hc)

/-- In an ASCII text the folding of case is that of ASCII. -/
theorem map_foldCase_ascii (xs : Line) (hx : IsAscii xs) :
    xs.map foldCase = xs.map Char.toLower := by
  refine List.map_congr_left fun c hc => ?_
  refine Unicode.forall_ascii (P := fun c => foldCase c = c.toLower) ?_ c (hx c hc)
  decide

theorem nameChar_toLower {c : Char} (h : nameChar.mem c = true) :
    nameChar.mem c.toLower = true := by
  refine Unicode.forall_ascii (P := fun c => nameChar.mem c = true → nameChar.mem c.toLower = true)
    ?_ c (nameChar_code h) h
  decide

theorem isNameText_toLower (w : Line) (hw : IsNameText w) : IsNameText (w.map Char.toLower) :=
  List.forall_mem_map.2 fun c hc => nameChar_toLower (hw c hc)

theorem map_toLower_twice (xs : Line) :
    (xs.map Char.toLower).map Char.toLower = xs.map Char.toLower := by
  rw [List.map_map]
  exact List.map_congr_left fun c _ => toLower_toLower c

theorem pascal_letters (w : Line) (hw : IsNameText w) :
    IsNameText (Casing.pascal w) ∧ SameLetters w (Casing.pascal w) := by
  rw [Casing.pascal_eq w hw]
  exact ⟨Casing.isNameText_upperInitials true w hw, Casing.map_toLower_upperInitials true w hw⟩

namespace Rules

theorem bareCallName_letters (w : Line) (hw : IsNameText w) :
    IsNameText (bareCallName w) ∧ SameLetters w (bareCallName w) := by
  rw [bareCallName]
  split
  · exact ⟨isNameText_toLower w hw, map_toLower_twice w⟩
  · exact pascal_letters w hw

theorem constantName_letters (w : Line) (hw : IsNameText w) :
    IsNameText (constantName w) ∧ SameLetters w (constantName w) := by
  rw [constantName]
  split
  · obtain ⟨hname, hletters⟩ := pascal_letters _ (isNameText_toLower w hw)
    exact ⟨hname, hletters.trans (map_toLower_twice w)⟩
  · exact ⟨hw, rfl⟩

end Rules

end JvsSharp
