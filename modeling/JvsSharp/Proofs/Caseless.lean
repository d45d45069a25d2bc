import JvsSharp.Casing
import JvsSharp.Rules.Call
import JvsSharp.Rules.Plugin

/-!
# Characters without case

A character is caseless if it is its own upper and lower case and no other
character is mapped to it. The test reads the tables of the two mappings and
nothing else. Whatever the casing of names does to a text, the caseless
characters of a given kind stay what and where they were among themselves.
-/

set_option autoImplicit false

namespace JvsSharp

namespace Unicode

def CaseMapping.avoids (m : CaseMapping) (n : Nat) : Bool :=
  (m.runs.all fun r => n < r.target || r.target + (r.last - r.first) < n) &&
    m.several.all fun e => !e.2.contains n

theorem eq_toNat_of_ofNat (n : Nat) (d : Char) (hd : d.toNat ≠ 0) (h : Char.ofNat n = d) :
    n = d.toNat := by
  unfold Char.ofNat at h
  by_cases hn : n.isValidChar
  · rw [dif_pos hn] at h
    rw [← h]
    rfl
  · rw [dif_neg hn] at h
    rw [← h] at hd
    exact absurd rfl hd

theorem CaseMapping.eq_of_mem_image (m : CaseMapping) (d : Char) (hd : d.toNat ≠ 0)
    (h : m.avoids d.toNat = true) (c : Char) (hmem : d ∈ m.image c) : c = d := by
  rw [avoids, Bool.and_eq_true, List.all_eq_true, List.all_eq_true] at h
  rw [image] at hmem
  split at hmem
  · next ns hns =>
    obtain ⟨n, hn, heq⟩ := List.mem_map.1 hmem
    obtain ⟨before, after, htable, -⟩ := List.lookup_eq_some_iff.1 hns
    have hnot := h.2 (c.toNat, ns) (by simp [htable])
    rw [eq_toNat_of_ofNat n d hd heq] at hn
    simp [hn] at hnot
  · rw [List.mem_singleton] at hmem
    cases hrun : m.runs.findSome? fun r => r.map? c.toNat with
    | none =>
      rw [hrun] at hmem
      exact hmem.symm
    | some n =>
      rw [hrun] at hmem
      obtain ⟨r, hr, hmap⟩ := List.exists_of_findSome?_eq_some hrun
      have hn := eq_toNat_of_ofNat n d hd hmem.symm
      have hout := h.1 r hr
      rw [Bool.or_eq_true, decide_eq_true_eq, decide_eq_true_eq] at hout
      rw [CaseRun.map?] at hmap
      split at hmap
      · cases hmap
        omega
      · exact nomatch hmap

def isCaseless (d : Char) : Bool :=
  d.toNat < 0x80 && d.toNat != 0 && !d.isUpper && !d.isLower && upperMapping.avoids d.toNat &&
    lowerMapping.avoids d.toNat

structure Caseless (d : Char) : Prop where
  upper_self : upper d = [d]
  lower_self : lower d = [d]
  of_upper : ∀ c, d ∈ upper c → c = d
  of_lower : ∀ c, d ∈ lower c → c = d

theorem forall_ascii {P : Char → Prop} (h : ∀ n < 0x80, P (Char.ofNat n)) (c : Char)
    (hc : c.toNat < 0x80) : P c := by
  have hcode := h c.toNat hc
  rwa [Char.ofNat_toNat] at hcode

theorem ascii_case (c : Char) (hc : c.toNat < 0x80) :
    (c.toUpper = c ∨ c.toUpper.isUpper = true) ∧
      (c.toLower = c ∨ c.toLower.isLower = true) := by
  refine forall_ascii (P := fun c => (c.toUpper = c ∨ c.toUpper.isUpper = true) ∧
    (c.toLower = c ∨ c.toLower.isLower = true)) ?_ c hc
  decide

theorem toLower_of_not_isUpper (c : Char) (h : c.isUpper = false) : c.toLower = c :=
  dif_neg fun hr => nomatch h.symm.trans (decide_eq_true hr)

theorem toUpper_of_not_isLower (c : Char) (h : c.isLower = false) : c.toUpper = c :=
  dif_neg fun hr => by
    have hlower : c.isLower = true :=
      Bool.and_eq_true_iff.2 ⟨decide_eq_true hr.1, decide_eq_true hr.2⟩
    exact Bool.eq_false_iff.1 h hlower

theorem caseless_of_test (d : Char) (h : isCaseless d = true) : Caseless d := by
  simp only [isCaseless, Bool.and_eq_true, decide_eq_true_eq, bne_iff_ne, ne_eq,
    Bool.not_eq_true'] at h
  obtain ⟨⟨⟨⟨⟨hascii, hzero⟩, hupper⟩, hlower⟩, huppers⟩, hlowers⟩ := h
  constructor
  · rw [upper, if_pos hascii, toUpper_of_not_isLower d hlower]
  · rw [lower, if_pos hascii, toLower_of_not_isUpper d hupper]
  · intro c hc
    rw [upper] at hc
    split at hc
    · next hsmall =>
      have hcase := (ascii_case c hsmall).1
      rw [← List.mem_singleton.1 hc, hupper] at hcase
      exact (hcase.resolve_right Bool.false_ne_true).symm
    · exact upperMapping.eq_of_mem_image d hzero huppers c hc
  · intro c hc
    rw [lower] at hc
    split at hc
    · next hsmall =>
      have hcase := (ascii_case c hsmall).2
      rw [← List.mem_singleton.1 hc, hlower] at hcase
      exact (hcase.resolve_right Bool.false_ne_true).symm
    · exact lowerMapping.eq_of_mem_image d hzero hlowers c hc

def CaselessKind (keep : Char → Bool) : Prop := ∀ d, keep d = true → Caseless d

end Unicode

section
variable {keep : Char → Bool} (hkeep : Unicode.CaselessKind keep)

theorem filter_case (f : Char → Line) (c : Char) (hself : keep c = true → f c = [c])
    (hof : ∀ d, keep d = true → d ∈ f c → c = d) : (f c).filter keep = [c].filter keep := by
  cases hc : keep c with
  | true => rw [hself hc]
  | false =>
    have hnone : (f c).filter keep = [] := by
      rw [List.filter_eq_nil_iff]
      intro d hd hk
      rw [← hof d hk hd, hc] at hk
      exact nomatch hk
    rw [hnone, List.filter_cons, hc]
    rfl

theorem filter_flatMap_case (f : Char → Line) (hf : ∀ c, (f c).filter keep = [c].filter keep)
    (xs : Line) : (xs.flatMap f).filter keep = xs.filter keep := by
  induction xs with
  | nil => rfl
  | cons c xs ih =>
    rw [List.flatMap_cons, List.filter_append, hf, ih, ← List.filter_append,
      List.singleton_append]

include hkeep

theorem filter_upper (c : Char) : (Unicode.upper c).filter keep = [c].filter keep :=
  filter_case _ c (fun hc => (hkeep c hc).upper_self) fun d hd => (hkeep d hd).of_upper c

theorem filter_lower (c : Char) : (Unicode.lower c).filter keep = [c].filter keep :=
  filter_case _ c (fun hc => (hkeep c hc).lower_self) fun d hd => (hkeep d hd).of_lower c

theorem filter_toLower (xs : Line) : (xs.map Char.toLower).filter keep = xs.filter keep := by
  have hchar : ∀ c, [c.toLower].filter keep = [c].filter keep := by
    intro c
    by_cases hascii : c.toNat < 0x80
    · have hlower := filter_lower hkeep c
      rwa [Unicode.lower, if_pos hascii] at hlower
    · have hupper : c.isUpper = false := by
        cases hc : c.isUpper with
        | false => rfl
        | true =>
          have hcode : c.val ≤ 90 := (of_decide_eq_true hc).2
          rw [UInt32.le_iff_toNat_le] at hcode
          change c.toNat ≤ 90 at hcode
          omega
      rw [Unicode.toLower_of_not_isUpper c hupper]
  rw [List.map_eq_flatMap]
  exact filter_flatMap_case _ hchar xs

theorem filter_capitalizeFirst (xs : Line) :
    (Casing.capitalizeFirst xs).filter keep = xs.filter keep := by
  cases xs with
  | nil => rfl
  | cons c xs =>
    rw [Casing.capitalizeFirst, List.filter_append, filter_upper hkeep, ← List.filter_append,
      List.singleton_append]

theorem filter_pascalRest (xs : Line) :
    (Casing.pascalRest xs).filter keep = xs.filter keep := by
  fun_induction Casing.pascalRest xs with
  | case1 => rfl
  | case2 c => rfl
  | case3 c d rest h ih =>
    have hc : c = '_' := by
      rw [Bool.and_eq_true, beq_iff_eq] at h
      exact h.1
    rw [hc, ← List.singleton_append, List.filter_append, List.filter_append,
      filter_upper hkeep, ih, ← List.filter_append, ← List.filter_append]
    rfl
  | case4 c d rest h ih => rw [List.filter_cons, ih, ← List.filter_cons]

theorem filter_pascal (xs : Line) : (Casing.pascal xs).filter keep = xs.filter keep := by
  cases xs with
  | nil => rfl
  | cons c xs =>
    have hfirst : (if Unicode.isWord c then Unicode.upper c else [c]).filter keep =
        [c].filter keep := by
      split
      · exact filter_upper hkeep c
      · rfl
    rw [Casing.pascal, List.filter_append, hfirst, filter_pascalRest hkeep, ← List.filter_append,
      List.singleton_append]

theorem filter_constantName (xs : Line) :
    (Rules.constantName xs).filter keep = xs.filter keep := by
  rw [Rules.constantName]
  split
  · rw [filter_pascal hkeep, filter_toLower hkeep]
  · rfl

theorem filter_bareCallName (xs : Line) :
    (Rules.bareCallName xs).filter keep = xs.filter keep := by
  rw [Rules.bareCallName]
  split
  · exact filter_toLower hkeep xs
  · exact filter_pascal hkeep xs

/-- A capital sigma has two lower cases, and neither of them nor itself is caseless. -/
theorem filter_lowerText (xs : Line) :
    (Unicode.lowerText xs).filter keep = xs.filter keep := by
  have hsigma : ∀ c ∈ ['Σ', 'σ', 'ς'], keep c = false := by
    intro c hc
    cases hk : keep c with
    | false => rfl
    | true =>
      have hcase : ∀ c ∈ ['Σ', 'σ', 'ς'],
          Unicode.upper c ≠ [c] ∨ Unicode.lower c ≠ [c] := by decide
      rcases hcase c hc with h | h
      · exact absurd (hkeep c hk).upper_self h
      · exact absurd (hkeep c hk).lower_self h
  have hafter : ∀ seen xs, (Unicode.lowerAfter seen xs).filter keep = xs.filter keep := by
    intro seen xs
    induction xs generalizing seen with
    | nil => rfl
    | cons c xs ih =>
      have hfirst : (if c != 'Σ' then Unicode.lower c
          else if Unicode.meetsCased seen && !Unicode.meetsCased xs then ['ς']
          else ['σ']).filter keep = [c].filter keep := by
        split
        · exact filter_lower hkeep c
        · next hc =>
          have hc : c = 'Σ' := by simpa using hc
          split
          · simp [hc, hsigma]
          · simp [hc, hsigma]
      rw [Unicode.lowerAfter, List.filter_append, hfirst, ih, ← List.filter_append,
        List.singleton_append]
  exact hafter [] xs

end

theorem join_cons (separator : Char) (piece : Line) (pieces : List Line) (h : pieces ≠ []) :
    Text.join separator (piece :: pieces) = piece ++ separator :: Text.join separator pieces := by
  rw [Text.join, List.intercalate_cons_of_ne_nil h, List.append_assoc, List.singleton_append]
  rfl

theorem split_ne_nil (separator : Char) (xs : Line) : Text.split separator xs ≠ [] := by
  cases xs with
  | nil => simp [Text.split]
  | cons c xs =>
    rw [Text.split]
    split
    · simp
    · split <;> simp

theorem join_split (separator : Char) (xs : Line) :
    Text.join separator (Text.split separator xs) = xs := by
  induction xs with
  | nil => rfl
  | cons c xs ih =>
    rw [Text.split]
    split
    · next hc =>
      rw [join_cons separator [] _ (split_ne_nil separator xs), ih, ← beq_iff_eq.1 hc]
      rfl
    · cases hs : Text.split separator xs with
      | nil => exact absurd hs (split_ne_nil separator xs)
      | cons piece pieces =>
        rw [hs] at ih
        cases pieces with
        | nil => simpa [Text.join] using ih
        | cons next pieces =>
          rw [join_cons separator _ _ (by simp), List.cons_append,
            ← join_cons separator _ _ (by simp), ih]

/-- Mapping the pieces changes no more of a text than it changes of the pieces. -/
theorem filter_join (keep : Char → Bool) (f : Line → Line)
    (hf : ∀ xs, (f xs).filter keep = xs.filter keep) (separator : Char) (pieces : List Line) :
    (Text.join separator (pieces.map f)).filter keep =
      (Text.join separator pieces).filter keep := by
  induction pieces with
  | nil => rfl
  | cons piece pieces ih =>
    cases pieces with
    | nil => simpa [Text.join] using hf piece
    | cons next pieces =>
      rw [List.map_cons, join_cons separator _ _ (by simp), join_cons separator _ _ (by simp),
        List.filter_append, List.filter_append, hf, List.filter_cons, ih, ← List.filter_cons]

theorem filter_pascalPath {keep : Char → Bool} (hkeep : Unicode.CaselessKind keep) (xs : Line) :
    (Casing.pascalPath xs).filter keep = xs.filter keep := by
  rw [Casing.pascalPath, filter_join keep _ (filter_pascal hkeep), join_split]

end JvsSharp
