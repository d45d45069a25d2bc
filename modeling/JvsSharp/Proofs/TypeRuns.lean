import JvsSharp.Proofs.TypeArguments
import Mathlib.Data.List.Induction

/-!
# What stands in a run of type text

A match of a container never leaves the run of type text in which its name
stands. What it asks for there comes down to a list of needs that the
characters of the run meet one after the other, each as early as possible: the
name of the container with its bracket, any character, a given sign. Fewer
needs are met wherever more are, and it never hurts to start earlier in a run.
-/

set_option autoImplicit false

namespace JvsSharp
open Pattern

inductive Need where
  | opening
  | any
  | sign (c : Char)
  deriving DecidableEq, Repr

def wordBehind (w : Line) (c : Char) : Line := if Unicode.isWord c then w ++ [c] else []

def wordAfter (w line : Line) : Line := line.foldl wordBehind w

theorem wordAfter_append (w xs ys : Line) :
    wordAfter w (xs ++ ys) = wordAfter (wordAfter w xs) ys := List.foldl_append

theorem wordAfter_word (w xs : Line) (h : IsWordText xs) : wordAfter w xs = w ++ xs := by
  induction xs generalizing w with
  | nil => exact (List.append_nil w).symm
  | cons c xs ih =>
    have hc : wordBehind w c = w ++ [c] := if_pos (h c (by simp))
    change wordAfter (wordBehind w c) xs = _
    rw [hc, ih _ fun x hx => h x (by simp [hx]), List.append_assoc]
    rfl

theorem wordBehind_other (w : Line) (c : Char) (h : Unicode.isWord c = false) :
    wordBehind w c = [] := if_neg (by simp [h])

theorem wordAfter_concat (w xs : Line) (c : Char) (h : Unicode.isWord c = false) :
    wordAfter w (xs ++ [c]) = [] := by
  rw [wordAfter_append]
  exact wordBehind_other _ c h

theorem wordAfter_blanks (xs : Line) (h : ∀ c ∈ xs, Unicode.isBlank c = true) :
    wordAfter [] xs = [] := by
  induction xs with
  | nil => rfl
  | cons c xs ih =>
    change wordAfter (wordBehind [] c) xs = []
    rw [wordBehind_other [] c (Unicode.isWord_of_isBlank c (h c (by simp)))]
    exact ih fun x hx => h x (by simp [hx])

theorem isWordText_concat (w : Line) (c : Char) (hw : IsWordText w)
    (hc : Unicode.isWord c = true) : IsWordText (w ++ [c]) :=
  List.forall_mem_append.2 ⟨hw, List.forall_mem_singleton.2 hc⟩

theorem wordAfter_split (line : Line) :
    ∃ before, line = before ++ wordAfter [] line ∧ wordAfter [] before = [] ∧
      IsWordText (wordAfter [] line) := by
  induction line using List.reverseRecOn with
  | nil => exact ⟨[], rfl, rfl, by simp [IsWordText, wordAfter]⟩
  | append_singleton xs c ih =>
    obtain ⟨before, hsplit, hout, hword⟩ := ih
    have hlast : wordAfter [] (xs ++ [c]) = wordBehind (wordAfter [] xs) c :=
      wordAfter_append [] xs [c]
    cases hc : Unicode.isWord c with
    | true =>
      rw [hlast, wordBehind, if_pos hc]
      exact ⟨before, by rw [← List.append_assoc, ← hsplit], hout, isWordText_concat _ c hword hc⟩
    | false =>
      rw [hlast, wordBehind_other _ c hc]
      exact ⟨xs ++ [c], (List.append_nil _).symm, wordAfter_concat [] xs c hc, by simp [IsWordText]⟩

def Reads (w : Line) (b : Option Char) : Prop := b.any Unicode.isWord = !w.isEmpty

theorem reads_none : Reads [] none := rfl

theorem reads_next (w : Line) (c : Char) : Reads (wordBehind w c) (some c) := by
  unfold Reads wordBehind
  cases hc : Unicode.isWord c with
  | true => simp [hc]
  | false => simp [hc]

theorem reads_other (c : Char) (h : Unicode.isWord c = false) : Reads [] (some c) := h

theorem Reads.behind {w : Line} {b : Option Char} (h : Reads w b) (xs : Line) :
    Reads (wordAfter w xs) (Pattern.behind b xs) := by
  induction xs generalizing w b with
  | nil => exact h
  | cons c xs ih => exact ih (reads_next w c)

theorem Reads.eq_nil_iff {w : Line} {b : Option Char} (h : Reads w b) :
    w = [] ↔ b.any Unicode.isWord = false := by
  rw [h]
  simp

namespace Need

section
variable (name : Line)

def isMet (w : Line) (c : Char) : Need → Bool
  | opening => w == name && c == '<'
  | any => true
  | sign d => c == d

def after (w : Line) (c : Char) : List Need → List Need
  | [] => []
  | n :: ns => if n.isMet name w c then ns else n :: ns

def left : List Need → Line → Line → List Need
  | ns, _, [] => ns
  | ns, w, c :: rest => left (after name w c ns) (wordBehind w c) rest

/-- The needs are met in the run of type text at the start of the line, which stands behind
the word `w`. -/
def areMet : List Need → Line → Line → Bool
  | ns, _, [] => ns.isEmpty
  | ns, w, c :: rest =>
      ns.isEmpty || (Rules.typeText.mem c && areMet (after name w c ns) (wordBehind w c) rest)

def MetIn (ns : List Need) (w line : Line) : Prop :=
  ∃ xs rest, line = xs ++ rest ∧ areMet name ns (wordAfter w xs) rest = true

end

variable {name : Line}

theorem after_suffix (w : Line) (c : Char) (ns : List Need) : after name w c ns <:+ ns := by
  cases ns with
  | nil => exact List.suffix_refl _
  | cons n ns =>
    rw [after]
    split
    · exact List.suffix_cons n ns
    · exact List.suffix_refl _

theorem after_mono (w : Line) (c : Char) (ms ns : List Need) (h : ms <:+ ns) :
    after name w c ms <:+ after name w c ns := by
  cases ns with
  | nil => exact List.suffix_nil.1 h ▸ List.suffix_refl _
  | cons n ns =>
    rcases List.suffix_cons_iff.1 h with heq | hless
    · exact heq ▸ List.suffix_refl _
    · refine (after_suffix w c ms).trans (hless.trans ?_)
      rw [after]
      split
      · exact List.suffix_refl _
      · exact List.suffix_cons n ns

theorem left_suffix (ns : List Need) (w line : Line) : left name ns w line <:+ ns := by
  induction line generalizing ns w with
  | nil => exact List.suffix_refl _
  | cons c rest ih => exact (ih _ _).trans (after_suffix w c ns)

theorem left_mono (ms ns : List Need) (h : ms <:+ ns) (w line : Line) :
    left name ms w line <:+ left name ns w line := by
  induction line generalizing ms ns w with
  | nil => exact h
  | cons c rest ih => exact ih _ _ (after_mono w c ms ns h) _

theorem left_append (ns : List Need) (w xs ys : Line) :
    left name ns w (xs ++ ys) = left name (left name ns w xs) (wordAfter w xs) ys := by
  induction xs generalizing ns w with
  | nil => rfl
  | cons c xs ih => exact ih _ _

theorem left_nil (w line : Line) : left name [] w line = [] :=
  List.suffix_nil.1 (left_suffix [] w line)

theorem areMet_nil (w line : Line) : areMet name [] w line = true := by
  cases line <;> rfl

theorem areMet_cons (n : Need) (ns : List Need) (w : Line) (c : Char) (rest : Line) :
    areMet name (n :: ns) w (c :: rest) =
      (Rules.typeText.mem c && areMet name (after name w c (n :: ns)) (wordBehind w c) rest) := rfl

theorem areMet_mono (ms ns : List Need) (h : ms <:+ ns) (w line : Line)
    (hmet : areMet name ns w line = true) : areMet name ms w line = true := by
  induction line generalizing ms ns w with
  | nil =>
    rw [areMet, List.isEmpty_iff] at hmet
    rw [hmet, List.suffix_nil] at h
    rw [h, areMet_nil]
  | cons c rest ih =>
    cases ms with
    | nil => exact areMet_nil w _
    | cons m ms =>
      cases ns with
      | nil => exact absurd (List.suffix_nil.1 h) (by simp)
      | cons n ns =>
        rw [areMet_cons, Bool.and_eq_true] at hmet ⊢
        exact ⟨hmet.1, ih _ _ (after_mono w c _ _ h) _ hmet.2⟩

theorem areMet_append (ns : List Need) (w xs rest : Line)
    (hx : ∀ x ∈ xs, Rules.typeText.mem x = true) :
    areMet name ns w (xs ++ rest) =
      areMet name (left name ns w xs) (wordAfter w xs) rest := by
  induction xs generalizing ns w with
  | nil => rfl
  | cons c xs ih =>
    cases ns with
    | nil => rw [left_nil, areMet_nil, areMet_nil]
    | cons n ns =>
      rw [List.cons_append, areMet_cons, hx c (by simp), Bool.true_and,
        ih _ _ fun x hmem => hx x (by simp [hmem])]
      rfl

/-- It does not hurt to start earlier in the run. -/
theorem areMet_of_later (ns : List Need) (w xs rest : Line)
    (hx : ∀ x ∈ xs, Rules.typeText.mem x = true)
    (hmet : areMet name ns (wordAfter w xs) rest = true) :
    areMet name ns w (xs ++ rest) = true := by
  rw [areMet_append ns w xs rest hx]
  exact areMet_mono _ _ (left_suffix ns w xs) _ _ hmet

theorem metIn_of_areMet {ns : List Need} {w line : Line} (h : areMet name ns w line = true) :
    MetIn name ns w line := ⟨[], line, rfl, h⟩

theorem metIn_cons (ns : List Need) (w : Line) (c : Char) (rest : Line) :
    MetIn name ns w (c :: rest) ↔
      areMet name ns w (c :: rest) = true ∨ MetIn name ns (wordBehind w c) rest := by
  constructor
  · rintro ⟨xs, ys, hline, hmet⟩
    cases xs with
    | nil => exact .inl (hline ▸ hmet)
    | cons x xs =>
      rw [List.cons_append, List.cons.injEq] at hline
      exact .inr ⟨xs, ys, hline.2, by rw [hline.1]; exact hmet⟩
  · rintro (hmet | ⟨xs, ys, hline, hmet⟩)
    · exact metIn_of_areMet hmet
    · exact ⟨c :: xs, ys, by rw [hline, List.cons_append], hmet⟩

/-- In a run the first place is the best one. -/
theorem metIn_append (ns : List Need) (w xs rest : Line)
    (hx : ∀ x ∈ xs, Rules.typeText.mem x = true) :
    MetIn name ns w (xs ++ rest) ↔
      areMet name ns w (xs ++ rest) = true ∨ MetIn name ns (wordAfter w xs) rest := by
  induction xs generalizing w with
  | nil =>
    refine ⟨.inr, ?_⟩
    rintro (hmet | hmet)
    · exact metIn_of_areMet hmet
    · exact hmet
  | cons c xs ih =>
    have hc : ∀ x ∈ [c], Rules.typeText.mem x = true := fun x hmem =>
      hx x (List.mem_singleton.1 hmem ▸ List.mem_cons_self)
    rw [List.cons_append, metIn_cons, ih _ fun x hmem => hx x (by simp [hmem])]
    constructor
    · rintro (hmet | hmet | hmet)
      · exact .inl hmet
      · exact .inl (areMet_of_later ns w [c] _ hc hmet)
      · exact .inr hmet
    · rintro (hmet | hmet)
      · exact .inl hmet
      · exact .inr (.inr hmet)

theorem areMet_sign_word (d : Char) (w w' line : Line) :
    areMet name [sign d] w line = areMet name [sign d] w' line := by
  induction line generalizing w w' with
  | nil => rfl
  | cons c rest ih =>
    rw [areMet_cons, areMet_cons, after, after, isMet, isMet]
    split
    · rw [areMet_nil, areMet_nil]
    · rw [ih]

/-- A sign that stands in the run has a last place there. -/
theorem last_sign (d : Char) (w line : Line) (h : areMet name [sign d] w line = true) :
    ∃ xs rest, line = xs ++ d :: rest ∧ (∀ x ∈ xs, Rules.typeText.mem x = true) ∧
      areMet name [sign d] [] rest = false := by
  induction line generalizing w with
  | nil => exact absurd h Bool.false_ne_true
  | cons c rest ih =>
    rw [areMet_cons, Bool.and_eq_true] at h
    cases hrest : areMet name [sign d] (wordBehind w c) rest with
    | true =>
      obtain ⟨xs, last, hsplit, hx, hlast⟩ := ih _ hrest
      exact ⟨c :: xs, last, by rw [hsplit, List.cons_append], List.forall_mem_cons.2 ⟨h.1, hx⟩,
        hlast⟩
    | false =>
      by_cases hc : c = d
      · exact ⟨[], rest, by rw [hc, List.nil_append], by simp,
          (areMet_sign_word d _ _ rest).trans hrest⟩
      · have hstays : after name w c [sign d] = [sign d] := if_neg (by simpa [isMet] using hc)
        rw [hstays, hrest] at h
        exact absurd h.2 Bool.false_ne_true

theorem first_sign (d : Char) (ns : List Need) (w line : Line)
    (h : areMet name (sign d :: ns) w line = true) :
    ∃ xs rest, line = xs ++ d :: rest ∧ (∀ x ∈ xs, Rules.typeText.mem x = true) ∧
      areMet name ns (wordAfter w (xs ++ [d])) rest = true := by
  induction line generalizing w with
  | nil => exact absurd h Bool.false_ne_true
  | cons c rest ih =>
    rw [areMet_cons, Bool.and_eq_true, after, isMet] at h
    by_cases hc : c = d
    · rw [if_pos (by simp [hc])] at h
      exact ⟨[], rest, by rw [hc, List.nil_append], by simp, hc ▸ h.2⟩
    · rw [if_neg (by simp [hc])] at h
      obtain ⟨xs, last, hsplit, hx, hmet⟩ := ih _ h.2
      exact ⟨c :: xs, last, by rw [hsplit, List.cons_append], List.forall_mem_cons.2 ⟨h.1, hx⟩,
        hmet⟩

theorem first_opening (ns : List Need) (w line : Line) (hw : IsWordText w)
    (h : areMet name (opening :: ns) w line = true) :
    ∃ xs rest, w ++ line = xs ++ (name ++ '<' :: rest) ∧
      (∀ x ∈ xs, Rules.typeText.mem x = true) ∧ wordAfter [] xs = [] ∧
      areMet name ns [] rest = true := by
  induction line generalizing w with
  | nil => exact absurd h Bool.false_ne_true
  | cons c rest ih =>
    rw [areMet_cons, Bool.and_eq_true, after] at h
    by_cases hmet : isMet name w c opening = true
    · rw [if_pos hmet] at h
      rw [isMet, Bool.and_eq_true, beq_iff_eq, beq_iff_eq] at hmet
      refine ⟨[], rest, by rw [hmet.1, hmet.2, List.nil_append], by simp, rfl, ?_⟩
      rw [hmet.2] at h
      exact h.2
    · rw [if_neg hmet] at h
      cases hc : Unicode.isWord c with
      | true =>
        rw [wordBehind, if_pos hc] at h
        obtain ⟨xs, last, hsplit, hrest⟩ := ih _ (isWordText_concat w c hw hc) h.2
        exact ⟨xs, last, by rw [← hsplit, List.append_assoc]; rfl, hrest⟩
      | false =>
        rw [wordBehind_other w c hc] at h
        obtain ⟨xs, last, hsplit, hx, hout, hmet⟩ := ih [] (by simp [IsWordText]) h.2
        refine ⟨w ++ c :: xs, last, ?_, ?_, ?_, hmet⟩
        · rw [List.nil_append] at hsplit
          rw [hsplit, List.append_assoc, List.cons_append]
        · exact List.forall_mem_append.2 ⟨fun x hmem => ContainerShape.typeText_word x (hw x hmem),
            List.forall_mem_cons.2 ⟨h.1, hx⟩⟩
        · rw [wordAfter_append]
          change wordAfter (wordBehind _ c) xs = []
          rw [wordBehind_other _ c hc, hout]

theorem metIn_first_opening (ns : List Need) (line : Line)
    (h : MetIn name (opening :: ns) [] line) :
    ∃ xs rest, line = xs ++ (name ++ '<' :: rest) ∧ wordAfter [] xs = [] ∧
      areMet name ns [] rest = true := by
  obtain ⟨us, vs, rfl, hmet⟩ := h
  obtain ⟨before, hbefore, hout, hword⟩ := wordAfter_split us
  obtain ⟨xs, rest, hsplit, -, hout', hmet⟩ := first_opening ns _ vs hword hmet
  refine ⟨before ++ xs, rest, ?_, ?_, hmet⟩
  · rw [List.append_assoc, ← hsplit, ← List.append_assoc, ← hbefore]
  · rw [wordAfter_append, hout, hout']

def areSteady : List Need → Bool
  | [] => true
  | opening :: ns => areSteady ns
  | any :: ns => ns.head? != some any && areSteady ns
  | sign c :: ns =>
      !Unicode.isWord c && !Unicode.isBlank c && c != '<' &&
        (ns.head? != some any || ns == [any, sign '>']) && areSteady ns

theorem areSteady_suffix (ms ns : List Need) (h : ms <:+ ns) (hns : areSteady ns = true) :
    areSteady ms = true := by
  induction ns with
  | nil => rw [List.suffix_nil.1 h]; rfl
  | cons n ns ih =>
    rcases List.suffix_cons_iff.1 h with rfl | hless
    · exact hns
    · refine ih hless ?_
      cases n with
      | opening => exact hns
      | any => exact (Bool.and_eq_true _ _ ▸ hns).2
      | sign c => exact (Bool.and_eq_true _ _ ▸ hns).2

def withoutAny : List Need → List Need
  | any :: ns => ns
  | ns => ns

theorem areSteady_withoutAny (ns : List Need) (h : areSteady ns = true) :
    areSteady (withoutAny ns) = true := by
  cases ns with
  | nil => rfl
  | cons n ns =>
    cases n with
    | any => exact areSteady_suffix ns _ (List.suffix_cons any ns) h
    | opening => exact h
    | sign c => exact h

theorem head_withoutAny (ns : List Need) (h : areSteady ns = true) :
    (withoutAny ns).head? ≠ some any := by
  cases ns with
  | nil => simp [withoutAny]
  | cons n ns =>
    cases n with
    | any =>
      rw [areSteady, Bool.and_eq_true] at h
      simpa [withoutAny] using h.1
    | opening => simp [withoutAny]
    | sign c => simp [withoutAny]

theorem withoutAny_of_head (ns : List Need) (h : ns.head? ≠ some any) : withoutAny ns = ns := by
  cases ns with
  | nil => rfl
  | cons n ns =>
    cases n with
    | any => exact absurd rfl h
    | opening => rfl
    | sign c => rfl

theorem after_plain (w : Line) (c : Char) (ns : List Need) (hns : areSteady ns = true)
    (hc : Unicode.isWord c = true ∨ Unicode.isBlank c = true) :
    after name w c ns = withoutAny ns := by
  cases ns with
  | nil => rfl
  | cons n ns =>
    cases n with
    | any => rfl
    | opening =>
      have hangle : c ≠ '<' := by
        rintro rfl
        revert hc
        decide
      exact if_neg (by simp [isMet, hangle])
    | sign d =>
      have hsign : c ≠ d := by
        rintro rfl
        rw [areSteady] at hns
        rcases hc with hc | hc <;> simp [hc] at hns
      exact if_neg (by simpa [isMet] using hsign)

/-- A word or blanks meet one need at most, however long they are. -/
theorem left_plain (w xs : Line) (ns : List Need) (hns : areSteady ns = true) (hne : xs ≠ [])
    (hx : ∀ c ∈ xs, Unicode.isWord c = true ∨ Unicode.isBlank c = true) :
    left name ns w xs = withoutAny ns := by
  cases xs with
  | nil => exact absurd rfl hne
  | cons c xs =>
    have hmore : ∀ w ms, areSteady ms = true → ms.head? ≠ some any → left name ms w xs = ms := by
      have hxs : ∀ c ∈ xs, Unicode.isWord c = true ∨ Unicode.isBlank c = true := fun d hd =>
        hx d (by simp [hd])
      clear hx hne
      induction xs with
      | nil => exact fun _ _ _ _ => rfl
      | cons d xs ih =>
        intro w ms hms hhead
        rw [left, after_plain w d ms hms (hxs d (by simp)), withoutAny_of_head ms hhead]
        exact ih (fun e he => hxs e (by simp [he])) _ ms hms hhead
    rw [left, after_plain w c ns hns (hx c (by simp))]
    exact hmore _ _ (areSteady_withoutAny ns hns) (head_withoutAny ns hns)

theorem left_other_opening (ns : List Need) (hns : areSteady ns = true) (title : Line)
    (hne : title ≠ []) (htitle : IsWordText title) (hother : title ≠ name) :
    left name ns [] (title ++ ['<']) = withoutAny ns := by
  rw [left_append, left_plain [] title ns hns hne fun c hc => .inl (htitle c hc),
    wordAfter_word [] title htitle, List.nil_append]
  change after name title '<' (withoutAny ns) = withoutAny ns
  have hhead := head_withoutAny ns hns
  have hsteady := areSteady_withoutAny ns hns
  cases hms : withoutAny ns with
  | nil => rfl
  | cons m ms =>
    rw [hms] at hhead hsteady
    cases m with
    | any => exact absurd rfl hhead
    | opening => exact if_neg (by simp [isMet, hother])
    | sign d =>
      refine if_neg ?_
      rw [areSteady] at hsteady
      simp only [Bool.and_eq_true, bne_iff_ne] at hsteady
      simpa [isMet] using Ne.symm hsteady.1.1.2

theorem left_own_opening (ns : List Need) (hns : areSteady ns = true) (hne : name ≠ [])
    (hname : IsWordText name) : left name (opening :: ns) [] (name ++ ['<']) = ns := by
  rw [left_append, left_plain [] name (opening :: ns) hns hne fun c hc => .inl (hname c hc),
    wordAfter_word [] name hname, List.nil_append]
  exact if_pos (by simp [isMet])

/-- Behind a comma there is a need for any character only if nothing but the closing bracket
is left to come. -/
theorem after_comma (w : Line) (ns : List Need) (hns : areSteady ns = true) :
    (after name w ',' ns).head? ≠ some any ∨ after name w ',' ns = [any, sign '>'] := by
  cases ns with
  | nil => exact .inl (by simp [after])
  | cons n ns =>
    cases n with
    | opening => exact .inl (by simp [after, isMet])
    | any =>
      rw [areSteady, Bool.and_eq_true] at hns
      exact .inl (by simpa [after, isMet] using hns.1)
    | sign d =>
      rw [areSteady] at hns
      simp only [Bool.and_eq_true, Bool.or_eq_true, bne_iff_ne, beq_iff_eq] at hns
      rw [after]
      split
      · exact hns.1.2
      · exact .inl (by simp)

theorem left_bracket (text : Line) (hne : text ≠ []) :
    left name [any, sign '>'] [] (text ++ ['>']) = [] := by
  cases text with
  | nil => exact absurd rfl hne
  | cons c text =>
    rw [left_append]
    refine List.suffix_nil.1 ((left_mono _ [sign '>'] (left_suffix _ _ text) _ _).trans ?_)
    exact List.suffix_refl _

theorem left_respaced (ns : List Need) (hns : areSteady ns = true) (w first gap second : Line)
    (hgap : ∀ c ∈ gap, Unicode.isBlank c = true) (hne : second ≠ []) :
    left name ns w (first ++ ',' :: (gap ++ (second ++ ['>']))) =
      left name ns w (first ++ ',' :: (' ' :: (second ++ ['>']))) := by
  -- What is left behind the comma is looked at with any blanks in between.
  have hafter : ∀ ms, ms.head? ≠ some any ∨ ms = [any, sign '>'] → areSteady ms = true →
      ∀ blanks : Line, (∀ c ∈ blanks, Unicode.isBlank c = true) →
      left name ms [] (blanks ++ (second ++ ['>'])) = left name ms [] (second ++ ['>']) := by
    intro ms hms hsteady blanks hblanks
    rcases hms with hhead | rfl
    · cases blanks with
      | nil => rfl
      | cons c blanks =>
        rw [left_append, left_plain [] (c :: blanks) ms hsteady (by simp) fun x hx =>
          .inr (hblanks x hx), withoutAny_of_head ms hhead,
          wordAfter_blanks (c :: blanks) hblanks]
    · rw [left_bracket second hne, ← List.append_assoc, left_bracket _ (by simp [hne])]
  have hfirst : areSteady (left name ns w first) = true :=
    areSteady_suffix _ ns (left_suffix ns w first) hns
  have hsteady : areSteady (after name (wordAfter w first) ',' (left name ns w first)) = true :=
    areSteady_suffix _ _ (after_suffix _ ',' _) hfirst
  have hcomma : _ ∨ after name (wordAfter w first) ',' (left name ns w first) = _ :=
    after_comma _ _ hfirst
  rw [left_append, left_append]
  exact (hafter _ hcomma hsteady gap hgap).trans
    (hafter _ hcomma hsteady [' '] (by decide)).symm

end Need

end JvsSharp
