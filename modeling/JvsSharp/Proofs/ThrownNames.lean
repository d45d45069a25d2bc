import JvsSharp.Proofs.Brackets
import JvsSharp.Proofs.Contained
import JvsSharp.Proofs.FieldLines

/-!
# Names behind `throws`

The exceptions that a method may throw are words with commas between them. A
pattern that matches neither within a name nor at a comma is quiet over the
whole list, the words of the list are mapped in their places, and the header
of a method goes over the list to its end. The first edit for loggers is the
one that may break a name off: it splits a name that opens with a modifier
and the name of the logger.
-/

set_option autoImplicit false

namespace JvsSharp
open Pattern

inductive Exceptions where
  | last (name : Word)
  | more (name : Word) (before after : Blanks) (others : Exceptions)

def Word.keyword (w : Word) : Word :=
  ⟨Rules.primitiveKeyword w.1, by
    have hkeywords : ∀ p ∈ Rules.primitives, p.2.toList ≠ [] := by decide
    refine ⟨?_, Rules.primitiveKeyword_word w.1 w.2.2⟩
    rw [Rules.primitiveKeyword]
    split
    · next p hp => exact hkeywords p (List.mem_of_find?_eq_some hp)
    · exact w.2.1⟩

namespace Exceptions

def names : Exceptions → List Line
  | .last name => [name.1]
  | .more name _ _ others => name.1 :: others.names

theorem isWordText_names (es : Exceptions) : ∀ w ∈ es.names, IsWordText w := by
  induction es with
  | last name => exact List.forall_mem_singleton.2 name.2.2
  | more name before after others ih => exact List.forall_mem_cons.2 ⟨name.2.2, ih⟩

def spelled (g : Line → Line) : Exceptions → Line
  | .last name => g name.1
  | .more name before after others =>
      g name.1 ++ (before.1 ++ ',' :: (after.1 ++ others.spelled g))

def text (es : Exceptions) : Line := es.spelled id

theorem spelled_eq_text (g : Line → Line) (es : Exceptions) (h : ∀ w ∈ es.names, g w = w) :
    es.spelled g = es.text := by
  induction es with
  | last name => exact h name.1 (by simp [names])
  | more name before after others ih =>
    have hname : g name.1 = name.1 := h name.1 (by simp [names])
    have hothers : others.spelled g = others.text := ih fun w hw => h w (by simp [names, hw])
    rw [spelled, hname, hothers]
    rfl

theorem text_more (name : Word) (before after : Blanks) (others : Exceptions) :
    (more name before after others).text =
      name.1 ++ ((before.1 ++ ',' :: after.1) ++ others.text) := by
  simp [text, spelled]

def keywords : Exceptions → Exceptions
  | .last name => .last name.keyword
  | .more name before after others => .more name.keyword before after others.keywords

theorem text_keywords (es : Exceptions) :
    es.keywords.text = es.spelled Rules.primitiveKeyword := by
  induction es with
  | last name => rfl
  | more name before after others ih =>
    rw [keywords, text_more, ih, spelled, List.append_assoc]
    rfl

theorem names_keywords (es : Exceptions) :
    es.keywords.names = es.names.map Rules.primitiveKeyword := by
  induction es with
  | last name => rfl
  | more name before after others ih =>
    rw [keywords, names, ih]
    rfl

def head : Exceptions → Word
  | .last name => name
  | .more name _ _ _ => name

def tail : Exceptions → Line
  | .last _ => []
  | .more _ before after others => before.1 ++ ',' :: (after.1 ++ others.text)

theorem text_eq (es : Exceptions) (rest : Line) :
    es.text ++ rest = es.head.1 ++ (es.tail ++ rest) := by
  cases es with
  | last name => rfl
  | more name before after others => simp [text, spelled, head, tail]

theorem tail_more (name : Word) (before after : Blanks) (others : Exceptions) (rest : Line) :
    (more name before after others).tail ++ rest =
      before.1 ++ ',' :: (after.1 ++ (others.text ++ rest)) := by
  simp [tail]

theorem not_mem_text (d : Char) (hword : Unicode.isWord d = false)
    (hblank : Unicode.isBlank d = false) (hcomma : d ≠ ',') (es : Exceptions) : d ∉ es.text := by
  have hname : ∀ w : Word, d ∉ w.1 := fun w hmem =>
    Bool.false_ne_true (hword.symm.trans (w.2.2 d hmem))
  have hgap : ∀ g : Blanks, d ∉ g.1 := fun g hmem =>
    Bool.false_ne_true (hblank.symm.trans (g.2 d hmem))
  induction es with
  | last name => exact hname name
  | more name before after others ih =>
    rw [text_more]
    simp [hname, hgap, hcomma, ih]

def behindName : Outline := [.many .blank, .one (.oneOf [',', '\x7b']), .many (.except [])]

theorem fits_any (xs : Line) : Outline.Fits [.many (.except [])] xs :=
  Outline.fits_many _ xs (by simp [CharClass.mem])

theorem fits_behindName (gap : Blanks) (d : Char) (hd : d ∈ [',', '\x7b']) (rest : Line) :
    behindName.Fits (gap.1 ++ d :: rest) :=
  ⟨gap.1, d :: rest, rfl, gap.2, d, rest, rfl, by simpa [CharClass.mem] using hd, fits_any rest⟩

theorem endsWord_behindName (rest : Line) (h : behindName.Fits rest) : EndsWord rest := by
  obtain ⟨gap, _, rfl, hgap, d, rest, rfl, hd, -⟩ := h
  refine TypeExpr.endsWord_blanks ⟨gap, hgap⟩ _ (endsWord_cons d rest ?_)
  exact CharClass.isWord_of_offWord (.oneOf [',', '\x7b']) (by decide) d hd

theorem fits_text (es : Exceptions) (rest : Line) :
    Outline.Fits [.one .word, .many (.except [])] (es.text ++ rest) := by
  obtain ⟨⟨name, hne, hname⟩, hhead⟩ : ∃ name, es.head = name := ⟨_, rfl⟩
  rw [text_eq, hhead]
  cases name with
  | nil => exact absurd rfl hne
  | cons c name => exact ⟨c, _, rfl, hname c (by simp), fits_any _⟩

theorem stops_blank_text (es : Exceptions) (rest : Line) : Stops .blank (es.text ++ rest) := by
  rw [text_eq]
  exact ContainerShape.stops_blank_word es.head.1 _ es.head.2.1 es.head.2.2

theorem endsWord_tail (es : Exceptions) (rest : Line) (hrest : EndsWord rest) :
    EndsWord (es.tail ++ rest) := by
  cases es with
  | last name => exact hrest
  | more name before after others =>
    rw [tail_more]
    exact TypeExpr.endsWord_blanks before _ (endsWord_cons ',' _ (by decide))

section
variable {p : Pattern} (hcomma : p.misses none [.many .blank, .one (.only ','), .many .blank]
  [.one .word, .many (.except [])] = true)
include hcomma

theorem quiet_comma (b : Option Char) (before after : Blanks) (others : Exceptions) (rest : Line) :
    Quiet p b (before.1 ++ ',' :: after.1) (others.text ++ rest) := by
  refine quiet_of_misses p none _ _ hcomma b _ _ (View.knows_none b) ?_ (others.fits_text rest)
  exact ⟨before.1, ',' :: after.1, rfl, before.2, ',', after.1, rfl, by decide,
    Outline.fits_many .blank after.1 after.2⟩

theorem quiet_text (es : Exceptions)
    (hname : ∀ w ∈ es.names, ∀ b rest, behindName.Fits rest → Quiet p b w rest)
    (b : Option Char) (rest : Line) (hrest : behindName.Fits rest) : Quiet p b es.text rest := by
  induction es generalizing b with
  | last name => exact hname name.1 (by simp [names]) b rest hrest
  | more name before after others ih =>
    have hothers := ih (fun w hw => hname w (by simp [names, hw]))
      (behind (behind b name.1) (before.1 ++ ',' :: after.1))
    rw [text_more]
    refine .append (hname name.1 (by simp [names]) b _ ?_)
      (.append (quiet_comma hcomma _ before after others rest) hothers)
    rw [List.append_assoc, List.append_assoc]
    exact fits_behindName before ',' (by decide) _

end

theorem mapWords_text (g : Line → Line) (es : Exceptions) (rest : Line) (hrest : EndsWord rest) :
    mapWords g (es.text ++ rest) = es.spelled g ++ mapWords g rest := by
  have hname : ∀ (w : Word) (rest : Line), EndsWord rest →
      mapWords g (w.1 ++ rest) = g w.1 ++ mapWords g rest := by
    intro w rest hends
    rw [mapWords_run g w.1 rest w.2.2 hends, flush, if_neg w.2.1]
  induction es with
  | last name => exact hname name rest hrest
  | more name before after others ih =>
    rw [text_eq, hname _ _ (endsWord_tail _ rest hrest), tail_more,
      mapWords_others g before.1 _ (TypeExpr.isWord_blanks before),
      mapWords_other g ',' _ (by decide),
      mapWords_others g after.1 _ (TypeExpr.isWord_blanks after), ih]
    simp [spelled, head]

def further : Exceptions → Nat
  | .last _ => 0
  | .more _ _ _ others => others.further + 1

theorem further_le_length (es : Exceptions) : es.further ≤ es.tail.length := by
  induction es with
  | last name => exact Nat.le_refl 0
  | more name before after others ih =>
    have htext := congrArg List.length (others.text_eq [])
    simp only [List.append_nil, List.length_append] at htext
    simp only [further, tail, List.length_append, List.length_cons]
    omega

section
variable {α : Type} (rest : Line) (hrest : EndsWord rest)
  (hstop : ∀ (b : Option Char) (m : List Mark) (f : Place → List Mark → Option α),
    Rules.nextName.matchK ⟨b, rest⟩ m f = none)
include hrest hstop

theorem starK_tail (es : Exceptions) (n : Nat) (hn : es.further ≤ n) (b : Option Char)
    (m : List Mark) (f : Place → List Mark → Option α) (r : α)
    (hf : f ⟨behind b es.tail, rest⟩ m = some r) :
    starK (fun c m f => Rules.nextName.matchK c m f) f n ⟨b, es.tail ++ rest⟩ m = some r := by
  induction es generalizing n b with
  | last name =>
    cases n with
    | zero => exact hf
    | succ n =>
      rw [starK]
      exact (congrArg (Option.or · _) (hstop b m _)).trans hf
  | more name before after others ih =>
    cases n with
    | zero => exact absurd hn (by simp [further])
    | succ n =>
      have hbehind : behind b (more name before after others).tail =
          behind (behind (behind (some ',') after.1) others.head.1) others.tail := by
        have htext := others.text_eq []
        simp only [List.append_nil] at htext
        rw [tail, htext, behind_append]
        exact (behind_append (some ',') after.1 _).trans (behind_append _ _ _)
      have hothers := ih n (Nat.le_of_succ_le_succ hn) _ (by rw [← hbehind]; exact hf)
      rw [starK, tail_more, Rules.nextName, matchK_all_cons]
      refine Option.or_eq_some_iff.2 (.inl ?_)
      refine (matchK_span .blank _ before.1 _ m _ before.2
        (stops_cons .blank ',' _ (by decide))).trans ?_
      rw [matchK_all_cons]
      refine (matchK_char ',' _ _ m _).trans ?_
      rw [matchK_all_cons]
      refine (matchK_span .blank _ after.1 _ m _ after.2 (others.stops_blank_text rest)).trans ?_
      rw [matchK_all_cons, text_eq]
      refine (matchK_chars .word _ others.head.1 _ m _ others.head.2.1 others.head.2.2
        (others.endsWord_tail rest hrest)).trans ?_
      exact hothers

/-- A name and the repetition behind it go over the list to its end. -/
theorem matchK_list (es : Exceptions) (b : Option Char) (m : List Mark)
    (f : Place → List Mark → Option α) (r : α) (hf : f ⟨behind b es.text, rest⟩ m = some r) :
    (all [word, .star Rules.nextName]).matchK ⟨b, es.text ++ rest⟩ m f = some r := by
  have htext := es.text_eq []
  simp only [List.append_nil] at htext
  have hlength : es.further ≤ (es.tail ++ rest).length := by
    have hle := es.further_le_length
    rw [List.length_append]
    omega
  rw [text_eq, matchK_all_cons]
  refine (matchK_chars .word _ es.head.1 _ m _ es.head.2.1 es.head.2.2
    (es.endsWord_tail rest hrest)).trans ?_
  rw [matchK_all_cons, matchK]
  refine starK_tail rest hrest hstop es _ hlength _ m f r ?_
  rw [← behind_append, ← htext]
  exact hf

end

theorem behind_comma (b : Option Char) (before after : Blanks) :
    (behind b (before.1 ++ ',' :: after.1)).any Unicode.isWord = false := by
  rw [behind_append]
  exact behind_others (some ',') after.1 (by decide) (TypeExpr.isWord_blanks after)

end Exceptions

theorem prefix_of_endsWord (v w rest rest' : Line) (hv : IsWordText v) (hrest : EndsWord rest)
    (h : w ++ rest = v ++ rest') : v <+: w := by
  rcases List.append_eq_append_iff.1 h with ⟨xs, rfl, hxs⟩ | ⟨xs, rfl, -⟩
  · cases xs with
    | nil => simp
    | cons x xs =>
      rw [hxs] at hrest
      exact absurd (hv x (by simp)) (by simpa [EndsWord] using hrest)
  · exact List.prefix_append v xs

namespace Rules
open Exceptions

def loggerModifiers : List Line := ["public".toList, "private".toList]

theorem loggerEdits_cut : loggerEdits = loggerField :: loggerEdits.drop 1 := rfl

def OpensLogger (w : Line) : Prop := ∃ v ∈ loggerModifiers, v ++ loggerName <+: w

instance (w : Line) : Decidable (OpensLogger w) := inferInstanceAs (Decidable (∃ v ∈ _, _))

theorem primitiveKeyword_logger (w : Line) (hfree : ¬IsReserved w) :
    primitiveKeyword w ∉ loggerModifiers ∧ (OpensLogger (primitiveKeyword w) ↔ OpensLogger w) := by
  have hpairs : ∀ p ∈ primitives, p.2.toList ∉ loggerModifiers ∧ ¬OpensLogger p.1.toList ∧
      ¬OpensLogger p.2.toList := by decide
  have hreserved : ∀ v ∈ loggerModifiers, v ∈ reservedWords.map String.toList := by decide
  rw [primitiveKeyword]
  split
  · next p hp =>
    obtain ⟨hmodifier, hsource, hkeyword⟩ := hpairs p (List.mem_of_find?_eq_some hp)
    have hw : p.1.toList = w := eq_of_beq (List.find?_some hp :)
    exact ⟨hmodifier, iff_of_false hkeyword (hw ▸ hsource)⟩
  · exact ⟨fun hw => hfree (hreserved w hw), Iff.rfl⟩

theorem isWordText_loggerName : IsWordText loggerName := isWordText_of_all _ (by decide)

theorem areWords_loggerModifiers : AreWords loggerModifiers := areWords_of_all _ (by decide)

theorem loggerField_none (w : Line) (hw : IsWordText w) (hfree : w ∉ loggerModifiers)
    (hopens : ¬OpensLogger w) (b : Option Char) (rest : Line) (hrest : EndsWord rest) :
    loggerField.pattern.matchAt ⟨b, w ++ rest⟩ = none := by
  refine matchAt_eq_none _ _ fun r hr => ?_
  simp only [loggerField, mem_ends_all_cons] at hr
  obtain ⟨a, ha, d, hd, e, he, f, hf, -⟩ := hr
  obtain ⟨-, rfl⟩ := mem_ends_edge _ _ a ha
  obtain ⟨v, hv, hmodifier⟩ := (chooses_anyOf "public" ["private"]).group 1 |>.only _ _ d hd
  obtain ⟨gap, hgap, hblank⟩ := ends_takes .blank Pattern.gap (by decide) _ _ e he
  have hname := mem_ends_text _ _ _ f hf
  have hword := (areWords_loggerModifiers v hv).2
  have htext : w ++ rest = v ++ (gap ++ (loggerName ++ f.1.rest)) := by
    rw [← hname.1, ← hgap.1, ← hmodifier.1]
  cases gap with
  | nil =>
    refine hopens ⟨v, hv, prefix_of_endsWord _ w rest f.1.rest ?_ hrest ?_⟩
    · exact fun c hc => (List.mem_append.1 hc).elim (hword c) (isWordText_loggerName c)
    · rw [htext, List.append_assoc]
      rfl
  | cons x gap =>
    have hends : EndsWord (x :: gap ++ (loggerName ++ f.1.rest)) :=
      endsWord_cons x _ (Unicode.isWord_of_isBlank x (hblank x (by simp)))
    exact hfree (run_unique w v _ _ hw hword hrest hends htext ▸ hv)

theorem loggerField_quiet (w : Line) (hw : IsWordText w) (hfree : w ∉ loggerModifiers)
    (hopens : ¬OpensLogger w) (b : Option Char) (rest : Line) (hrest : behindName.Fits rest) :
    Quiet loggerField.pattern b w rest := by
  have hnone := loggerField_none w hw hfree hopens b rest (endsWord_behindName rest hrest)
  cases w with
  | nil => trivial
  | cons c w =>
    -- Within a word there is no edge.
    refine ⟨hnone, quiet_of_misses _ (some .word) [.many .word] _ (by decide) _ _ _
      (View.knows_some .word c (hw c (by simp))) ?_ hrest⟩
    exact Outline.fits_many .word w fun x hx => hw x (by simp [hx])

theorem loggerField_hit (v : Line) (hv : v ∈ loggerModifiers) (b : Option Char)
    (hb : b.any Unicode.isWord = false) (rest : Line) :
    ∃ h, loggerField.pattern.matchAt ⟨b, (v ++ loggerName) ++ rest⟩ = some h ∧
      h.text = v ++ loggerName ∧ loggerField.render h = v ++ " Logger".toList := by
  let line : Line := v ++ (loggerName ++ rest)
  obtain ⟨hne, hword⟩ := areWords_loggerModifiers v hv
  have hline : (v ++ loggerName) ++ rest = line := List.append_assoc ..
  have hmatch : loggerField.pattern.matchAt ⟨b, line⟩ =
      some ⟨b, textBetween line rest, [⟨1, line, loggerName ++ rest⟩], rest⟩ := by
    rw [matchAt, loggerField, matchK_all_cons,
      matchK_edge _ _ _ (Place.atEdge_word b v _ hb hne hword)]
    simp only [loggerModifiers, List.mem_cons, List.not_mem_nil, or_false] at hv
    rcases hv with rfl | rfl
    · rfl
    · rfl
  refine ⟨_, hline ▸ hmatch, ?_, ?_⟩
  · exact hline ▸ textBetween_left (v ++ loggerName) rest
  · simp [Edit.render, loggerField, Part.render, Hit.group, Mark.text, textBetween_left]

/-- A name that opens so is broken off behind its modifier, and the list ends there. -/
theorem loggerField_breaks (es : Exceptions) (hfree : ∀ w ∈ es.names, w ∉ loggerModifiers)
    (hopens : ∃ w ∈ es.names, OpensLogger w) (ds : List Char)
    (hspares : ∀ d ∈ ds, loggerField.Spares d) (b : Option Char)
    (hb : b.any Unicode.isWord = false) (rest : Line) (hlacks : Lacks ds (es.text ++ rest)) :
    ∃ (es' : Exceptions) (rest' : Line), Lacks ds rest' ∧
      loggerField.pattern.replaceFrom loggerField.render b (es.text ++ rest) =
        es'.text ++ (" Logger".toList ++ rest') := by
  -- The name itself opens so.
  have hbreaks : ∀ (es : Exceptions) (b : Option Char), b.any Unicode.isWord = false →
      Lacks ds (es.text ++ rest) → OpensLogger es.head.1 →
      ∃ (es' : Exceptions) (rest' : Line), Lacks ds rest' ∧
        loggerField.pattern.replaceFrom loggerField.render b (es.text ++ rest) =
          es'.text ++ (" Logger".toList ++ rest') := by
    rintro es b hb hlacks ⟨v, hv, more, hmore⟩
    obtain ⟨hne, hword⟩ := areWords_loggerModifiers v hv
    have hline : es.text ++ rest = (v ++ loggerName) ++ (more ++ (es.tail ++ rest)) := by
      rw [text_eq, ← hmore, List.append_assoc]
    obtain ⟨h, hm, htext, hrender⟩ := loggerField_hit v hv b hb (more ++ (es.tail ++ rest))
    rw [hline, lacks_append] at hlacks
    refine ⟨.last ⟨v, hne, hword⟩, _, loggerField.replaceFrom_lacks (by decide) ds hspares
      (behind b (v ++ loggerName)) _ hlacks.2, ?_⟩
    rw [hline, replaceFrom_hit _ _ b _ _ h hm htext (by simp [hne]), hrender, List.append_assoc]
    rfl
  induction es generalizing b with
  | last name =>
    obtain ⟨w, hw, hopens⟩ := hopens
    refine hbreaks _ b hb hlacks ?_
    rw [List.mem_singleton.1 hw] at hopens
    exact hopens
  | more name before after others ih =>
    by_cases hname : OpensLogger name.1
    · exact hbreaks _ b hb hlacks hname
    · obtain ⟨w, hw, hopens⟩ := hopens
      have hothers : w ∈ others.names := by
        rcases List.mem_cons.1 hw with rfl | hw
        · exact absurd hopens hname
        · exact hw
      let gap : Line := before.1 ++ ',' :: after.1
      have hline : (more name before after others).text ++ rest =
          name.1 ++ (gap ++ (others.text ++ rest)) := by
        rw [text_more, List.append_assoc, List.append_assoc]
      have hquiet : Quiet loggerField.pattern b name.1 (gap ++ (others.text ++ rest)) := by
        refine loggerField_quiet name.1 name.2.2 (hfree _ (by simp [names])) hname b _ ?_
        have hfits := fits_behindName before ',' (by decide) (after.1 ++ (others.text ++ rest))
        simpa [gap] using hfits
      rw [hline, lacks_append, lacks_append] at hlacks
      obtain ⟨es', rest', hlacks', hreplace⟩ := ih (fun w hw => hfree w (by simp [names, hw]))
        ⟨w, hothers, hopens⟩ (behind (behind b name.1) gap) (behind_comma _ before after)
        hlacks.2.2
      refine ⟨.more name before after es', rest', hlacks', ?_⟩
      rw [hline, replaceFrom_quiet _ _ b name.1 _ hquiet,
        replaceFrom_quiet _ _ _ gap _ (quiet_comma (by decide) _ before after others rest),
        hreplace, text_more]
      simp only [gap, List.append_assoc]

end Rules

end JvsSharp
