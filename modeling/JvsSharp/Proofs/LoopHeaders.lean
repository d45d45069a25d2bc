import JvsSharp.Proofs.NestedContainers
import Mathlib.Data.List.Infix

/-!
# Loops over a collection

The type of the loop variable is matched greedily and could go on over the
variable and up to the colon. It ends before the variable nevertheless: what
follows it has to be one blank and a word, and in a header this is found in
one place only. A loop opens with `for`, so in a text without it there is
nothing to be rewritten, also not where such a text meets the header.
-/

set_option autoImplicit false

namespace JvsSharp
open Pattern

structure LoopHeader where
  type : Line
  blank : Char
  name : Word
  source : Line
  behindFor : Blanks
  behindOpen : Blanks
  beforeColon : Blanks
  behindColon : Blanks
  isType : ∀ c ∈ type, Rules.typeText.mem c = true
  typeOpens : type.head?.any (fun c => !Unicode.isBlank c) = true
  isBlank : Unicode.isBlank blank = true
  sourceOpens : source.head?.any (fun c => !Unicode.isBlank c) = true
  sourceEnds : ')' ∉ source

namespace LoopHeader

variable (header : LoopHeader)

def variablePart (rest : Line) : Line :=
  header.blank :: (header.name.1 ++ (header.beforeColon.1 ++ ':' :: rest))

def sourcePart (rest : Line) : Line := header.behindColon.1 ++ (header.source ++ ')' :: rest)

def before (rest : Line) : Line :=
  "for".toList ++ (header.behindFor.1 ++ '(' :: (header.behindOpen.1 ++
    (header.type ++ header.variablePart (header.sourcePart rest))))

def text : Line := header.before []

def foreachText : Line :=
  "foreach (".toList ++ (header.type ++ ' ' :: (header.name.1 ++ (" in ".toList ++
    (header.source ++ [')']))))

theorem before_eq (rest : Line) : header.before rest = header.text ++ rest := by
  simp [text, before, variablePart, sourcePart]

end LoopHeader

namespace Pattern

variable {α : Type}

theorem stops_of_head (k : CharClass) (xs rest : Line)
    (h : xs.head?.any (fun c => !k.mem c) = true) : Stops k (xs ++ rest) := by
  cases xs with
  | nil => exact absurd h Bool.false_ne_true
  | cons c xs => exact stops_cons k c _ (by simpa using h)

/-- A pattern that opens with a text whose first character is not in the rest of it does not
begin before a place where that text may begin, if the text does not stand there. -/
theorem quiet_before_text (c : Char) (cs : Line) (hc : c ∉ cs) (ps : List Pattern)
    (b : Option Char) (pre rest : Line) (hpre : ¬(c :: cs) <:+: pre)
    (hrest : rest = [] ∨ rest.head? = some c) :
    Quiet (all (.text (c :: cs) :: ps)) b pre rest := by
  induction pre generalizing b with
  | nil => trivial
  | cons x pre ih =>
    refine ⟨matchAt_eq_none _ _ fun r hr => ?_,
      ih (some x) fun hcontained => hpre (hcontained.trans (List.suffix_cons x pre).isInfix)⟩
    obtain ⟨s, hs, -⟩ := (mem_ends_all_cons _ _ _ _ _).1 hr
    have htext : x :: pre ++ rest = (c :: cs) ++ s.1.rest := (mem_ends_text _ _ _ s hs).1
    -- Either the text ends within `pre`, or its rest begins where its first character stands.
    rcases List.append_eq_append_iff.1 htext with ⟨ys, hlong, hafter⟩ | ⟨ys, hshort, -⟩
    · cases ys with
      | nil => exact hpre ⟨[], [], by rw [hlong]; simp⟩
      | cons y ys =>
        have hy : y ∈ cs := by
          rw [List.cons_append, List.cons.injEq] at hlong
          rw [hlong.2]
          simp
        rcases hrest with rfl | hhead
        · simp at hafter
        · rw [hafter, List.cons_append, List.head?_cons, Option.some.injEq] at hhead
          exact hc (hhead ▸ hy)
    · exact hpre ⟨[], ys, by rw [hshort, List.nil_append]⟩

theorem matchK_blank_word_none (i : Nat) (ps : List Pattern) (b : Option Char) (text : Line)
    (m : List Mark) (f : Place → List Mark → Option α)
    (h : ∀ c d rest, text = c :: d :: rest → Unicode.isBlank c = true → Unicode.isWord d = false) :
    (all (.one .blank :: .group i word :: ps)).matchK ⟨b, text⟩ m f = none := by
  cases text with
  | nil => rfl
  | cons c text =>
    by_cases hc : CharClass.blank.mem c = true
    · cases text with
      | nil => simp only [matchK_all_cons, matchK, hc, if_true, word, chars]
      | cons d rest =>
        have hd : CharClass.word.mem d = false := h c d rest rfl hc
        simp only [matchK_all_cons, matchK, hc, if_true, word, chars, hd, Bool.false_eq_true,
          if_false]
    · simp only [matchK_all_cons, matchK, if_neg hc]

end Pattern

namespace LoopHeader

variable (header : LoopHeader)

/-- Behind the first blank of the variable part no word follows a blank before the colon. -/
theorem no_later_name (tail us vs : Line) (hne : us ≠ [])
    (hus : ∀ u ∈ us, Rules.typeText.mem u = true) (heq : us ++ vs = header.variablePart tail)
    (c d : Char) (rest : Line) (hvs : vs = c :: d :: rest) (hc : Unicode.isBlank c = true) :
    Unicode.isWord d = false := by
  -- What is left of the blanks before the colon, and the colon itself.
  have hblanks : ∀ xs : Line, (∀ x ∈ xs, Unicode.isBlank x = true) →
      xs ++ ':' :: tail = c :: d :: rest → Unicode.isWord d = false := by
    intro xs hxs hcut
    cases xs with
    | nil =>
      rw [List.nil_append, List.cons.injEq] at hcut
      rw [← hcut.1] at hc
      exact absurd hc (by decide)
    | cons x xs =>
      rw [List.cons_append, List.cons.injEq] at hcut
      cases xs with
      | nil =>
        rw [List.nil_append, List.cons.injEq] at hcut
        rw [← hcut.2.1]
        decide
      | cons y xs =>
        rw [List.cons_append, List.cons.injEq] at hcut
        rw [← hcut.2.1]
        exact Unicode.isWord_of_isBlank y (hxs y (by simp))
  subst hvs
  cases us with
  | nil => exact absurd rfl hne
  | cons u us =>
    rw [variablePart, List.cons_append, List.cons.injEq] at heq
    rcases List.append_eq_append_iff.1 heq.2 with ⟨xs, hname, hcut⟩ | ⟨xs, hus', hcut⟩
    · cases xs with
      | nil => exact hblanks _ header.beforeColon.2 hcut.symm
      | cons x xs =>
        rw [List.cons_append, List.cons.injEq] at hcut
        have hword := header.name.2.2 x (by rw [hname]; simp)
        rw [← hcut.1, Unicode.isWord_of_isBlank c hc] at hword
        exact absurd hword Bool.false_ne_true
    · rcases List.append_eq_append_iff.1 hcut with ⟨ys, hxs, hcolon⟩ | ⟨ys, hgap, hcut'⟩
      · cases ys with
        | nil => exact hblanks [] (by simp) hcolon
        | cons y ys =>
          rw [List.cons_append, List.cons.injEq] at hcolon
          have htype := hus ':' (by rw [hus', hxs, hcolon.1]; simp)
          exact absurd htype (by decide)
      · refine hblanks ys (fun y hy => header.beforeColon.2 y ?_) hcut'.symm
        rw [hgap]
        exact List.mem_append_right _ hy

theorem stops_colon (rest : Line) :
    Stops .word (header.beforeColon.1 ++ ':' :: rest) :=
  TypeExpr.endsWord_blanks header.beforeColon _ (endsWord_cons ':' _ (by decide))

section
variable (post : Line) (final : Place → List Mark → Option Hit) (b : Option Char) (m : List Mark)

/-- The collection is what stands between the colon and the next parenthesis. -/
theorem matchK_sourcePart (r : Hit)
    (hfinal : final ⟨some ')', post⟩ (⟨3, header.source ++ ')' :: post, ')' :: post⟩ :: m) =
      some r) :
    (all [slack, .group 3 Rules.argument, ")"]).matchK ⟨b, header.sourcePart post⟩ m final =
      some r := by
  have hopens : Stops .blank (header.source ++ ')' :: post) :=
    stops_of_head .blank _ _ header.sourceOpens
  have hne : header.source ≠ [] := by
    intro hnil
    have hfirst := header.sourceOpens
    rw [hnil] at hfirst
    exact absurd hfirst Bool.false_ne_true
  have hsource : ∀ x ∈ header.source, (CharClass.except [')']).mem x = true := by
    intro x hx
    have hclose : x ≠ ')' := fun hclose => header.sourceEnds (hclose ▸ hx)
    simpa [CharClass.mem] using hclose
  rw [matchK_all_cons, slack, matchK]
  refine runK_all .blank _ b _ _ header.behindColon.2 hopens r ?_
  rw [matchK_all_cons, matchK]
  refine (matchK_chars (.except [')']) _ header.source _ _ _ hne hsource
    (stops_cons _ ')' _ (by decide))).trans ?_
  rw [matchK_all_cons]
  exact (matchK_char ')' _ _ _ _).trans hfinal

theorem matchK_variablePart (r : Hit)
    (hsource : ∀ b, (all [slack, .group 3 Rules.argument, ")"]).matchK ⟨b, header.sourcePart post⟩
      (⟨2, header.name.1 ++ (header.beforeColon.1 ++ ':' :: header.sourcePart post),
        header.beforeColon.1 ++ ':' :: header.sourcePart post⟩ :: m) final = some r) :
    (all [.one .blank, .group 2 word, gap, ":", slack, .group 3 Rules.argument, ")"]).matchK
      ⟨b, header.variablePart (header.sourcePart post)⟩ m final = some r := by
  have hblank : CharClass.blank.mem header.blank = true := header.isBlank
  rw [matchK_all_cons, variablePart, matchK]
  simp only [hblank, if_true]
  rw [matchK_all_cons, matchK]
  refine (matchK_chars .word _ header.name.1 _ _ _ header.name.2.1 header.name.2.2
    (header.stops_colon _)).trans ?_
  rw [matchK_all_cons, gap]
  refine (matchK_span .blank _ header.beforeColon.1 _ _ _ header.beforeColon.2
    (stops_cons _ ':' _ (by decide))).trans ?_
  rw [matchK_all_cons]
  exact (matchK_char ':' _ _ _ _).trans (hsource _)

end

theorem forEachHeader_hit (b : Option Char) (post : Line) :
    ∃ h, Rules.forEachHeader.pattern.matchAt ⟨b, header.text ++ post⟩ = some h ∧
      h.text = header.text ∧ Rules.forEachHeader.render h = header.foreachText := by
  let source : Line := header.sourcePart post
  let colon : Line := header.beforeColon.1 ++ ':' :: source
  let final : Place → List Mark → Option Hit := fun c m =>
    some ⟨b, textBetween (header.text ++ post) c.rest, m, c.rest⟩
  let marks : List Mark :=
    [⟨3, header.source ++ ')' :: post, ')' :: post⟩, ⟨2, header.name.1 ++ colon, colon⟩,
      ⟨1, header.type ++ header.variablePart source, header.variablePart source⟩]
  let found : Hit := ⟨b, textBetween (header.text ++ post) post, marks, post⟩
  have hne : header.type ≠ [] := by
    intro hnil
    have hfirst := header.typeOpens
    rw [hnil] at hfirst
    exact absurd hfirst Bool.false_ne_true
  refine ⟨found, ?_, textBetween_left _ _, ?_⟩
  · rw [← header.before_eq post, matchAt, before, Rules.forEachHeader, matchK_all_cons, lit]
    refine (matchK_text "for".toList b _ _ _).trans ?_
    rw [matchK_all_cons, gap]
    refine (matchK_span .blank _ header.behindFor.1 _ _ _ header.behindFor.2
      (stops_cons _ '(' _ (by decide))).trans ?_
    rw [matchK_all_cons]
    refine (matchK_char '(' _ _ _ _).trans ?_
    rw [matchK_all_cons, slack, matchK]
    refine runK_all .blank _ _ _ _ header.behindOpen.2
      (stops_of_head .blank _ _ header.typeOpens) found ?_
    rw [matchK_all_cons, matchK]
    refine matchK_longest Rules.typeText _ header.type _ _ _ hne header.isType ?_ found ?_
    · intro us vs b' hus hmem heq
      exact matchK_blank_word_none 2 _ b' vs _ _ (header.no_later_name source us vs hus hmem heq)
    · refine header.matchK_variablePart post _ _ _ found fun b' => ?_
      refine header.matchK_sourcePart post _ _ _ found ?_
      simp [found, ← header.before_eq post, marks, colon, source, before]
  · have hfirst : found.group 1 = header.type := textBetween_left header.type _
    have hsecond : found.group 2 = header.name.1 := textBetween_left header.name.1 colon
    have hthird : found.group 3 = header.source := textBetween_left header.source _
    simp only [Edit.render, Rules.forEachHeader, List.flatMap_cons, List.flatMap_nil, Part.render,
      hfirst, hsecond, hthird, List.append_nil]
    rfl

end LoopHeader

/-- A loop header between texts that hold no `for` is rewritten with its type, its name and its
collection as they are. -/
theorem loop_header_keeps_parts (header : LoopHeader) (pre post : Line)
    (hpre : ¬"for".toList <:+: pre) (hpost : ¬"for".toList <:+: post) :
    Rules.enhancedFor (pre ++ (header.text ++ post)) = pre ++ (header.foreachText ++ post) := by
  obtain ⟨h, hm, htext, hrender⟩ := header.forEachHeader_hit (behind none pre) post
  have hbefore : Quiet Rules.forEachHeader.pattern none pre (header.text ++ post) :=
    quiet_before_text 'f' ['o', 'r'] (by decide) _ _ pre _ hpre (.inr rfl)
  have hafter : ∀ b, Quiet Rules.forEachHeader.pattern b post [] := fun b =>
    quiet_before_text 'f' ['o', 'r'] (by decide) _ b post [] hpost (.inl rfl)
  rw [Rules.enhancedFor, Edit.apply, replaceAll_single _ _ pre header.text post h hbefore hm htext
    (by simp [LoopHeader.text, LoopHeader.before]) (hafter _), hrender]

def nestedLoop : LoopHeader where
  type := "Map<K , List<V>>".toList
  blank := '\t'
  name := ⟨"entry1".toList, by decide, by unfold IsWordText; decide⟩
  source := "rows(for (a : b".toList
  behindFor := ⟨['\n'], by decide⟩
  behindOpen := ⟨[' ', ' '], by decide⟩
  beforeColon := ⟨[' '], blank_space⟩
  behindColon := ⟨[], blank_nil⟩
  isType := by decide
  typeOpens := by decide
  isBlank := by decide
  sourceOpens := by decide
  sourceEnds := by decide

theorem nested_loop_rewritten :
    let pre := "fo ".toList
    let post := " \x7b of".toList
    (¬"for".toList <:+: pre ∧ ¬"for".toList <:+: post) ∧
      Rules.enhancedFor
          "fo for\n(  Map<K , List<V>>\tentry1 :rows(for (a : b) \x7b of".toList =
        "fo foreach (Map<K , List<V>> entry1 in rows(for (a : b) \x7b of".toList := by
  intro pre post
  have hfree : ¬"for".toList <:+: pre ∧ ¬"for".toList <:+: post := by decide
  have hline : "fo for\n(  Map<K , List<V>>\tentry1 :rows(for (a : b) \x7b of".toList =
      pre ++ (nestedLoop.text ++ post) := by decide
  have hwritten : "fo foreach (Map<K , List<V>> entry1 in rows(for (a : b) \x7b of".toList =
      pre ++ (nestedLoop.foreachText ++ post) := by decide
  rw [hline, hwritten]
  exact ⟨hfree, loop_header_keeps_parts nestedLoop pre post hfree.1 hfree.2⟩

end JvsSharp
