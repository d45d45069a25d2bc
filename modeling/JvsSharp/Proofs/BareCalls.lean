import JvsSharp.Proofs.CallNames
import JvsSharp.Proofs.Initials

/-!
# Bare calls

The rule for bare calls first mends an `else` and then cases every name that
stands before a parenthesis, unless it is a call on a receiver. In the header
of a method it takes the name of the method for a bare call. The word before
that name is changed only if the two can be read as `else if`.
-/

set_option autoImplicit false

namespace JvsSharp
open Pattern

namespace Pattern

/-- A text whose folding is in ASCII letters is a word. -/
theorem isWordText_of_folded (cs : List Char) (hcs : ∀ d ∈ cs, d.isLower = true) (xs : Line)
    (h : xs.map foldCase = cs) : IsWordText xs := by
  intro x hx
  have hlower : (foldCase x).isLower = true := hcs _ (h ▸ List.mem_map_of_mem hx)
  have hword : Unicode.isWord (foldCase x) = true :=
    CharClass.isWord_of_inWord .lower rfl (foldCase x) hlower
  apply CharClass.isWord_of_inWord (.eitherCase (foldCase x)) _ x
  · exact (mem_eitherCase_iff _ x hlower).2 rfl
  · rwa [CharClass.inWord, toLower_of_isLower _ hlower]

theorem mem_ends_space (c : Place) (m : List Mark) (r : Place × List Mark)
    (h : r ∈ space.ends c m) :
    ∃ xs, c.Leads xs r.1 ∧ xs ≠ [] ∧ ∀ x ∈ xs, Unicode.isBlank x = true := by
  rw [space, chars, ends, List.mem_flatMap] at h
  obtain ⟨s, hs, h⟩ := h
  obtain ⟨x, rest, hrest, hx, rfl⟩ := mem_ends_one _ c m s hs
  rw [ends, List.mem_singleton] at h
  obtain ⟨xs, hleads, hxs⟩ := skipWhile_passes .blank (some x) rest
  have hone : c.Leads [x] ⟨some x, rest⟩ := ⟨hrest, rfl⟩
  rw [h]
  exact ⟨x :: xs, hone.trans hleads, by simp, List.forall_mem_cons.2 ⟨hx, hxs⟩⟩

theorem searchFrom_quiet (p : Pattern) (b : Option Char) (pre mid : Line) (h : Hit)
    (hpre : Quiet p b pre mid) (hm : p.matchAt ⟨behind b pre, mid⟩ = some h) :
    p.searchFrom b (pre ++ mid) = some (pre, h) := by
  induction pre generalizing b with
  | nil =>
    cases mid with
    | nil =>
      rw [List.nil_append, searchFrom]
      exact congrArg (Option.map _) hm
    | cons c mid =>
      have hhere : p.matchAt ⟨b, c :: mid⟩ = some h := hm
      rw [List.nil_append, searchFrom, hhere]
  | cons c pre ih =>
    rw [List.cons_append, searchFrom, hpre.1, ih (some c) hpre.2 hm]
    rfl

end Pattern

def headerText (type name : Line) : Line := type ++ ' ' :: (name ++ ['('])

def callText (receiver name : Line) : Line := receiver ++ '.' :: (name ++ ['('])

def bareText (name : Line) : Line := name ++ ['(']

def Outline.wordsAround (d : Char) : Outline :=
  [.many .word, .one (.only d), .many .word, .one (.only '(')]

section
variable {first name : Line} (hfirst : IsWordText first) (hname : IsWordText name)
include hname

theorem fits_bareText : Outline.Fits [.many .word, .one (.only '(')] (bareText name) :=
  (Outline.fits_many .word name hname).append (Outline.fits_lit ['('])

include hfirst

theorem fits_wordsAround (d : Char) :
    (Outline.wordsAround d).Fits (first ++ d :: (name ++ ['('])) :=
  (Outline.fits_many .word first hfirst).append
    ((Outline.fits_lit [d]).append (fits_bareText hname))

end

theorem quiet_parenthesis (p : Pattern) (h : p.misses none (.lit ['(']) [] = true)
    (b : Option Char) : Quiet p b ['('] [] :=
  quiet_of_misses p none _ [] h b _ _ (View.knows_none b) (Outline.fits_lit ['(']) rfl

namespace Rules

def callStart : CharClass := .union .lower (.union .upper (.only '_'))

structure BareCall where
  name : Line
  gap : Blanks
  start : name.head?.any callStart.mem = true
  isWord : IsWordText name

namespace BareCall

def text (call : BareCall) : Line := call.name ++ (call.gap.1 ++ ['('])

def cased (call : BareCall) : Line := bareCallName call.name ++ (call.gap.1 ++ ['('])

end BareCall

theorem bareCall_hit (b : Option Char) (call : BareCall) (post : Line) :
    ∃ h, bareCall.pattern.matchAt ⟨b, call.text ++ post⟩ = some h ∧ h.text = call.text ∧
      bareCall.render h = call.cased := by
  obtain ⟨name, blanks, hstart, hname⟩ := call
  cases name with
  | nil => exact nomatch hstart
  | cons c name =>
    have hc : callStart.mem c = true := hstart
    rw [callStart] at hc
    let tail : Line := blanks.1 ++ '(' :: post
    let text : Line := c :: (name ++ tail)
    let found : Hit := ⟨b, c :: (name ++ (blanks.1 ++ ['('])),
      [⟨2, tail, '(' :: post⟩, ⟨1, text, tail⟩], post⟩
    have hline : c :: (name ++ (blanks.1 ++ ['('])) ++ post = text := by simp [text, tail]
    have htext : textBetween text post = c :: (name ++ (blanks.1 ++ ['('])) := by
      rw [← hline, textBetween_left]
    have hword : Stops .word tail :=
      TypeExpr.endsWord_blanks blanks _ (endsWord_cons '(' _ (by decide))
    have hmatch : bareCall.pattern.matchAt ⟨b, text⟩ = some found := by
      rw [matchAt, bareCall, matchK_all_cons, matchK, typeName, matchK_all_cons, matchK]
      simp only [text, hc, if_true]
      rw [matchK_all_cons]
      refine (matchK_span .word _ name _ _ _ (fun x hx => hname x (by simp [hx])) hword).trans ?_
      rw [matchK_all_nil, matchK_all_cons, matchK, gap]
      refine (matchK_span .blank _ blanks.1 _ _ _ blanks.2
        (stops_cons _ '(' _ (by decide))).trans ?_
      rw [matchK_all_cons]
      refine (matchK_char '(' _ _ _ _).trans ?_
      rw [matchK_all_nil]
      simp only [text] at htext
      rw [htext]
    have hfirst : found.group 1 = c :: name := textBetween_left (c :: name) tail
    have hsecond : found.group 2 = blanks.1 := textBetween_left blanks.1 ('(' :: post)
    refine ⟨found, ?_, rfl, ?_⟩
    · rw [BareCall.text, List.cons_append, hline]
      exact hmatch
    · simp [Edit.render, bareCall, Part.render, hfirst, hsecond, BareCall.cased]

def IsElseIf (type name : Line) : Prop :=
  type.map foldCase = "else".toList ∧ name.map foldCase = "if".toList

instance (type name : Line) : Decidable (IsElseIf type name) :=
  inferInstanceAs (Decidable (_ ∧ _))

theorem IsElseIf.words {first second : Line} (h : IsElseIf first second) :
    (first ≠ [] ∧ IsWordText first) ∧ second ≠ [] ∧ IsWordText second := by
  obtain ⟨helse, hif⟩ := h
  refine ⟨⟨?_, isWordText_of_folded _ (by decide) first helse⟩, ?_,
    isWordText_of_folded _ (by decide) second hif⟩ <;> rintro rfl
  · exact absurd helse (by decide)
  · exact absurd hif (by decide)

structure ElsePair where
  first : Line
  gap : Blanks
  second : Line
  spaced : gap.1 ≠ []
  isElseIf : IsElseIf first second

namespace ElsePair

variable (pair : ElsePair)

def text : Line := pair.first ++ (pair.gap.1 ++ pair.second)

theorem gap_isWord : ∀ x ∈ pair.gap.1, Unicode.isWord x = false := fun x hx =>
  Unicode.isWord_of_isBlank x (pair.gap.2 x hx)

theorem endsWord_gap (rest : Line) : EndsWord (pair.gap.1 ++ rest) := by
  have hgap := pair.gap_isWord
  have hspaced := pair.spaced
  cases hcut : pair.gap.1 with
  | nil => exact absurd hcut hspaced
  | cons x gap => exact hgap x (by simp [hcut])

theorem opens (post : Line) : ∃ v tail, pair.text ++ post = v :: tail ∧
    Unicode.isWord v = true ∧ foldCase v = 'e' := by
  obtain ⟨⟨hne, hword⟩, -⟩ := pair.isElseIf.words
  have helse := pair.isElseIf.1
  cases hpair : pair.first with
  | nil => exact absurd hpair hne
  | cons v more =>
    rw [hpair] at hword helse
    refine ⟨v, more ++ (pair.gap.1 ++ (pair.second ++ post)), ?_, hword v (by simp),
      (List.cons.inj helse).1⟩
    simp [text, hpair]

end ElsePair

/-- What the pattern of a mended `else` goes over is such a pair, cut out at the edges of words. -/
theorem pair_of_ends (c : Place) (r : Place × List Mark) (hr : r ∈ elseIf.pattern.ends c []) :
    c.before.any Unicode.isWord = false ∧
      ∃ pair : ElsePair, c.rest = pair.text ++ r.1.rest ∧ EndsWord r.1.rest := by
  simp only [elseIf, all, List.foldr_cons, List.foldr_nil, ends, List.mem_flatMap] at hr
  obtain ⟨s, hs, t, ht, u, hu, v, hv, w, hw, hr⟩ := hr
  obtain ⟨hedge, rfl⟩ := mem_ends_edge _ _ _ hs
  obtain ⟨hlast, rfl⟩ := mem_ends_edge _ _ _ hw
  rw [List.mem_singleton.1 hr]
  rw [anyCase_eq] at ht hv
  obtain ⟨first, hfirst, helse⟩ := mem_ends_folded _ (by decide) _ _ _ ht
  obtain ⟨second, hsecond, hif⟩ := mem_ends_folded _ (by decide) _ _ _ hv
  obtain ⟨gap, hgap, hne, hblank⟩ := mem_ends_space _ _ _ hu
  have hpair : IsElseIf first second := ⟨helse, hif⟩
  obtain ⟨⟨hne₁, hword₁⟩, hne₂, hword₂⟩ := hpair.words
  refine ⟨Place.outside_of_atEdge hfirst hne₁ hword₁ hedge,
    ⟨first, ⟨gap, hblank⟩, second, hne, hpair⟩, ?_,
    Place.endsWord_of_atEdge hsecond hne₂ hword₂ hlast⟩
  rw [hfirst.1, hgap.1, hsecond.1, ElsePair.text, List.append_assoc, List.append_assoc]

theorem elseIf_hit (b : Option Char) (hb : b.any Unicode.isWord = false) (pair : ElsePair)
    (post : Line) (hpost : EndsWord post) :
    elseIf.pattern.matchAt ⟨b, pair.text ++ post⟩ = some ⟨b, pair.text, [], post⟩ := by
  obtain ⟨⟨hne₁, hword₁⟩, hne₂, hword₂⟩ := pair.isElseIf.words
  let tail : Line := pair.gap.1 ++ (pair.second ++ post)
  have hline : pair.text ++ post = pair.first ++ tail := by simp [ElsePair.text, tail]
  have hlast := Place.atEdge_behind_word (behind (behind b pair.first) pair.gap.1) pair.second post
    hne₂ hword₂ hpost
  rw [hline, matchAt, elseIf, matchK_all_cons,
    matchK_edge _ _ _ (Place.atEdge_word b pair.first _ hb hne₁ hword₁), matchK_all_cons]
  refine (matchK_folded _ (by decide) b pair.first _ pair.isElseIf.1 _ _).trans ?_
  rw [matchK_all_cons]
  refine (matchK_chars .blank _ pair.gap.1 _ _ _ pair.spaced pair.gap.2
    (ContainerShape.stops_blank_word pair.second post hne₂ hword₂)).trans ?_
  rw [matchK_all_cons]
  refine (matchK_folded _ (by decide) _ pair.second _ pair.isElseIf.2 _ _).trans ?_
  rw [matchK_all_cons, matchK_edge _ _ _ hlast, matchK_all_nil, ← hline, textBetween_left]

theorem elseIf_words (pre rest : Line) (r : Place × List Mark)
    (hr : r ∈ elseIf.pattern.ends ⟨behind none pre, rest⟩ []) :
    ∃ before first between second after,
      words (pre ++ rest) = before ++ first :: (between ++ second :: after) ∧
        IsElseIf first second := by
  obtain ⟨hpre, pair, hrest, hpost⟩ := pair_of_ends _ r hr
  obtain ⟨⟨hne₁, hword₁⟩, hne₂, hword₂⟩ := pair.isElseIf.words
  refine ⟨words pre, pair.first, words pair.gap.1, pair.second, words r.1.rest, ?_, pair.isElseIf⟩
  have hcut : rest = pair.first ++ (pair.gap.1 ++ (pair.second ++ r.1.rest)) := by
    simpa [ElsePair.text] using hrest
  rw [hcut, words_behind _ _ hpre, words_before _ _ (pair.endsWord_gap _),
    words_word pair.first hne₁ hword₁,
    words_behind pair.gap.1 _ (behind_others none _ rfl pair.gap_isWord),
    words_before _ _ hpost, words_word pair.second hne₂ hword₂]
  rfl

theorem words_headerText (type name : Word) :
    words (headerText type.1 name.1) = [type.1, name.1] := by
  rw [headerText, words_append _ _ ' ' (by decide), words_append _ _ '(' (by decide),
    words_word type.1 type.2.1 type.2.2, words_word name.1 name.2.1 name.2.2]
  rfl

theorem elseIf_header_absent (type name : Word) (h : ¬IsElseIf type.1 name.1) :
    elseIf.pattern.Absent (headerText type.1 name.1) := by
  refine absent_of_forall _ _ fun pre rest hline => matchAt_eq_none _ _ fun r hr => ?_
  obtain ⟨before, first, between, second, after, hwords, hpair⟩ := elseIf_words pre rest r hr
  rw [← hline, words_headerText type name] at hwords
  -- Two words leave no room for others around the two that are found.
  have hlength : 2 = before.length + (between.length + (after.length + 1) + 1) := by
    simpa using congrArg List.length hwords
  have hnil : before = [] ∧ between = [] ∧ after = [] := by
    refine ⟨?_, ?_, ?_⟩ <;> apply List.eq_nil_of_length_eq_zero <;> omega
  obtain ⟨rfl, rfl, rfl⟩ := hnil
  obtain ⟨hfirst, hrest⟩ := List.cons.inj hwords
  obtain ⟨hsecond, -⟩ := List.cons.inj hrest
  exact h (hfirst ▸ hsecond ▸ hpair)

theorem elseIf_header_mended (type name : Word) (h : IsElseIf type.1 name.1) :
    elseIf.apply (headerText type.1 name.1) = headerText "else".toList "if".toList := by
  let pair : ElsePair := ⟨type.1, ⟨[' '], blank_space⟩, name.1, by simp, h⟩
  have hline : headerText type.1 name.1 = pair.text ++ ['('] := by
    simp [headerText, pair, ElsePair.text]
  have hm := elseIf_hit none rfl pair ['('] (endsWord_cons '(' [] (by decide))
  have hne : pair.text ≠ [] := by simp [pair, ElsePair.text]
  rw [hline, elseIf.apply_start _ _ _ hm rfl hne (quiet_parenthesis _ (by decide) _)]
  rfl

theorem bareCall_replace (pre name post : Line) (hstart : name.head?.any callStart.mem = true)
    (hname : IsWordText name) (hpre : Quiet bareCall.pattern none pre (bareText name ++ post))
    (hfree : (behind none pre).any isReceiverPart = false)
    (hpost : ∀ b, Quiet bareCall.pattern b post []) :
    bareCall.pattern.replaceUnlessAfter isReceiverPart bareCall.render
        (pre ++ (bareText name ++ post)) =
      pre ++ (bareText (bareCallName name) ++ post) := by
  obtain ⟨h, hm, htext, hrender⟩ :=
    bareCall_hit (behind none pre) ⟨name, ⟨[], blank_nil⟩, hstart, hname⟩ post
  have hsingle := replaceUnlessAfter_single (by decide) isReceiverPart bareCall.render pre
    (bareText name) post h hpre hm htext hfree (hpost _)
  rw [hsingle, hrender]
  rfl

theorem bareCall_header (type name : Line) (htype : IsWordText type)
    (hstart : name.head?.any callStart.mem = true) (hname : IsWordText name) :
    bareCall.pattern.replaceUnlessAfter isReceiverPart bareCall.render (headerText type name) =
      headerText type (bareCallName name) := by
  have hline : ∀ name, headerText type name = (type ++ [' ']) ++ (bareText name ++ []) := by
    simp [headerText, bareText]
  have hfits : Outline.Fits [.one .word, .many .word, .one (.only '(')] (bareText name ++ []) := by
    rw [List.append_nil]
    cases name with
    | nil => exact nomatch hstart
    | cons c name =>
      exact ⟨c, _, rfl, hname c (by simp), fits_bareText fun x hx => hname x (by simp [hx])⟩
  have hquiet : Quiet bareCall.pattern none (type ++ [' ']) (bareText name ++ []) :=
    quiet_of_misses _ none [.many .word, .one (.only ' ')] _ (by decide) none _ _
      (View.knows_none none)
      ((Outline.fits_many .word type htype).append (Outline.fits_lit [' '])) hfits
  rw [hline, bareCall_replace _ name [] hstart hname hquiet (by rw [behind_concat]; decide)
    fun _ => trivial, hline]

theorem bareCallName_if (name : Line) (hname : name.map Char.toLower = "if".toList) :
    bareCallName name = "if".toList := by
  have hkeyword : isKeyword name = true := by
    rw [isKeyword, hname]
    decide
  rw [bareCallName, hkeyword, if_pos rfl, hname]

theorem map_foldCase_name (name : Line) (hname : IsNameText name) :
    name.map foldCase = name.map Char.toLower :=
  List.map_congr_left fun c hc => foldCase_nameChar (hname c hc)

def mendedElse (type name : Line) : Line :=
  if IsElseIf type name then "else".toList else type

theorem standaloneCalls_header (type : Word) (name : Line)
    (hstart : name.head?.any callStart.mem = true) (hname : IsNameText name) :
    standaloneCalls (headerText type.1 name) =
      headerText (mendedElse type.1 name) (bareCallName name) := by
  have hword : IsWordText name := fun c hc => isWord_nameChar (hname c hc)
  have hne : name ≠ [] := by
    rintro rfl
    exact nomatch hstart
  by_cases h : IsElseIf type.1 name
  · have hif : name.map Char.toLower = "if".toList := by
      rw [← map_foldCase_name name hname]
      exact h.2
    rw [standaloneCalls, elseIf_header_mended type ⟨name, hne, hword⟩ h, mendedElse, if_pos h,
      bareCallName_if name hif, bareCall_header _ _ (isWordText_of_all _ (by decide)) (by decide)
        (isWordText_of_all _ (by decide))]
    decide
  · have habsent := elseIf_header_absent type ⟨name, hne, hword⟩ h
    rw [standaloneCalls, elseIf.apply_absent _ habsent, mendedElse, if_neg h,
      bareCall_header type.1 name type.2.2 hstart hword]

theorem standaloneCalls_bare (name : Line) (hstart : name.head?.any callStart.mem = true)
    (hname : IsWordText name) :
    standaloneCalls (bareText name) = bareText (bareCallName name) := by
  have habsent : elseIf.pattern.Absent (bareText name) :=
    absent_of_passes _ _ _ (by decide) (fits_bareText hname)
  rw [standaloneCalls, elseIf.apply_absent _ habsent]
  have hreplace := bareCall_replace [] name [] hstart hname trivial rfl fun _ => trivial
  rwa [List.append_nil, List.append_nil] at hreplace

theorem isReceiverPart_nameChar (c : Char) (h : nameChar.mem c = true) :
    isReceiverPart c = true := by
  have hword := isWord_nameChar h
  have hcode := nameChar_code h
  rw [Unicode.isWord, if_pos hcode] at hword
  rw [isReceiverPart, Unicode.isNamePart, if_pos hcode, hword, Bool.or_true]

/-- The name of a call on a receiver is left to the other rule. -/
theorem standaloneCalls_call (receiver name : Line) (hreceiver : IsWordText receiver)
    (hname : IsNameText name) :
    standaloneCalls (callText receiver name) = callText receiver name := by
  have hword : IsWordText name := fun c hc => isWord_nameChar (hname c hc)
  have habsent : elseIf.pattern.Absent (callText receiver name) :=
    absent_of_passes _ _ _ (by decide) (fits_wordsAround hreceiver hword '.')
  have hline : callText receiver name = (receiver ++ ['.']) ++ bareText name := by
    simp [callText, bareText]
  have hquiet : Quiet bareCall.pattern none (receiver ++ ['.']) (bareText name) :=
    quiet_of_misses _ none [.many .word, .one (.only '.')] _ (by decide) none _ _
      (View.knows_none none)
      ((Outline.fits_many .word receiver hreceiver).append (Outline.fits_lit ['.']))
      (fits_bareText hword)
  have hdot : (behind none (receiver ++ ['.'])).any isReceiverPart = true := by
    rw [behind_concat]
    rfl
  rw [standaloneCalls, elseIf.apply_absent _ habsent, hline]
  apply replaceUnlessAfter_barred (by decide)
  rw [barred_append _ (receiver ++ ['.']), bareText, barred_append _ name, List.append_nil]
  exact ⟨hquiet.barred, barred_of_blocked _ _ _ hdot fun c hc =>
    isReceiverPart_nameChar c (hname c hc), (quiet_parenthesis _ (by decide) _).barred⟩

end Rules

end JvsSharp
