import JvsSharp.Proofs.ElsePairs
import JvsSharp.Proofs.LetterCase
import JvsSharp.Proofs.MemberCalls

/-!
# Bare calls are settled by one application

Casing a name twice is casing it once, and the case of a letter decides
neither where a bare call stands nor where an `else` has its `if`. So the
result of the rule is settled: every name before a parenthesis is a keyword in
lower case or cased in all its segments, and every pair reads `else if`. A
settled line is what the rule leaves as it is.
-/

set_option autoImplicit false

namespace JvsSharp.Rules
open Pattern

def BareCall.IsCased (call : BareCall) : Prop :=
  if isKeyword call.name then call.name.map Char.toLower = call.name
  else Casing.pascal call.name = call.name

structure IsSettled (line : Line) : Prop where
  calls : ∀ (pre : Line) (call : BareCall) (post : Line), line = pre ++ (call.text ++ post) →
    (behind none pre).any isReceiverPart = false → call.IsCased
  pairs : PairsMended none line

theorem BareCall.isCased_iff (call : BareCall) :
    call.IsCased ↔ bareCallName call.name = call.name := by
  rw [IsCased, bareCallName]
  split <;> rfl

theorem isKeyword_of_letters (v w : Line) (h : SameLetters v w) : isKeyword w = isKeyword v := by
  rw [isKeyword, isKeyword, h]

theorem bareCallName_twice (w : Line) (hw : IsNameText w) :
    bareCallName (bareCallName w) = bareCallName w := by
  obtain ⟨hname, hletters⟩ := bareCallName_letters w hw
  rw [bareCallName, isKeyword_of_letters _ _ hletters]
  by_cases hkeyword : isKeyword w = true
  · rw [if_pos hkeyword, hletters, bareCallName, if_pos hkeyword]
  · rw [if_neg hkeyword, bareCallName, if_neg hkeyword, Casing.pascal_eq w hw,
      Casing.pascal_eq _ (Casing.isNameText_upperInitials true w hw),
      Casing.upperInitials_idempotent true w hw]

theorem bareCall_of_ends (c : Place) (r : Place × List Mark)
    (h : r ∈ bareCall.pattern.ends c []) : ∃ call : BareCall, c.rest = call.text ++ r.1.rest := by
  simp only [bareCall, mem_ends_all_cons] at h
  obtain ⟨s, hs, t, ht, u, hu, hr⟩ := h
  rw [ends, List.mem_map] at hs ht
  obtain ⟨s, hs, rfl⟩ := hs
  obtain ⟨t, ht, rfl⟩ := ht
  obtain ⟨name, hleads, hstart, hname⟩ := mem_ends_name callStart (by decide) _ _ s hs
  obtain ⟨gap, hgap⟩ := mem_ends_gap _ _ t ht
  have hopen := mem_ends_text ['('] _ _ u hu
  have hend : r = u := List.mem_singleton.1 hr
  refine ⟨⟨name, gap, hstart, hname⟩, ?_⟩
  rw [hleads.1, hend, show s.1.rest = gap.1 ++ t.1.rest from hgap, hopen.1]
  simp [BareCall.text]

theorem bareCall_of_matchAt (b : Option Char) (text : Line) (h : Hit)
    (hm : bareCall.pattern.matchAt ⟨b, text⟩ = some h) :
    ∃ call : BareCall, h.text = call.text ∧ bareCall.render h = call.cased := by
  refine hit_of_ends _ _ (fun h => ∃ call : BareCall, h.text = call.text ∧
    bareCall.render h = call.cased) (fun r hr => ?_) h hm
  obtain ⟨call, htext⟩ := bareCall_of_ends _ r hr
  obtain ⟨g, hg, hform⟩ := bareCall_hit b call r.1.rest
  have hplace : text = call.text ++ r.1.rest := htext
  exact ⟨g, hplace ▸ hg, call, hform⟩

namespace BareCall

variable (call : BareCall)

theorem ne : call.name ≠ [] := by
  intro hnil
  have hstart := call.start
  rw [hnil] at hstart
  exact nomatch hstart

theorem opens (post : Line) :
    ∃ v tail, call.text ++ post = v :: tail ∧ Unicode.isWord v = true := by
  have hword := call.isWord
  cases hname : call.name with
  | nil => exact absurd hname call.ne
  | cons v more =>
    rw [hname] at hword
    exact ⟨v, more ++ (call.gap.1 ++ '(' :: post), by simp [text, hname], hword v (by simp)⟩

theorem endsWord_gap (rest : Line) : EndsWord ((call.gap.1 ++ ['(']) ++ rest) := by
  rw [List.append_assoc]
  exact TypeExpr.endsWord_blanks call.gap _ (endsWord_cons '(' rest (by decide))

theorem isNameText (h : IsAscii call.text) : IsNameText call.name :=
  isNameText_of_ascii call.name ((isAscii_append _ _).1 h).1 call.isWord

theorem keepsLetters : KeepsLetters call.text call.cased := by
  intro h
  obtain ⟨hname, hletters⟩ := bareCallName_letters call.name (call.isNameText h)
  have hrest := ((isAscii_append _ _).1 h).2
  exact ⟨(isAscii_append _ _).2 ⟨isAscii_of_name _ hname, hrest⟩, hletters.append (.refl _)⟩

/-- A word character of a cased call that does not stand at its start has a part of the name
before it. -/
theorem inside_name (h : IsAscii call.text) (us vs : Line) (v : Char)
    (hcut : call.cased = us ++ v :: vs) (hne : us ≠ []) (hv : Unicode.isWord v = true) :
    ∃ d, behind none us = some d ∧ nameChar.mem d = true := by
  have hname := (bareCallName_letters call.name (call.isNameText h)).1
  have hsigns : v ∉ call.gap.1 ++ ['('] := by
    intro hmem
    rcases List.mem_append.1 hmem with hgap | hopen
    · exact Bool.false_ne_true ((not_isBlank_of_isWord hv).symm.trans (call.gap.2 v hgap))
    · rw [List.mem_singleton.1 hopen] at hv
      exact absurd hv (by decide)
  rw [cased] at hcut
  rcases List.append_eq_append_iff.1 hcut with ⟨more, -, hrest⟩ | ⟨more, hcased, hrest⟩
  · exact absurd (hrest ▸ by simp) hsigns
  · cases more with
    | nil => exact absurd (show v ∈ call.gap.1 ++ ['('] from hrest ▸ by simp) hsigns
    | cons x more =>
      rcases List.eq_nil_or_concat us with rfl | ⟨us, d, rfl⟩
      · exact absurd rfl hne
      · rw [List.concat_eq_append] at hcased ⊢
        exact ⟨d, behind_concat none us d, hname d (by rw [hcased]; simp)⟩

end BareCall

theorem bareCall_of_letters (xs : Line) (call : BareCall) (post : Line) (hxs : IsAscii xs)
    (hcall : IsAscii (call.text ++ post)) (h : SameLetters xs (call.text ++ post)) :
    ∃ (call₀ : BareCall) (post₀ : Line), xs = call₀.text ++ post₀ := by
  obtain ⟨text₀, post₀, rfl, htext, -⟩ := h.cut call.text post
  obtain ⟨name₀, rest₀, rfl, hname, hrest⟩ := htext.cut call.name _
  obtain ⟨gap₀, open₀, rfl, hgap, hopen⟩ := hrest.cut call.gap.1 ['(']
  simp only [BareCall.text, isAscii_append] at hcall hxs
  obtain ⟨⟨hname₁, hgap₁, hopen₁⟩, -⟩ := hcall
  obtain ⟨⟨hname₂, hgap₂, hopen₂⟩, -⟩ := hxs
  have hstart := CaseFree.callStart.head_any hname₂ hname₁ hname
  have hword := CaseFree.isWord.forall_mem hname₂ hname₁ hname call.isWord
  have hblank := CaseFree.isBlank.forall_mem hgap₂ hgap₁ hgap call.gap.2
  have hsign := CaseFree.parenthesis.forall_mem hopen₂ hopen₁ hopen (by simp)
  refine ⟨⟨name₀, ⟨gap₀, hblank⟩, hstart ▸ call.start, hword⟩, post₀, ?_⟩
  have hparenthesis : open₀ = ['('] := by
    obtain ⟨x, rfl⟩ := List.length_eq_one_iff.1 hopen.length.symm
    rw [beq_iff_eq.1 (hsign x (by simp))]
  rw [hparenthesis]
  rfl

theorem elsePair_of_letters (xs : Line) (pair : ElsePair) (post : Line) (hxs : IsAscii xs)
    (hpair : IsAscii (pair.text ++ post)) (h : SameLetters xs (pair.text ++ post))
    (hpost : EndsWord post) :
    ∃ (pair₀ : ElsePair) (post₀ : Line), xs = pair₀.text ++ post₀ ∧ EndsWord post₀ ∧
      pair₀.text.length = pair.text.length := by
  obtain ⟨text₀, post₀, rfl, htext, hrest⟩ := h.cut pair.text post
  obtain ⟨first₀, tail₀, rfl, hfirst, htail⟩ := htext.cut pair.first _
  obtain ⟨gap₀, second₀, rfl, hgap, hsecond⟩ := htail.cut pair.gap.1 pair.second
  simp only [ElsePair.text, isAscii_append] at hpair hxs
  obtain ⟨⟨hfirst₁, hgap₁, hsecond₁⟩, hpost₁⟩ := hpair
  obtain ⟨⟨hfirst₂, hgap₂, hsecond₂⟩, hpost₂⟩ := hxs
  have hblank := CaseFree.isBlank.forall_mem hgap₂ hgap₁ hgap pair.gap.2
  have hspaced : gap₀ ≠ [] := by
    rintro rfl
    exact pair.spaced (List.eq_nil_of_length_eq_zero hgap.length)
  have helse : IsElseIf first₀ second₀ := by
    obtain ⟨helse, hif⟩ := pair.isElseIf
    rw [map_foldCase_ascii _ hfirst₁, hfirst] at helse
    rw [map_foldCase_ascii _ hsecond₁, hsecond] at hif
    exact ⟨(map_foldCase_ascii _ hfirst₂).trans helse, (map_foldCase_ascii _ hsecond₂).trans hif⟩
  have hends := CaseFree.isWord.head_any hpost₂ hpost₁ hrest
  exact ⟨⟨first₀, ⟨gap₀, hblank⟩, second₀, hspaced, helse⟩, post₀, rfl, hends.symm.trans hpost,
    htext.length.symm⟩

abbrev Called (b : Option Char) (line line' : Line) : Prop :=
  bareCall.pattern.Guarded isReceiverPart bareCall.render b line line'

theorem called_apply (line : Line) :
    Called none line (bareCall.pattern.replaceUnlessAfter isReceiverPart bareCall.render line) :=
  guarded_replaceUnlessAfter (by decide) line

section
variable {b : Option Char} {line line' : Line} (h : Called b line line')
include h

theorem called_keepsLetters : KeepsLetters line line' := by
  refine h.piecewise KeepsLetters.piecewise fun c g hm => ?_
  obtain ⟨call, htext, hrender⟩ := bareCall_of_matchAt c.before c.rest g hm
  rw [htext, hrender]
  exact call.keepsLetters

/-- Where a word starts behind no part of a name, the pass stood. -/
theorem called_cut (hascii : IsAscii line) (starts : Option Char → Char → Prop)
    (hword : ∀ b v, starts b v → Unicode.isWord v = true)
    (hout : ∀ d v, nameChar.mem d = true → ¬starts (some d) v) (pre' : Line) (v : Char)
    (tail' : Line) (hline : line' = pre' ++ v :: tail') (hstart : starts (behind b pre') v) :
    ∃ pre rest, line = pre ++ rest ∧ starts (behind b pre) v ∧
      Called (behind b pre) rest (v :: tail') := by
  refine h.cut starts (fun c g hrest hm us v vs hcut hne hstart => ?_)
    (fun c g _ hm v hstart => ?_) pre' v tail' hline hstart
  · obtain ⟨call, htext, hrender⟩ := bareCall_of_matchAt c.before c.rest g hm
    have hcall : IsAscii call.text := by
      intro x hx
      refine hascii x (hrest.subset ?_)
      rw [← matchAt_text _ c g hm, htext]
      exact List.mem_append_left _ hx
    obtain ⟨d, hd, hname⟩ :=
      call.inside_name hcall us vs v (hrender ▸ hcut) hne (hword _ v hstart)
    rw [hd] at hstart
    exact hout d v hname hstart
  · obtain ⟨call, htext, hrender⟩ := bareCall_of_matchAt c.before c.rest g hm
    have hlast : ∀ xs : Line, behind c.before (xs ++ (call.gap.1 ++ ['('])) = some '(' := by
      intro xs
      rw [← List.append_assoc, behind_concat]
    rw [hrender, BareCall.cased, hlast] at hstart
    rw [htext, BareCall.text, hlast]
    exact hstart

end

theorem called_cased {b : Option Char} {line : Line} (call : BareCall) (post : Line)
    (hfree : b.any isReceiverPart = false) (hascii : IsAscii line)
    (h : Called b line (call.text ++ post)) : call.IsCased := by
  obtain ⟨hascii', hletters⟩ := called_keepsLetters h hascii
  generalize hline' : call.text ++ post = line' at h
  cases h with
  | nil =>
    rw [BareCall.text, List.append_assoc] at hline'
    exact absurd (List.append_eq_nil_iff.1 hline').1 call.ne
  | @keep _ c rest rest' hm hrest =>
    obtain ⟨call₀, post₀, hcall⟩ := bareCall_of_letters _ call post hascii hascii' hletters
    obtain ⟨g, hfound, -⟩ := bareCall_hit b call₀ post₀
    rw [← hcall] at hfound
    rcases hm with hblocked | hnone
    · exact absurd (hfree.symm.trans hblocked) Bool.false_ne_true
    · exact absurd (hfound.symm.trans hnone) (Option.some_ne_none g)
  | @hit _ g rest' _ hm hrest =>
    obtain ⟨taken, htext, hrender⟩ := bareCall_of_matchAt b _ g hm
    rw [htext] at hascii
    have hname := taken.isNameText ((isAscii_append _ _).1 hascii).1
    have hword : IsWordText (bareCallName taken.name) := fun c hc =>
      isWord_nameChar ((bareCallName_letters _ hname).1 c hc)
    rw [hrender, BareCall.text, BareCall.cased, List.append_assoc call.name,
      List.append_assoc (bareCallName taken.name)] at hline'
    have heq := run_unique _ _ _ _ call.isWord hword (call.endsWord_gap post)
      (taken.endsWord_gap rest') hline'
    rw [call.isCased_iff, heq]
    exact bareCallName_twice _ hname

/-- A whole word that casing leaves as it is is kept, be it a call or not. -/
theorem called_word {b : Option Char} (w rest line' : Line) (hne : w ≠ []) (hw : IsNameText w)
    (hrest : EndsWord rest) (hself : bareCallName w = w) (h : Called b (w ++ rest) line') :
    ∃ rest', line' = w ++ rest' ∧ (Called (behind b w) rest rest' ∨
      ∃ (gap : Blanks) (post : Line), rest = gap.1 ++ '(' :: post) := by
  have hword : IsWordText w := fun c hc => isWord_nameChar (hw c hc)
  generalize hline : w ++ rest = line at h
  cases h with
  | nil => exact absurd (List.append_eq_nil_iff.1 hline).1 hne
  | @keep _ c rest₁ rest' hm hkept =>
    cases w with
    | nil => exact absurd rfl hne
    | cons d w =>
      rw [List.cons_append, List.cons.injEq] at hline
      obtain ⟨rfl, rfl⟩ := hline
      -- Behind its first character every match within the word is refused.
      have hbarred : Barred bareCall.pattern isReceiverPart (some d) w rest :=
        barred_of_blocked _ _ _ (isReceiverPart_nameChar d (hw d (by simp)))
          fun x hx => isReceiverPart_nameChar x (hw x (by simp [hx]))
      obtain ⟨rest₂, rfl, h₂⟩ := hkept.of_barred hbarred
      exact ⟨rest₂, rfl, .inl h₂⟩
  | @hit _ g rest' _ hm _ =>
    obtain ⟨call, htext, hrender⟩ := bareCall_of_matchAt b _ g hm
    rw [htext, BareCall.text, List.append_assoc] at hline
    have heq := run_unique _ _ _ _ hword call.isWord hrest (call.endsWord_gap g.after) hline
    refine ⟨(call.gap.1 ++ ['(']) ++ rest', ?_, .inr ⟨call.gap, g.after, ?_⟩⟩
    · rw [hrender, BareCall.cased, ← heq, hself, List.append_assoc]
    · rw [heq] at hline
      simpa using List.append_cancel_left hline

theorem called_keeps_pair {b : Option Char} (post line' : Line) (hpost : EndsWord post)
    (h : Called b (mendedPair ++ post) line') : ∃ post', line' = mendedPair ++ post' := by
  have hkeyword : ∀ w ∈ ["else".toList, "if".toList], w ≠ [] ∧ IsNameText w ∧
      bareCallName w = w := by
    simp only [List.forall_mem_cons, IsNameText]
    decide
  obtain ⟨hne, hname, hself⟩ := hkeyword "else".toList (by simp)
  obtain ⟨hne', hname', hself'⟩ := hkeyword "if".toList (by simp)
  obtain ⟨rest₁, rfl, h₁⟩ := called_word "else".toList (' ' :: ("if".toList ++ post)) line' hne
    hname (endsWord_cons ' ' _ (by decide)) hself h
  rcases h₁ with h₁ | ⟨gap, rest, hcall⟩
  · have hbarred : Barred bareCall.pattern isReceiverPart (some 'e') [' ']
        ("if".toList ++ post) := ⟨.inl (by decide), trivial⟩
    obtain ⟨rest₂, rfl, h₂⟩ := Guarded.of_barred hbarred h₁
    obtain ⟨rest₃, rfl, -⟩ := called_word "if".toList post rest₂ hne' hname' hpost hself' h₂
    exact ⟨rest₃, rfl⟩
  · -- Behind an `else` stands the `if` and no parenthesis.
    have hblank := gap.2
    cases hgap : gap.1 with
    | nil =>
      rw [hgap] at hcall
      exact absurd (List.cons.inj hcall).1 (by decide)
    | cons x more =>
      rw [hgap, List.cons_append, List.cons.injEq] at hcall
      cases more with
      | nil => exact absurd (List.cons.inj hcall.2).1 (by decide)
      | cons y more =>
        have hy : Unicode.isBlank y = true := hblank y (by simp [hgap])
        rw [← (List.cons.inj hcall.2).1] at hy
        exact absurd hy (by decide)

theorem called_pairs {line line' : Line} (hascii : IsAscii line) (h : Called none line line')
    (hpairs : PairsMended none line) : PairsMended none line' := by
  intro pre' pair post' hline' hout hpost
  obtain ⟨v, tail, htext, hv, -⟩ := pair.opens post'
  rw [htext] at hline'
  obtain ⟨pre, rest, rfl, ⟨hout₀, -⟩, hrest⟩ := called_cut h hascii
    (fun b v => b.any Unicode.isWord = false ∧ Unicode.isWord v = true) (fun _ _ hv => hv.2)
    (fun d _ hd hv => Bool.false_ne_true (hv.1.symm.trans (isWord_nameChar hd))) pre' v tail
    hline' ⟨hout, hv⟩
  rw [← htext] at hrest
  have hascii₁ := ((isAscii_append _ _).1 hascii).2
  obtain ⟨hascii₂, hletters⟩ := called_keepsLetters hrest hascii₁
  obtain ⟨pair₀, post₀, hcut, hpost₀, hlength⟩ :=
    elsePair_of_letters rest pair post' hascii₁ hascii₂ hletters hpost
  have hmended := hpairs pre pair₀ post₀ (by rw [hcut]) hout₀ hpost₀
  rw [hcut, hmended] at hrest
  obtain ⟨post₁, heq⟩ := called_keeps_pair post₀ _ hpost₀ hrest
  rw [hmended] at hlength
  exact List.append_inj_left heq hlength.symm

theorem called_calls {line line' : Line} (hascii : IsAscii line) (h : Called none line line')
    (pre' : Line) (call : BareCall) (post' : Line) (hline' : line' = pre' ++ (call.text ++ post'))
    (hfree : (behind none pre').any isReceiverPart = false) : call.IsCased := by
  obtain ⟨v, tail, htext, hv⟩ := call.opens post'
  rw [htext] at hline'
  obtain ⟨pre, rest, rfl, ⟨hfree₀, -⟩, hrest⟩ := called_cut h hascii
    (fun b v => b.any isReceiverPart = false ∧ Unicode.isWord v = true) (fun _ _ hv => hv.2)
    (fun d _ hd hv => Bool.false_ne_true (hv.1.symm.trans (isReceiverPart_nameChar d hd))) pre' v
    tail hline' ⟨hfree, hv⟩
  rw [← htext] at hrest
  exact called_cased call post' hfree₀ ((isAscii_append _ _).1 hascii).2 hrest

theorem isAscii_elseIf (line : Line) (hline : IsAscii line) : IsAscii (elseIf.apply line) := by
  have hpiecewise : Piecewise fun xs ys => IsAscii xs → IsAscii ys := by
    refine ⟨id, fun _ => id, fun hx hy h => ?_⟩
    rw [isAscii_append] at h ⊢
    exact ⟨hx h.1, hy h.2⟩
  have hmended : IsAscii mendedPair := by decide
  exact (mended_apply line).piecewise hpiecewise (fun _ _ _ _ => hmended) hline

theorem settled_standaloneCalls (line : Line) (hline : IsAscii line) :
    IsSettled (standaloneCalls line) where
  calls := called_calls (isAscii_elseIf line hline) (called_apply _)
  pairs := called_pairs (isAscii_elseIf line hline) (called_apply _) (pairs_mended line)

theorem IsSettled.standaloneCalls_eq {line : Line} (h : IsSettled line) :
    standaloneCalls line = line := by
  have helse : elseIf.apply line = line := by
    refine (mended_apply line).eq_self fun pre g hcut _ hm => ?_
    obtain ⟨hout, hpost, pair, htext⟩ := pair_of_matchAt _ _ g hm
    rw [htext] at hcut ⊢
    exact (h.pairs pre pair g.after hcut hout hpost).symm
  rw [standaloneCalls, helse]
  refine (called_apply line).eq_self fun pre g hcut hfree hm => ?_
  obtain ⟨call, htext, hrender⟩ := bareCall_of_matchAt _ _ g hm
  rw [htext] at hcut ⊢
  have hcased := call.isCased_iff.1 (h.calls pre call g.after hcut hfree)
  rw [hrender, BareCall.cased, hcased, BareCall.text]

/-- One application settles an ASCII line: each bare call is a keyword in lower case or cased in
all segments of its name, each `else` with its `if` reads `else if`, and a second application
changes nothing. The lines that the rule leaves as they are are the settled ones. -/
theorem standalone_calls_settle (line : Line) (hline : IsAscii line) :
    IsSettled (standaloneCalls line) ∧
      standaloneCalls (standaloneCalls line) = standaloneCalls line ∧
      (standaloneCalls line = line ↔ IsSettled line) := by
  have hsettled := settled_standaloneCalls line hline
  exact ⟨hsettled, hsettled.standaloneCalls_eq, fun heq => heq ▸ hsettled,
    IsSettled.standaloneCalls_eq⟩

/-- A pair in capitals, a name of two segments, a keyword in capitals and a call on a receiver. -/
theorem mixed_calls_settle :
    IsAscii "ELSE  If (load_all (x)) FOR(a.run());".toList ∧
      standaloneCalls "ELSE  If (load_all (x)) FOR(a.run());".toList =
        "else if (Load_All (x)) for(a.run());".toList ∧
      IsSettled "else if (Load_All (x)) for(a.run());".toList := by
  have hascii : IsAscii "ELSE  If (load_all (x)) FOR(a.run());".toList := by decide
  have hcased : standaloneCalls "ELSE  If (load_all (x)) FOR(a.run());".toList =
      "else if (Load_All (x)) for(a.run());".toList := by decide
  exact ⟨hascii, hcased, hcased ▸ (standalone_calls_settle _ hascii).1⟩

end JvsSharp.Rules
