import JvsSharp.Proofs.OverrideRuns

/-!
# Calls on a receiver are cased once

A call on a receiver is a whole word, a dot, a name in lower case and an
opening parenthesis, before which white space may stand. Its parenthesis is
the first one behind its receiver. So of the calls in a line none begins
within another one, and behind a capitalized name no call can be read that was
not there before.
-/

set_option autoImplicit false

namespace JvsSharp
open Pattern

structure MemberCall where
  receiver : Word
  name : Line
  gap : Blanks
  lower : name.head?.any Char.isLower = true
  isWord : IsWordText name

namespace MemberCall

def head (call : MemberCall) : Line := call.receiver.1 ++ '.' :: (call.name ++ call.gap.1)

def text (call : MemberCall) : Line := call.head ++ ['(']

def casedHead (call : MemberCall) : Line :=
  call.receiver.1 ++ '.' :: Casing.capitalizeFirst call.name

def cased (call : MemberCall) : Line := call.casedHead ++ ['(']

end MemberCall

def HoldsMemberCall (line : Line) : Prop :=
  ∃ (pre : Line) (call : MemberCall) (post : Line),
    line = pre ++ (call.text ++ post) ∧ (behind none pre).any Unicode.isWord = false

theorem last_sign_cancel (d : Char) (xs ys tail tail' : Line) (h : d ∉ tail) (h' : d ∉ tail')
    (heq : xs ++ d :: tail = ys ++ d :: tail') : tail = tail' := by
  have hreverse := congrArg List.reverse heq
  rw [List.reverse_append, List.reverse_append, List.reverse_cons, List.reverse_cons,
    List.append_assoc, List.append_assoc, List.singleton_append, List.singleton_append] at hreverse
  have hsame := append_cons_cancel d _ _ _ _ (by simpa using h) (by simpa using h') hreverse
  exact List.reverse_injective hsame

theorem sign_not_mem_word {w : Line} (hw : IsWordText w) (d : Char)
    (hd : Unicode.isWord d = false) : d ∉ w := fun hmem =>
  Bool.false_ne_true (hd.symm.trans (hw d hmem))

theorem sign_not_mem_blanks (g : Blanks) (d : Char) (hd : Unicode.isBlank d = false) :
    d ∉ g.1 := fun hmem => Bool.false_ne_true (hd.symm.trans (g.2 d hmem))

theorem nameChar_of_isLower {c : Char} (h : c.isLower = true) : nameChar.mem c = true := by
  rw [nameChar, CharClass.mem, CharClass.mem, h, Bool.true_or]

theorem not_isBlank_of_isWord {c : Char} (h : Unicode.isWord c = true) :
    Unicode.isBlank c = false := by
  by_contra hblank
  have hword := Unicode.isWord_of_isBlank c (by simpa using hblank)
  exact Bool.false_ne_true (hword.symm.trans h)

def caselessText (line : Line) : Line :=
  (line.filter fun c => !Unicode.isBlank c).map Char.toLower

theorem caselessText_append (xs ys : Line) :
    caselessText (xs ++ ys) = caselessText xs ++ caselessText ys := by
  rw [caselessText, List.filter_append, List.map_append]
  rfl

theorem caselessText_piecewise : Piecewise fun xs ys => caselessText xs = caselessText ys where
  nil := rfl
  char _ := rfl
  append {xs xs' ys ys'} hx hy := by
    rw [caselessText_append, caselessText_append, hx, hy]

/-- A lower-case name and its capitalized form: the first letter is not a lower-case one any
more, and the name is still a word. -/
theorem capitalizeFirst_lower (name : Line) (hstart : name.head?.any Char.isLower = true)
    (hname : IsWordText name) :
    (Casing.capitalizeFirst name).head?.any Char.isLower = false ∧
      IsWordText (Casing.capitalizeFirst name) := by
  cases name with
  | nil => exact absurd hstart Bool.false_ne_true
  | cons c rest =>
    have hc : nameChar.mem c = true := nameChar_of_isLower hstart
    obtain ⟨hupper, hself, -⟩ := nameChar_toUpper hc
    rw [Casing.capitalizeFirst_eq c rest hc]
    refine ⟨(toUpper_eq_self_iff _).1 hself, List.forall_mem_cons.2 ⟨isWord_nameChar hupper, ?_⟩⟩
    exact fun d hd => hname d (by simp [hd])

namespace MemberCall

variable (call : MemberCall)

theorem parenthesis_not_mem_head : '(' ∉ call.head := by
  have hreceiver := sign_not_mem_word call.receiver.2.2 '(' (by decide)
  have hname := sign_not_mem_word call.isWord '(' (by decide)
  have hgap := sign_not_mem_blanks call.gap '(' (by decide)
  simp [head, hreceiver, hname, hgap]

theorem parenthesis_not_mem_casedHead : '(' ∉ call.casedHead := by
  have hreceiver := sign_not_mem_word call.receiver.2.2 '(' (by decide)
  have hname := sign_not_mem_word (capitalizeFirst_lower _ call.lower call.isWord).2 '(' (by decide)
  simp [casedHead, hreceiver, hname]

/-- The text behind the last dot of a capitalized call does not start in lower case, so it does
not end in a call. -/
theorem casedHead_ne (other : MemberCall) (xs ys : Line) :
    xs ++ call.casedHead ≠ ys ++ other.head := by
  obtain ⟨hupper, hword⟩ := capitalizeFirst_lower _ call.lower call.isWord
  have hdot := sign_not_mem_word hword '.' (by decide)
  have hdot' : '.' ∉ other.name ++ other.gap.1 := by
    have hname := sign_not_mem_word other.isWord '.' (by decide)
    have hgap := sign_not_mem_blanks other.gap '.' (by decide)
    simp [hname, hgap]
  intro heq
  rw [casedHead, head, ← List.append_assoc, ← List.append_assoc] at heq
  have hname := last_sign_cancel '.' _ _ _ _ hdot hdot' heq
  have hlower := other.lower
  cases hother : other.name with
  | nil => simp [hother] at hlower
  | cons c rest =>
    rw [hother] at hlower
    rw [hname, hother] at hupper
    exact Bool.false_ne_true (hupper.symm.trans hlower)

theorem caselessText_cased : caselessText call.cased = caselessText call.text := by
  have hgap : caselessText call.gap.1 = [] := by
    rw [caselessText, List.filter_eq_nil_iff.2 fun c hc => by simp [call.gap.2 c hc]]
    rfl
  have hname : caselessText (Casing.capitalizeFirst call.name) = caselessText call.name := by
    have hlower := call.lower
    cases hcall : call.name with
    | nil => rfl
    | cons c rest =>
      rw [hcall] at hlower
      have hc := nameChar_of_isLower hlower
      have hblank := not_isBlank_of_isWord (isWord_nameChar hc)
      have hblank' := not_isBlank_of_isWord (isWord_nameChar (nameChar_toUpper hc).1)
      rw [Casing.capitalizeFirst_eq c rest hc]
      simp [caselessText, hblank, hblank', (nameChar_toUpper hc).2.2.1]
  have hdot : ∀ name : Line, call.receiver.1 ++ '.' :: name = call.receiver.1 ++ (['.'] ++ name) :=
    fun _ => rfl
  rw [cased, casedHead, text, head, hdot, hdot]
  simp only [caselessText_append, hname, hgap, List.append_nil]

end MemberCall

namespace Rules

theorem memberCall_found (b : Option Char) (hb : b.any Unicode.isWord = false) (call : MemberCall)
    (post : Line) :
    ∃ h, memberCall.pattern.matchAt ⟨b, call.text ++ post⟩ = some h ∧ h.text = call.text ∧
      memberCall.render h = call.cased := by
  obtain ⟨h, hm, htext, hfirst, hsecond⟩ := memberCall_hit b call.receiver.1 call.name call.gap
    post hb call.receiver.2.1 call.receiver.2.2 call.lower call.isWord
  refine ⟨h, ?_, ?_, ?_⟩
  · simpa [MemberCall.text, MemberCall.head] using hm
  · simpa [MemberCall.text, MemberCall.head] using htext
  · simp [Edit.render, memberCall, Part.render, hfirst, hsecond, MemberCall.cased,
      MemberCall.casedHead]

theorem call_of_ends (c : Place) (r : Place × List Mark) (h : r ∈ memberCall.pattern.ends c []) :
    c.before.any Unicode.isWord = false ∧ ∃ call : MemberCall, c.rest = call.text ++ r.1.rest := by
  simp only [memberCall, mem_ends_all_cons] at h
  obtain ⟨s, hs, t, ht, u, hu, v, hv, w, hw, hr⟩ := h
  rw [ends, List.mem_map] at hs hu
  obtain ⟨s, hs, rfl⟩ := hs
  obtain ⟨u, hu, rfl⟩ := hu
  obtain ⟨hedge, hs, -⟩ := (mem_ends_wholeWord word c [] s).1 hs
  obtain ⟨receiver, hne, hreceiver, hleads, -⟩ := mem_ends_chars .word c [] s hs
  have hdot := mem_ends_text ['.'] _ _ t ht
  obtain ⟨name, hname, hstart, hword⟩ := mem_ends_name .lower rfl _ _ u hu
  obtain ⟨gap, hgap⟩ := mem_ends_gap _ _ v hv
  have hopen := mem_ends_text ['('] _ _ w hw
  have hend : r = w := List.mem_singleton.1 hr
  refine ⟨Place.outside_of_atEdge hleads hne hreceiver hedge,
    ⟨⟨receiver, hne, hreceiver⟩, name, gap, hstart, hword⟩, ?_⟩
  rw [hleads.1, hdot.1, hname.1, hend, show u.1.rest = gap.1 ++ v.1.rest from hgap, hopen.1]
  simp [MemberCall.text, MemberCall.head]

/-- A match is a call, and the capitalized call takes its place. -/
theorem call_of_matchAt (b : Option Char) (text : Line) (h : Hit)
    (hm : memberCall.pattern.matchAt ⟨b, text⟩ = some h) :
    ∃ call : MemberCall, h.text = call.text ∧ memberCall.render h = call.cased := by
  refine hit_of_ends _ _ (fun h => ∃ call : MemberCall, h.text = call.text ∧
    memberCall.render h = call.cased) (fun r hr => ?_) h hm
  obtain ⟨hb, call, htext⟩ := call_of_ends _ r hr
  obtain ⟨g, hg, hform⟩ := memberCall_found b hb call r.1.rest
  have hplace : text = call.text ++ r.1.rest := htext
  exact ⟨g, hplace ▸ hg, call, hform⟩

section
variable {b : Option Char} {line line' : Line}
  (h : memberCall.pattern.Replaced memberCall.render b line line')
include h

/-- A text up to the first parenthesis of the result was there before, or it ends in a
capitalized call. -/
theorem before_first_parenthesis (xs rest : Line) (hxs : '(' ∉ xs)
    (hline : line' = xs ++ '(' :: rest) :
    (∃ rest', line = xs ++ '(' :: rest') ∨
      ∃ (ys : Line) (call : MemberCall), xs = ys ++ call.casedHead := by
  induction h generalizing xs with
  | nil b => exact absurd hline (by simp)
  | keep hm hrest ih =>
    cases xs with
    | nil =>
      rw [List.nil_append, List.cons.injEq] at hline
      exact .inl ⟨_, by rw [hline.1, List.nil_append]⟩
    | cons x xs =>
      rw [List.cons_append, List.cons.injEq] at hline
      obtain ⟨rfl, hline⟩ := hline
      rcases ih xs (fun hmem => hxs (by simp [hmem])) hline with ⟨rest', heq⟩ | ⟨ys, call, heq⟩
      · exact .inl ⟨rest', congrArg (_ :: ·) heq⟩
      · exact .inr ⟨_ :: ys, call, congrArg (_ :: ·) heq⟩
  | hit hm hrest ih =>
    obtain ⟨call, -, hrender⟩ := call_of_matchAt _ _ _ hm
    rw [hrender, MemberCall.cased, List.append_assoc] at hline
    have hhead := append_cons_cancel '(' _ _ _ _ call.parenthesis_not_mem_casedHead hxs hline
    exact .inr ⟨[], call, hhead.symm⟩

/-- Replacing the calls leaves none behind: where one could be read the receiver is no whole
word. -/
theorem memberCall_leaves_none (pre : Line) (call : MemberCall) (post : Line)
    (hline : line' = pre ++ (call.text ++ post)) : (behind b pre).any Unicode.isWord = true := by
  induction h generalizing pre with
  | nil b => simp [MemberCall.text] at hline
  | @keep b c rest rest' hm hrest ih =>
    cases pre with
    | cons x pre =>
      rw [List.cons_append, List.cons.injEq] at hline
      obtain ⟨rfl, hline⟩ := hline
      exact ih pre hline
    | nil =>
      rw [List.nil_append, MemberCall.text, List.append_assoc] at hline
      rcases before_first_parenthesis (.keep hm hrest) call.head post
        call.parenthesis_not_mem_head hline with ⟨post', hkept⟩ | ⟨ys, other, hcased⟩
      · by_contra hout
        have hb : b.any Unicode.isWord = false := by simpa [behind] using hout
        obtain ⟨hit, hfound, -⟩ := memberCall_found b hb call post'
        rw [MemberCall.text, List.append_assoc, List.singleton_append, ← hkept, hm] at hfound
        exact Option.some_ne_none hit hfound.symm
      · exact absurd hcased.symm (other.casedHead_ne call ys [])
  | @hit b g rest' hm hrest ih =>
    obtain ⟨first, htext, hrender⟩ := call_of_matchAt _ _ _ hm
    rw [hrender, MemberCall.cased, List.append_assoc, List.singleton_append] at hline
    by_cases hmem : '(' ∈ pre
    · -- The call stands behind the parenthesis of the capitalized one.
      obtain ⟨us, vs, rfl, hus⟩ := List.eq_append_cons_of_mem hmem
      rw [List.append_assoc, List.cons_append] at hline
      have hhead := append_cons_cancel '(' _ _ _ _ first.parenthesis_not_mem_casedHead hus hline
      rw [hhead, List.append_cancel_left_eq, List.cons.injEq] at hline
      have hrest' := ih vs hline.2
      rw [htext, MemberCall.text, behind_concat] at hrest'
      rw [behind_append]
      exact hrest'
    · -- The call would have the parenthesis of the capitalized one.
      have hhead : first.casedHead = pre ++ call.head := by
        refine append_cons_cancel '(' _ _ rest' post first.parenthesis_not_mem_casedHead ?_ ?_
        · simp [hmem, call.parenthesis_not_mem_head]
        · rw [hline, MemberCall.text]
          simp
      exact absurd hhead (first.casedHead_ne call [] pre)

end

theorem memberCall_absent (line : Line) (h : ¬HoldsMemberCall line) :
    memberCall.pattern.Absent line := by
  refine absent_of_forall _ line fun pre rest hline => matchAt_eq_none _ _ fun r hr => ?_
  obtain ⟨hout, call, hrest⟩ := call_of_ends _ r hr
  exact h ⟨pre, call, r.1.rest, by rw [hline, ← hrest], hout⟩

theorem caselessText_callCasing (line : Line) :
    caselessText (callCasing line) = caselessText line := by
  refine (replaceAll_piecewise caselessText_piecewise (fun c h hm => ?_) line).symm
  obtain ⟨call, htext, hrender⟩ := call_of_matchAt c.before c.rest h hm
  rw [htext, hrender]
  exact call.caselessText_cased.symm

/-- In the result of casing no call is left to be cased, so casing it again changes nothing. A
line is left as it is only if there is no call in it, and otherwise only the case of letters and
white space are changed. -/
theorem member_calls_cased_in_one_pass (line : Line) :
    ¬HoldsMemberCall (callCasing line) ∧ callCasing (callCasing line) = callCasing line ∧
      (callCasing line = line ↔ ¬HoldsMemberCall line) ∧
      caselessText (callCasing line) = caselessText line := by
  have hnone : ¬HoldsMemberCall (callCasing line) := by
    rintro ⟨pre, call, post, hline, hout⟩
    have hword := memberCall_leaves_none (memberCall.replaced (by decide) line) pre call post hline
    exact Bool.false_ne_true (hout.symm.trans hword)
  have hkeep : ∀ line, ¬HoldsMemberCall line → callCasing line = line := fun line hline =>
    memberCall.apply_absent line (memberCall_absent line hline)
  exact ⟨hnone, hkeep _ hnone, ⟨fun heq => heq ▸ hnone, hkeep line⟩, caselessText_callCasing line⟩

end Rules

end JvsSharp
