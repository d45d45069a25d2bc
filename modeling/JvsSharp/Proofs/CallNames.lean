import JvsSharp.Proofs.GuardedPass
import JvsSharp.Proofs.Phrases

/-!
# Names of calls on a receiver

The name of a call on a receiver is capitalized where it stands. Seen as a
bare call it is refused: a dot precedes it, and a part of a name precedes
every later character of it.
-/

set_option autoImplicit false

namespace JvsSharp
open Pattern

theorem Edit.apply_start (e : Edit) (mid post : Line) (h : Hit)
    (hm : e.pattern.matchAt ⟨none, mid ++ post⟩ = some h) (htext : h.text = mid) (hne : mid ≠ [])
    (hpost : Quiet e.pattern (behind none mid) post []) :
    e.apply (mid ++ post) = e.render h ++ post := by
  have hsingle := replaceAll_single e.pattern e.render [] mid post h trivial hm htext hne hpost
  rwa [List.nil_append, List.nil_append] at hsingle

def Shape.isDottedCall (before : Shape) (name : String) (after : Shape) : Bool :=
  name.toList.all Rules.isReceiverPart &&
    Rules.bareCall.pattern.misses none (before ++ [some "."]).outline
      (Shape.outline (some name :: after)) &&
    Rules.bareCall.pattern.misses none after.outline [] &&
    Rules.elseIf.pattern.passes (before ++ some "." :: some name :: after).outline

namespace Rules

/-- An argument that is a name goes up to its closing parenthesis. -/
theorem matchK_argument {α : Type} (n : Identifier) (b : Option Char) (rest : Line)
    (m : List Mark) (f : Place → List Mark → Option α) (i : Nat) :
    (Pattern.group i argument).matchK ⟨b, n.text ++ ')' :: rest⟩ m f =
      f ⟨behind b n.text, ')' :: rest⟩ (⟨i, n.text ++ ')' :: rest, ')' :: rest⟩ :: m) := by
  have hno : ∀ x ∈ n.text, (CharClass.except [')']).mem x = true := by
    intro x hx
    have hne : x ≠ ')' := by
      rintro rfl
      exact absurd (n.isWordText ')' hx) (by decide)
    simpa [CharClass.mem] using hne
  exact matchK_chars (.except [')']) b n.text _ m _ n.ne hno (stops_cons _ ')' _ (by decide))

theorem matchK_memberName {α : Type} (b : Option Char) (m : List Mark)
    (f : Place → List Mark → Option α) (name rest : Line)
    (hstart : name.head?.any Char.isLower = true) (hname : IsWordText name)
    (hrest : Stops .word rest) :
    memberName.matchK ⟨b, name ++ rest⟩ m f = f ⟨behind b name, rest⟩ m := by
  cases name with
  | nil => exact nomatch hstart
  | cons c name =>
    have hc : CharClass.lower.mem c = true := hstart
    have hspan := matchK_span .word (some c) name rest m f (fun x hx => hname x (by simp [hx]))
      hrest
    simp only [memberName, matchK_all_cons, matchK_all_nil, matchK, List.cons_append, hc, if_true]
      at hspan ⊢
    exact hspan

theorem memberCall_hit (b : Option Char) (receiver name : Line) (blanks : Blanks) (post : Line)
    (hb : b.any Unicode.isWord = false) (hne : receiver ≠ []) (hreceiver : IsWordText receiver)
    (hstart : name.head?.any Char.isLower = true) (hname : IsWordText name) :
    ∃ h, memberCall.pattern.matchAt ⟨b, receiver ++ '.' :: (name ++ (blanks.1 ++ '(' :: post))⟩ =
        some h ∧ h.text = receiver ++ '.' :: (name ++ (blanks.1 ++ ['('])) ∧
      h.group 1 = receiver ∧ h.group 2 = name := by
  let tail : Line := blanks.1 ++ '(' :: post
  let call : Line := name ++ tail
  refine ⟨⟨b, receiver ++ '.' :: (name ++ (blanks.1 ++ ['('])),
    [⟨2, call, tail⟩, ⟨1, receiver ++ '.' :: call, '.' :: call⟩], post⟩, ?_, rfl, ?_, ?_⟩
  · have hlast : (⟨behind b receiver, '.' :: call⟩ : Place).atEdge = true := by
      rw [Place.atEdge, behind_word b receiver hreceiver hne]
      rfl
    have hword : Stops .word tail :=
      TypeExpr.endsWord_blanks blanks _ (endsWord_cons '(' _ (by decide))
    have htext : receiver ++ '.' :: call =
        (receiver ++ '.' :: (name ++ (blanks.1 ++ ['(']))) ++ post := by
      simp [call, tail]
    rw [matchAt, memberCall, matchK_all_cons, matchK, wholeWord, matchK_all_cons,
      matchK_edge _ _ _ (Place.atEdge_word b receiver _ hb hne hreceiver), matchK_all_cons]
    refine (matchK_chars .word _ receiver _ _ _ hne hreceiver
      (stops_cons _ '.' _ (by decide))).trans ?_
    rw [matchK_all_cons, matchK_edge _ _ _ hlast, matchK_all_nil, matchK_all_cons]
    refine (matchK_char '.' _ _ _ _).trans ?_
    rw [matchK_all_cons, matchK]
    refine (matchK_memberName _ _ _ name _ hstart hname hword).trans ?_
    rw [matchK_all_cons, gap]
    refine (matchK_span .blank _ blanks.1 _ _ _ blanks.2 (stops_cons _ '(' _ (by decide))).trans ?_
    rw [matchK_all_cons]
    refine (matchK_char '(' _ _ _ _).trans ?_
    rw [matchK_all_nil]
    simp only [call, tail] at htext
    rw [htext, textBetween_left]
  · simp [Hit.group, Mark.text, textBetween_left]
  · exact textBetween_left name tail

theorem callCasing_call (pre receiver name post : Line)
    (hpre : (behind none pre).any Unicode.isWord = false) (hne : receiver ≠ [])
    (hreceiver : IsWordText receiver) (hstart : name.head?.any Char.isLower = true)
    (hname : IsWordText name)
    (hbefore : Quiet memberCall.pattern none pre (receiver ++ '.' :: (name ++ '(' :: post)))
    (hafter : Quiet memberCall.pattern (some '(') post []) :
    callCasing (pre ++ (receiver ++ '.' :: (name ++ '(' :: post))) =
      pre ++ (receiver ++ '.' :: (Casing.capitalizeFirst name ++ '(' :: post)) := by
  obtain ⟨h, hmatch, htext, hfirst, hsecond⟩ :=
    memberCall_hit (behind none pre) receiver name ⟨[], blank_nil⟩ post hpre hne hreceiver hstart
      hname
  have hline : receiver ++ '.' :: (name ++ '(' :: post) =
      (receiver ++ '.' :: (name ++ ['('])) ++ post := by simp
  have hlast : behind (behind none pre) (receiver ++ '.' :: (name ++ ['('])) = some '(' := by
    rw [behind_append]
    exact behind_concat _ ('.' :: name) '('
  simp only [List.nil_append] at hmatch htext
  rw [hline] at hbefore hmatch ⊢
  rw [callCasing, Edit.apply, replaceAll_single memberCall.pattern memberCall.render pre _ post h
    hbefore hmatch htext (by simp) (by rwa [hlast])]
  simp [Edit.render, memberCall, Part.render, hfirst, hsecond]

theorem callCasing_phrase (before : List Token) (receiver : Token) (name renamed : String)
    (after : List Token) (hout : (behind none (phrase before)).any Unicode.isWord = false)
    (hreceiver : receiver.line ≠ [] ∧ IsWordText receiver.line)
    (hname : name.toList.head?.any Char.isLower = true ∧ name.toList.all Unicode.isWord = true)
    (hrenamed : renamed.toList = Casing.capitalizeFirst name.toList)
    (hbefore : memberCall.pattern.misses none (shape before).outline
      (shape (receiver :: "." :: name :: "(" :: after)).outline = true)
    (hafter : memberCall.pattern.misses none (shape after).outline [] = true) :
    callCasing (phrase (before ++ receiver :: "." :: name :: "(" :: after)) =
      phrase (before ++ receiver :: "." :: renamed :: "(" :: after) := by
  have hquiet := quiet_of_misses _ none _ _ hbefore none _ _ (View.knows_none none)
    (fits_phrase before) (fits_phrase (receiver :: "." :: name :: "(" :: after))
  have hquiet' := quiet_of_misses _ none _ _ hafter (some '(') _ _ (View.knows_none _)
    (fits_phrase after) rfl
  have hline : ∀ called : String, phrase (before ++ receiver :: "." :: called :: "(" :: after) =
      phrase before ++ (receiver.line ++ '.' :: (called.toList ++ '(' :: phrase after)) :=
    fun _ => phrase_append before _
  rw [hline, hline, hrenamed]
  exact callCasing_call _ _ _ _ hout hreceiver.1 hreceiver.2 hname.1
    (isWordText_of_all _ hname.2) hquiet hquiet'

theorem standaloneCalls_dotted (before : List Token) (name : String) (after : List Token)
    (h : (shape before).isDottedCall name (shape after) = true) :
    standaloneCalls (phrase (before ++ .text "." :: .text name :: after)) =
      phrase (before ++ .text "." :: .text name :: after) := by
  rw [Shape.isDottedCall, Bool.and_eq_true, Bool.and_eq_true, Bool.and_eq_true] at h
  obtain ⟨⟨⟨hname, hbefore⟩, hafter⟩, helse⟩ := h
  let dotted : List Token := before ++ [.text "."]
  let call : List Token := .text name :: after
  have hshape : shape before ++ [some "."] = shape dotted := (shape_append before [.text "."]).symm
  have hshape' : shape before ++ some "." :: some name :: shape after = shape (dotted ++ call) := by
    simp [dotted, call, shape, Token.fixed]
  have hline : phrase (before ++ .text "." :: .text name :: after) = phrase (dotted ++ call) := by
    simp [dotted, call]
  have hcall : phrase (dotted ++ call) = phrase dotted ++ (name.toList ++ phrase after) :=
    phrase_append dotted call
  have hdot : (behind none (phrase dotted)).any isReceiverPart = true := by
    rw [phrase_append, behind_append]
    rfl
  rw [hshape] at hbefore
  rw [hshape'] at helse
  have habsent := absent_of_passes _ _ _ helse (fits_phrase _)
  have hquiet := quiet_of_misses _ none _ _ hbefore none _ _ (View.knows_none none)
    (fits_phrase dotted) (fits_phrase call)
  have hquiet' : ∀ b, Quiet bareCall.pattern b (phrase after) [] := fun b =>
    quiet_of_misses _ none _ _ hafter b _ _ (View.knows_none b) (fits_phrase after) rfl
  rw [hline, standaloneCalls, elseIf.apply_absent _ habsent, hcall]
  refine replaceUnlessAfter_barred (by decide) _ _ ?_
  rw [barred_append, barred_append, List.append_nil]
  exact ⟨hquiet.barred, barred_of_blocked _ _ _ hdot (List.all_eq_true.1 hname),
    (hquiet' _).barred⟩

end Rules

end JvsSharp
