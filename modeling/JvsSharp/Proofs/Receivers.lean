import JvsSharp.Proofs.KeywordParts

/-!
# Calls on a path of names

Four substitutions take the receiver of a call into what they write. Each of
them looks for one name before the dot, so of a longer path only the last name
is taken and the names before it stay where they were. The upper-case call of
such a path is taken for the cast of an enumeration member besides.
-/

set_option autoImplicit false

namespace JvsSharp
open Pattern

theorem matchK_last_text {α : Type} (cs : List Char) (b : Option Char) (m : List Mark)
    (f : Place → List Mark → Option α) :
    (Pattern.text cs).matchK ⟨b, cs⟩ m f = f ⟨behind b cs, []⟩ m := by
  have htext := matchK_text cs b [] m f
  rwa [List.append_nil] at htext

def dotted (names : List AsciiWord) : Line := names.flatMap fun w => w.1 ++ ['.']

structure Receiver where
  owners : List AsciiWord
  member : AsciiWord

namespace Receiver

def segments (r : Receiver) : List Line := (r.owners ++ [r.member]).map Subtype.val

def text (r : Receiver) : Line := dotted r.owners ++ r.member.1

def call (r : Receiver) (method : String) : Line := r.text ++ '.' :: (method.toList ++ "()".toList)

end Receiver

def pathChar : CharClass := .union alnum (.only '.')

def nameOutline : Outline := [.one alnum, .many alnum]

def methodOutline (method : String) : Outline :=
  Outline.lit ('.' :: (method.toList ++ "()".toList))

def callOutline (method : String) : Outline := .many pathChar :: methodOutline method

theorem AsciiWord.fits (w : AsciiWord) : nameOutline.Fits w.1 := by
  obtain ⟨w, hne, hw⟩ := w
  cases w with
  | nil => exact absurd rfl hne
  | cons c w =>
    exact ⟨c, w, rfl, hw c (by simp), w, [], (List.append_nil w).symm,
      fun d hd => hw d (by simp [hd]), rfl⟩

theorem AsciiWord.path (w : AsciiWord) : ∀ c ∈ w.1, pathChar.mem c = true := fun c hc =>
  Bool.or_eq_true_iff.2 (.inl (w.2.2 c hc))

theorem dotted_path (names : List AsciiWord) : ∀ c ∈ dotted names, pathChar.mem c = true := by
  intro c hc
  obtain ⟨w, -, hc⟩ := List.mem_flatMap.1 hc
  rcases List.mem_append.1 hc with hc | hc
  · exact w.path c hc
  · rw [List.mem_singleton.1 hc]
    rfl

theorem dotted_cons_append (w : AsciiWord) (names : List AsciiWord) (rest : Line) :
    dotted (w :: names) ++ rest = w.1 ++ '.' :: (dotted names ++ rest) := by
  simp [dotted]

theorem dotted_eq_nil_iff (names : List AsciiWord) : dotted names = [] ↔ names = [] := by
  cases names <;> simp [dotted]

theorem dotted_concat (names : List AsciiWord) (last : AsciiWord) :
    dotted (names ++ [last]) = dotted names ++ (last.1 ++ ['.']) := by
  simp [dotted]

theorem dotted_cases (names : List AsciiWord) : dotted names = [] ∨
    Outline.Fits [.many pathChar, .one (.only '.')] (dotted names) := by
  rcases List.eq_nil_or_concat names with rfl | ⟨names, last, rfl⟩
  · exact .inl rfl
  · right
    rw [List.concat_eq_append, dotted_concat, ← List.append_assoc]
    refine (Outline.fits_many pathChar _ fun c hc => ?_).append
      (Outline.fits_one (.only '.') '.' rfl)
    exact (List.mem_append.1 hc).elim (dotted_path names c) (last.path c)

theorem behind_dotted (names : List AsciiWord) :
    (behind none (dotted names)).any Unicode.isWord = false := by
  rcases List.eq_nil_or_concat names with rfl | ⟨names, last, rfl⟩
  · rfl
  · rw [List.concat_eq_append, dotted_concat, ← List.append_assoc, behind_concat]
    decide

theorem words_dotted (names : List AsciiWord) (rest : Line) :
    words (dotted names ++ rest) = names.map Subtype.val ++ words rest := by
  induction names with
  | nil => rfl
  | cons w names ih =>
    rw [dotted_cons_append, words_append _ _ '.' (by decide), words_word w.1 w.2.1 w.isWordText, ih]
    rfl

namespace Receiver

variable (r : Receiver)

theorem text_path : ∀ c ∈ r.text, pathChar.mem c = true := fun c hc =>
  (List.mem_append.1 hc).elim (dotted_path r.owners c) (r.member.path c)

theorem fits_call (method : String) : (callOutline method).Fits (r.call method) :=
  (Outline.fits_many pathChar _ r.text_path).append (Outline.fits_lit _)

theorem call_eq (method : String) : r.call method =
    dotted r.owners ++ (r.member.1 ++ '.' :: (method.toList ++ "()".toList)) :=
  List.append_assoc _ _ _

theorem words_call (method : String) (hne : method.toList ≠ [])
    (hmethod : IsWordText method.toList) :
    words (r.call method) = r.segments ++ [method.toList] := by
  rw [call_eq, show "()".toList = '(' :: [')'] from rfl, words_dotted,
    words_append _ _ '.' (by decide), words_word r.member.1 r.member.2.1 r.member.isWordText,
    words_append _ _ '(' (by decide),
    words_word _ hne hmethod, segments, List.map_append, List.append_assoc]
  rfl

theorem call_opens (method : String) : ∃ (w : AsciiWord) (rest : Line), w.1 ∈ r.segments ∧
    r.call method = w.1 ++ '.' :: rest := by
  obtain ⟨owners, member⟩ := r
  cases owners with
  | nil => exact ⟨member, _, by simp [segments], rfl⟩
  | cons w owners =>
    refine ⟨w, dotted owners ++ (member.1 ++ '.' :: (method.toList ++ "()".toList)),
      by simp [segments], ?_⟩
    rw [call_eq, dotted_cons_append]

end Receiver

def IsTrigger (w : Line) : Prop :=
  w = "final".toList ∨ w = "OCalendarBase".toList ∨ "throws".toList <:+ w ∨
    "length".toList <+: w ∨ "scriptattributes".toList <+: w.map foldCase

instance (w : Line) : Decidable (IsTrigger w) := inferInstanceAs (Decidable (_ ∨ _))

theorem alnum_foldCase (c : Char) (h : alnum.mem c = true) : alnum.mem (foldCase c) = true := by
  have hname : nameChar.mem c = true := by
    simp only [nameChar, alnum, CharClass.mem, Bool.or_eq_true] at h ⊢
    exact h.imp_right (Or.imp_right .inl)
  refine Unicode.forall_ascii (P := fun c => alnum.mem c = true → alnum.mem (foldCase c) = true)
    ?_ c (nameChar_code hname) h
  decide

namespace Plugin

def keywordEdits : List Edit := (Rules.substitutions.drop 8).take 7

theorem substitutions_calls : Rules.substitutions = Rules.parseCalls ++ Rules.upperCall ::
    (keywordEdits ++
      [Rules.isEmptyCall, Rules.scriptBase, Rules.enumCast, Rules.calendarCall,
        Rules.trimCall]) := rfl

theorem applyAll_substitutions (line : Line) : Edit.applyAll Rules.substitutions line =
    Edit.applyAll
      [Rules.isEmptyCall, Rules.scriptBase, Rules.enumCast, Rules.calendarCall, Rules.trimCall]
      (Edit.applyAll keywordEdits
        (Rules.upperCall.apply (Edit.applyAll Rules.parseCalls line))) := by
  rw [substitutions_calls, Edit.applyAll_append, ← List.singleton_append, Edit.applyAll_append,
    Edit.applyAll_append, Edit.applyAll_singleton]

def keywordCalls : List Edit :=
  keywordEdits.take 1 ++ (keywordEdits.drop 2).take 1 ++ keywordEdits.drop 5

theorem keywordEdits_eq : keywordEdits =
    keywordEdits.take 1 ++ Rules.finalWord :: ((keywordEdits.drop 2).take 1 ++
      Rules.throwsClause :: Rules.lengthMember :: keywordEdits.drop 5) := rfl

theorem calendarCall_absent (line : Line) (h : "OCalendarBase".toList ∉ words line) :
    Rules.calendarCall.pattern.Absent line := by
  refine absent_of_forall _ line fun pre rest hline => matchAt_eq_none _ _ fun r hr => ?_
  rw [Rules.calendarCall, mem_ends_all_cons] at hr
  obtain ⟨s, hs, hr⟩ := hr
  obtain ⟨hedge, rfl⟩ := mem_ends_edge _ _ _ hs
  rw [mem_ends_all_cons] at hr
  obtain ⟨t, ht, -⟩ := hr
  rw [ends, List.mem_map] at ht
  obtain ⟨u, hu, -⟩ := ht
  rw [mem_ends_all_cons] at hu
  obtain ⟨v, hv, -⟩ := hu
  have hdot : "OCalendarBase.".toList = "OCalendarBase".toList ++ ['.'] := by decide
  have hcut := (mem_ends_text _ _ _ v hv).1
  rw [hdot, List.append_assoc, List.singleton_append] at hcut
  have hword : IsWordText "OCalendarBase".toList := isWordText_of_all _ (by decide)
  have hleads : Place.Leads ⟨behind none pre, rest⟩ "OCalendarBase".toList
      ⟨behind (behind none pre) "OCalendarBase".toList, '.' :: v.1.rest⟩ := ⟨hcut, rfl⟩
  exact h ((mem_words_iff _ _).2 ⟨pre, '.' :: v.1.rest, hline.trans (congrArg (pre ++ ·) hcut),
    Place.outside_of_atEdge hleads (by decide) hword hedge, by decide, hword,
    endsWord_cons '.' _ (by decide)⟩)

/-- The signs of a call do not follow one of the texts if they never follow its last letter. -/
theorem stops_callSigns (line : Line) (habsent : (all ["h", .one callSigns]).Absent line)
    (pre v rest : Line) (hline : line = pre ++ (v ++ rest)) (hv : v ∈ lengthTexts) :
    Stops callSigns rest := by
  have hlast : ∀ v ∈ lengthTexts, v = v.dropLast ++ ['h'] := by decide
  cases rest with
  | nil => rfl
  | cons c rest =>
    refine stops_cons _ c rest (Bool.eq_false_iff.2 fun hc => ?_)
    have hoccurs : (all ["h", .one callSigns]).occursIn line = true := by
      rw [occursIn_iff]
      refine ⟨pre ++ v.dropLast, 'h' :: c :: rest, ?_, ?_⟩
      · rw [hline, hlast v hv]
        simp
      · rw [matchAt, matchK_all_cons]
        refine (congrArg Option.isSome (matchK_char 'h' _ _ _ _)).trans ?_
        rw [matchK_all_cons, matchK]
        simp [hc, matchK_all_nil]
    rw [occursIn_absent _ _ habsent] at hoccurs
    exact Bool.false_ne_true hoccurs

/-- The substitutions of keywords leave a call on a path of other names alone. -/
theorem keywordEdits_keep (r : Receiver) (method : String)
    (htext : ∀ e ∈ keywordCalls, e.pattern.passes (callOutline method) = true)
    (hsigns : (all ["h", .one callSigns]).passes (callOutline method) = true)
    (hwords : ∀ w ∈ words (r.call method), ¬IsTrigger w) :
    Edit.applyAll keywordEdits (r.call method) = r.call method := by
  have hline := r.fits_call method
  have hkept : ∀ e ∈ keywordCalls, e.apply (r.call method) = r.call method := fun e he =>
    e.apply_absent _ (absent_of_passes _ _ _ (htext e he) hline)
  have hfinal : "final".toList ∉ words (r.call method) := fun hmem => hwords _ hmem (.inl rfl)
  have hthrows : Rules.throwsClause.pattern.Absent (r.call method) :=
    throwsClause_absent _ fun w hw hend => hwords w hw (.inr (.inr (.inl hend)))
  have hlength : Rules.lengthMember.apply (r.call method) = r.call method := by
    rw [lengthMember_apply _ fun pre v rest hcut hv _ _ => ?_]
    · exact mapWords_eq_self _ _ fun w hw => (capitalLength_eq_self_iff w).2 fun hprefix =>
        hwords w hw (.inr (.inr (.inr (.inl hprefix))))
    · exact stops_callSigns _ (absent_of_passes _ _ _ hsigns hline) pre v rest hcut hv
  refine foldl_same _ _ _ fun e he => ?_
  rw [keywordEdits_eq] at he
  simp only [List.mem_append, List.mem_cons] at he
  rcases he with he | rfl | he | rfl | rfl | he
  · exact hkept e (by simp [keywordCalls, he])
  · exact finalWord_apply _ hfinal
  · exact hkept e (List.mem_append_left _ (List.mem_append_right _ he))
  · exact Rules.throwsClause.apply_absent _ hthrows
  · exact hlength
  · exact hkept e (List.mem_append_right _ he)

end Plugin

theorem Edit.apply_last (e : Edit) (pre mid : Line) (h : Hit) (hpre : Quiet e.pattern none pre mid)
    (hm : e.pattern.matchAt ⟨behind none pre, mid⟩ = some h) (ht : h.text = mid) (hne : mid ≠ []) :
    e.apply (pre ++ mid) = pre ++ e.render h := by
  have hend := replaceAll_single e.pattern e.render pre mid [] h (by rwa [List.append_nil])
    (by rwa [List.append_nil]) ht hne trivial
  rwa [List.append_nil, List.append_nil] at hend

theorem Receiver.upperCall_apply (r : Receiver) :
    Rules.upperCall.apply (r.call "ToUpperCase") = r.call "ToUpper" := by
  let pre : Line := r.text ++ ['.']
  have hcall : ∀ method : Line, r.text ++ '.' :: method = pre ++ method := fun method =>
    (List.append_assoc r.text ['.'] method).symm
  have hm : Rules.upperCall.pattern.matchAt ⟨behind none pre, "ToUpperCase()".toList⟩ =
      some ⟨behind none pre, "ToUpperCase()".toList, [], []⟩ := by
    rw [matchAt, Rules.upperCall, lit, matchK_last_text, textBetween_nil]
  have hquiet : Quiet Rules.upperCall.pattern none pre "ToUpperCase()".toList :=
    quiet_of_misses _ none [.many pathChar, .one (.only '.')] (Outline.lit "ToUpperCase()".toList)
      (by decide +kernel) none _ _ (View.knows_none _)
      ((Outline.fits_many pathChar _ r.text_path).append (Outline.fits_one (.only '.') '.' rfl))
      (Outline.fits_lit _)
  rw [call, call, hcall, hcall]
  exact Rules.upperCall.apply_last pre _ _ hquiet hm rfl (by decide)

theorem quiet_dotted (p : Pattern) (names : List AsciiWord) (o : Outline) (rest : Line)
    (h : p.misses none [.many pathChar, .one (.only '.')] o = true) (hrest : o.Fits rest) :
    Quiet p none (dotted names) rest := by
  -- Before the cast there is nothing, or a path that ends in a dot.
  rcases dotted_cases names with hnil | hfits
  · rw [hnil]
    trivial
  · exact quiet_of_misses p none _ o h none _ rest (View.knows_none _) hfits hrest

section
variable (b : Option Char) (hb : b.any Unicode.isWord = false) (w : AsciiWord)
include hb

theorem isEmptyCall_hit : ∃ h,
    Rules.isEmptyCall.pattern.matchAt ⟨b, w.1 ++ (".IsEmpty".toList ++ "()".toList)⟩ = some h ∧
      h.text = w.1 ++ (".IsEmpty".toList ++ "()".toList) ∧ h.group 1 = w.1 := by
  let tail : Line := ".IsEmpty".toList ++ "()".toList
  refine ⟨⟨b, w.1 ++ tail, [⟨1, w.1 ++ tail, tail⟩], []⟩, ?_, rfl, textBetween_left _ _⟩
  rw [matchAt, Rules.isEmptyCall, matchK_all_cons,
    matchK_edge _ _ _ (Place.atEdge_word b w.1 _ hb w.2.1 w.isWordText), matchK_all_cons, matchK,
    word, matchK_chars .word _ _ _ _ _ w.2.1 w.isWordText (stops_of_head .word _ _ (by decide)),
    matchK_all_cons, lit, matchK_text, matchK_all_cons, gap,
    matchK_span_none .blank _ _ _ _ (by decide), matchK_all_cons, lit, matchK_last_text,
    matchK_all_nil, textBetween_nil]

theorem enumCast_hit (member : AsciiWord) : ∃ h,
    Rules.enumCast.pattern.matchAt
      ⟨b, w.1 ++ '.' :: (member.1 ++ (".To".toList ++ ("Upper".toList ++ "()".toList)))⟩ = some h ∧
      h.text = w.1 ++ '.' :: (member.1 ++ (".To".toList ++ ("Upper".toList ++ "()".toList))) ∧
      h.group 1 = w.1 ++ '.' :: member.1 ∧ h.group 2 = "Upper".toList := by
  let name : Line := "Upper".toList ++ "()".toList
  let tail : Line := ".To".toList ++ name
  refine ⟨⟨b, w.1 ++ '.' :: (member.1 ++ tail),
    [⟨2, name, "()".toList⟩, ⟨1, w.1 ++ '.' :: (member.1 ++ tail), tail⟩], []⟩, ?_, rfl, ?_,
    textBetween_left _ _⟩
  · have hupper : ∀ c ∈ "Upper".toList, CharClass.word.mem c = true := by decide
    rw [matchAt, Rules.enumCast, matchK_all_cons,
      matchK_edge _ _ _ (Place.atEdge_word b w.1 _ hb w.2.1 w.isWordText), matchK_all_cons, matchK,
      matchK_all_cons, word,
      matchK_chars .word _ _ _ _ _ w.2.1 w.isWordText (stops_cons .word '.' _ (by decide)),
      matchK_all_cons, lit, show ".".toList = ['.'] from rfl, matchK_char, matchK_all_cons,
      matchK_chars .word _ _ _ _ _ member.2.1 member.isWordText
        (stops_of_head .word _ _ (by decide)), matchK_all_nil, matchK_all_cons, lit, matchK_text,
      matchK_all_cons, matchK,
      matchK_chars .word _ _ _ _ _ (by decide) hupper (by decide), matchK_all_cons, gap,
      matchK_span_none .blank _ _ _ _ (by decide), matchK_all_cons, lit, matchK_last_text,
      matchK_all_nil, textBetween_nil]
  · change textBetween (w.1 ++ '.' :: (member.1 ++ tail)) tail = _
    rw [show w.1 ++ '.' :: (member.1 ++ tail) = (w.1 ++ '.' :: member.1) ++ tail by simp,
      textBetween_left]

theorem emptyCall_hit (q : Pattern) (method : Line) (marks : List Mark)
    (hstops : Stops .blank (method ++ "()".toList))
    (hq : ∀ (f : Place → List Mark → Option Hit) h,
      f ⟨behind (some '.') method, "()".toList⟩ marks = some h →
        q.matchK ⟨some '.', method ++ "()".toList⟩ [] f = some h) :
    (Rules.emptyCall q).matchAt ⟨b, w.1 ++ '.' :: (method ++ "()".toList)⟩ =
      some ⟨b, w.1 ++ '.' :: (method ++ "()".toList), marks, []⟩ := by
  rw [matchAt, Rules.emptyCall, matchK_all_cons,
    matchK_edge _ _ _ (Place.atEdge_word b w.1 _ hb w.2.1 w.isWordText), matchK_all_cons, word,
    matchK_chars .word _ _ _ _ _ w.2.1 w.isWordText (stops_cons .word '.' _ (by decide)),
    matchK_all_cons, gap, matchK_span_none .blank _ _ _ _ (stops_cons .blank '.' _ (by decide)),
    matchK_all_cons, lit, show ".".toList = ['.'] from rfl, matchK_char, matchK_all_cons,
    matchK_span_none .blank _ _ _ _ hstops, matchK_all_cons]
  refine hq _ _ ?_
  rw [show "()".toList = '(' :: [')'] from rfl, matchK_all_cons,
    matchK_span_none .blank _ _ _ _ (by decide), matchK_all_cons, lit,
    show "(".toList = ['('] from rfl, matchK_char, matchK_all_cons,
    matchK_span_none .blank _ _ _ _ (by decide), matchK_all_cons, lit,
    show ")".toList = [')'] from rfl, matchK_last_text, matchK_all_nil, textBetween_nil]

end

theorem fits_dotted (names : List AsciiWord) (o : Outline) (text : Line) (h : o.Fits text) :
    Outline.Fits (.many pathChar :: o) (dotted names ++ text) :=
  (Outline.fits_many pathChar _ (dotted_path names)).append h

namespace Rules

theorem scannerInput_eq (line : Line) :
    scannerInput line = lineRead.apply (typedRead.apply (scannerDeclaration.apply line)) := by
  rw [scannerInput, scannerEdits]
  rfl

section
variable (r : Receiver)

/-- A read on a path of names is replaced from the last name on. -/
theorem read_call (q : Pattern) (template : List Part) (method : String) (marks : List Mark)
    (hmisses : (emptyCall q).misses none [.many pathChar, .one (.only '.')]
      (nameOutline ++ methodOutline method) = true)
    (hstops : Stops .blank (method.toList ++ "()".toList))
    (hq : ∀ (f : Place → List Mark → Option Hit) h,
      f ⟨behind (some '.') method.toList, "()".toList⟩ marks = some h →
        q.matchK ⟨some '.', method.toList ++ "()".toList⟩ [] f = some h) :
    ∃ h, h.marks = marks ∧ (⟨emptyCall q, template⟩ : Edit).apply (r.call method) =
      dotted r.owners ++ (⟨emptyCall q, template⟩ : Edit).render h := by
  have hm := emptyCall_hit _ (behind_dotted r.owners) r.member q method.toList marks hstops hq
  refine ⟨⟨behind none (dotted r.owners), r.member.1 ++ '.' :: (method.toList ++ "()".toList),
    marks, []⟩, rfl, ?_⟩
  rw [r.call_eq]
  exact Edit.apply_last ⟨emptyCall q, template⟩ _ _ _
    (quiet_dotted _ _ _ _ hmisses (r.member.fits.append (Outline.fits_lit _))) hm rfl (by simp)

theorem scannerInput_nextInt : scannerInput (r.call "nextInt") =
    dotted r.owners ++ "int.Parse(Console.ReadLine())".toList := by
  have hkept : scannerDeclaration.apply (r.call "nextInt") = r.call "nextInt" :=
    scannerDeclaration.apply_absent _
      (absent_of_passes _ _ _ (by decide +kernel) (r.fits_call "nextInt"))
  have hread : typedRead.apply (r.call "nextInt") =
      dotted r.owners ++ "int.Parse(Console.ReadLine())".toList := by
    obtain ⟨h, hmarks, hread⟩ := read_call r typedMethod typedRead.template "nextInt"
      [⟨1, "Int()".toList, "()".toList⟩] (by decide +kernel) (by decide) fun f h hf => by
        rw [show "nextInt".toList ++ "()".toList = "next".toList ++ ("Int".toList ++ "()".toList)
          from rfl, typedMethod, matchK_all_cons, lit, matchK_text, matchK_all_cons, matchK]
        exact Option.or_eq_some_iff.2 (.inl ((matchK_text "Int".toList _ _ _ _).trans hf))
    have hgroup : h.group 1 = "Int".toList := by
      rw [Hit.group_eq, hmarks]
      rfl
    refine hread.trans (congrArg (dotted r.owners ++ ·) ?_)
    simp only [Edit.render, typedRead, List.flatMap_cons, List.flatMap_nil, Part.render, hgroup]
    rfl
  have hdone : lineRead.apply (dotted r.owners ++ "int.Parse(Console.ReadLine())".toList) =
      dotted r.owners ++ "int.Parse(Console.ReadLine())".toList :=
    lineRead.apply_absent _ (absent_of_passes _ _ _ (by decide +kernel)
      (fits_dotted r.owners _ _ (Outline.fits_lit _)))
  rw [scannerInput_eq, hkept, hread, hdone]

theorem scannerInput_nextLine : scannerInput (r.call "nextLine") =
    dotted r.owners ++ "Console.ReadLine()".toList := by
  have hkept : ∀ e ∈ [scannerDeclaration, typedRead],
      e.apply (r.call "nextLine") = r.call "nextLine" := by
    have hpasses : ∀ e ∈ [scannerDeclaration, typedRead],
        e.pattern.passes (callOutline "nextLine") = true := by decide +kernel
    exact fun e he => e.apply_absent _
      (absent_of_passes _ _ _ (hpasses e he) (r.fits_call "nextLine"))
  obtain ⟨h, -, hread⟩ := read_call r lineMethod lineRead.template "nextLine" []
    (by decide +kernel) (by decide) fun f h hf => by
      rw [show "nextLine".toList ++ "()".toList = "next".toList ++ ("Line".toList ++ "()".toList)
        from rfl, lineMethod, matchK_all_cons, lit, matchK_text, matchK_all_cons, opt, matchK]
      exact Option.or_eq_some_iff.2 (.inl ((matchK_text "Line".toList _ _ _ _).trans hf))
  rw [scannerInput_eq, hkept _ (by simp), hkept _ (by simp)]
  exact hread

end

end Rules

def nullOrEmpty (path : Line) : Line := "string.IsNullOrEmpty(".toList ++ (path ++ [')'])

def upperPath : List AsciiWord → AsciiWord → Line
  | [], member => member.1 ++ ".ToUpper()".toList
  | [owner], member => "(upper)".toList ++ (owner.1 ++ '.' :: member.1)
  | w :: names, member => w.1 ++ '.' :: upperPath names member

theorem upperPath_concat (names : List AsciiWord) (owner member : AsciiWord) :
    upperPath (names ++ [owner]) member =
      dotted names ++ ("(upper)".toList ++ (owner.1 ++ '.' :: member.1)) := by
  induction names with
  | nil => rfl
  | cons w names ih =>
    rw [dotted_cons_append]
    cases names with
    | nil => rfl
    | cons v names => exact congrArg (fun line => w.1 ++ '.' :: line) ih

/-- The upper-case call of two names is cast, whatever path they end. -/
theorem upper_cast (names : List AsciiWord) (owner member : AsciiWord) :
    Edit.applyAll [Rules.enumCast, Rules.calendarCall, Rules.trimCall]
      (Receiver.call ⟨names ++ [owner], member⟩ "ToUpper") =
        dotted names ++ ("(upper)".toList ++ (owner.1 ++ '.' :: member.1)) := by
  have hcall : Receiver.call ⟨names ++ [owner], member⟩ "ToUpper" = dotted names ++
      (owner.1 ++ '.' :: (member.1 ++ (".To".toList ++ ("Upper".toList ++ "()".toList)))) := by
    rw [Receiver.call_eq, dotted_concat, List.append_assoc, List.append_assoc,
      List.singleton_append]
    rfl
  have hcast : Rules.enumCast.apply (Receiver.call ⟨names ++ [owner], member⟩ "ToUpper") =
      dotted names ++ ("(upper)".toList ++ (owner.1 ++ '.' :: member.1)) := by
    obtain ⟨hit, hm, htext, hfirst, hsecond⟩ :=
      enumCast_hit _ (behind_dotted names) owner member
    have hquiet := quiet_dotted Rules.enumCast.pattern names
      (nameOutline ++ .one (.only '.') :: (nameOutline ++ methodOutline "ToUpper")) _
      (by decide +kernel)
      (owner.fits.append ⟨'.', _, rfl, rfl, member.fits.append (Outline.fits_lit _)⟩)
    rw [hcall]
    refine (Rules.enumCast.apply_last _ _ hit hquiet hm htext (by simp)).trans ?_
    simp only [Edit.render, Rules.enumCast, List.flatMap_cons, List.flatMap_nil, Part.render,
      hfirst, hsecond, List.append_nil]
    rfl
  have hwritten : Outline.Fits (Outline.lit "(upper)".toList ++
      (nameOutline ++ .one (.only '.') :: nameOutline))
      ("(upper)".toList ++ (owner.1 ++ '.' :: member.1)) :=
    (Outline.fits_lit _).append (owner.fits.append ⟨'.', _, rfl, rfl, member.fits⟩)
  have hlater : ∀ e ∈ [Rules.calendarCall, Rules.trimCall],
      e.pattern.Absent (dotted names ++ ("(upper)".toList ++ (owner.1 ++ '.' :: member.1))) := by
    have hpasses : ∀ e ∈ [Rules.calendarCall, Rules.trimCall],
        ∀ o ∈ [([] : Outline), [.many pathChar, .one (.only '.')]],
          e.pattern.passes (o ++ (Outline.lit "(upper)".toList ++
            (nameOutline ++ .one (.only '.') :: nameOutline))) = true := by decide +kernel
    intro e he
    rcases dotted_cases names with hnil | hfits
    · rw [hnil]
      exact absent_of_passes _ _ _ (hpasses e he [] (by simp)) hwritten
    · exact absent_of_passes _ _ _ (hpasses e he _ (by simp)) (hfits.append hwritten)
  rw [← List.singleton_append, Edit.applyAll_append, Edit.applyAll_singleton, hcast]
  exact Edit.applyAll_absent _ _ hlater

theorem upper_kept (member : AsciiWord) (h : member.1 ≠ "OCalendarBase".toList) :
    Edit.applyAll [Rules.enumCast, Rules.calendarCall, Rules.trimCall]
      (Receiver.call ⟨[], member⟩ "ToUpper") = member.1 ++ ".ToUpper()".toList := by
  have hpasses : ∀ e ∈ [Rules.enumCast, Rules.trimCall],
      e.pattern.passes (nameOutline ++ methodOutline "ToUpper") = true := by decide +kernel
  have hline : (nameOutline ++ methodOutline "ToUpper").Fits
      (Receiver.call ⟨[], member⟩ "ToUpper") := member.fits.append (Outline.fits_lit _)
  have hwords : "OCalendarBase".toList ∉ words (Receiver.call ⟨[], member⟩ "ToUpper") := by
    rw [Receiver.words_call _ _ (by decide) (isWordText_of_all _ (by decide))]
    intro hmem
    rcases List.mem_cons.1 hmem with hname | hmethod
    · exact h hname.symm
    · exact absurd hmethod (by decide)
  refine Edit.applyAll_absent _ _ fun e he => ?_
  simp only [List.mem_cons, List.not_mem_nil, or_false] at he
  rcases he with rfl | rfl | rfl
  · exact absent_of_passes _ _ _ (hpasses _ (by simp)) hline
  · exact Plugin.calendarCall_absent _ hwords
  · exact absent_of_passes _ _ _ (hpasses _ (by simp)) hline

theorem last_eq_of_comm (xs ys : Line) (c d : Char)
    (h : (xs ++ [c]) ++ (ys ++ [d]) = (ys ++ [d]) ++ (xs ++ [c])) : d = c := by
  rw [← List.append_assoc, ← List.append_assoc] at h
  have hlast := congrArg List.getLast? h
  rw [List.getLast?_concat, List.getLast?_concat] at hlast
  exact Option.some.inj hlast

theorem nullOrEmpty_taken_iff (r : Receiver) :
    dotted r.owners ++ nullOrEmpty r.member.1 = nullOrEmpty r.text ↔ r.owners = [] := by
  obtain ⟨owners, member⟩ := r
  constructor
  · intro heq
    rcases List.eq_nil_or_concat owners with rfl | ⟨names, owner, rfl⟩
    · rfl
    · -- The path would have to change places with the text that opens the test.
      let opening : Line := "string.IsNullOrEmpty".toList ++ ['(']
      let path : Line := (dotted names ++ owner.1) ++ ['.']
      have hpath : dotted (names.concat owner) = path := by
        rw [List.concat_eq_append, dotted_concat, ← List.append_assoc]
      have hswap : (path ++ opening) ++ (member.1 ++ [')']) =
          (opening ++ path) ++ (member.1 ++ [')']) := by
        rw [List.append_assoc, List.append_assoc opening path, ← List.append_assoc path member.1,
          ← hpath]
        exact heq
      exact absurd (last_eq_of_comm _ _ '.' '(' (List.append_cancel_right hswap)) (by decide)
  · rintro rfl
    rfl

theorem upperPath_taken_iff (r : Receiver) :
    upperPath r.owners r.member = r.call "ToUpper" ↔ r.owners = [] := by
  obtain ⟨owners, member⟩ := r
  constructor
  · intro heq
    rcases List.eq_nil_or_concat owners with rfl | ⟨names, owner, rfl⟩
    · rfl
    · obtain ⟨member, hne, hascii⟩ := member
      rcases List.eq_nil_or_concat member with rfl | ⟨xs, c, rfl⟩
      · exact absurd rfl hne
      · have hwritten : upperPath (names.concat owner) ⟨xs.concat c, hne, hascii⟩ =
            (dotted names ++ ("(upper)".toList ++ (owner.1 ++ '.' :: xs))) ++ [c] := by
          rw [List.concat_eq_append, upperPath_concat]
          simp only [List.concat_eq_append, List.append_assoc, List.cons_append]
        have hcall : ∀ r : Receiver, r.call "ToUpper" =
            (r.text ++ '.' :: ("ToUpper".toList ++ ['('])) ++ [')'] := by
          intro r
          rw [Receiver.call, show "()".toList = ['('] ++ [')'] from rfl]
          simp only [List.append_assoc, List.cons_append]
        have hlast := congrArg List.getLast? ((hwritten.symm.trans heq).trans (hcall _))
        rw [List.getLast?_concat, List.getLast?_concat, Option.some.injEq] at hlast
        have hc := hascii c (by simp)
        rw [hlast] at hc
        exact absurd hc (by decide)
  · rintro rfl
    rfl

section
variable (r : Receiver) (h : ∀ w ∈ r.segments, ¬IsTrigger w)
include h

theorem not_opensAttribute (method : String) : ¬OpensAttribute (r.call method) := by
  obtain ⟨w, rest, hw, hcall⟩ := r.call_opens method
  have htrim : Text.trimStart (r.call method) = r.call method := by
    have hstops := w.stops_blank
    obtain ⟨w, hne, hascii⟩ := w
    cases w with
    | nil => exact absurd rfl hne
    | cons c w =>
      have hc : Unicode.isBlank c = false := hstops
      rw [hcall, Text.trimStart, List.cons_append, List.dropWhile_cons, hc]
      rfl
  have hword : IsWordText (w.1.map foldCase) := by
    intro c hc
    obtain ⟨d, hd, rfl⟩ := List.mem_map.1 hc
    exact CharClass.isWord_of_inWord alnum (by decide) _ (alnum_foldCase d (w.2.2 d hd))
  have hfold : (r.call method).map foldCase = w.1.map foldCase ++ ('.' :: rest).map foldCase := by
    rw [hcall, List.map_append]
  have hends : EndsWord (('.' :: rest).map foldCase) :=
    endsWord_cons (foldCase '.') _ (by decide)
  rw [OpensAttribute, htrim, hfold]
  rintro (⟨tail, htail⟩ | ⟨tail, htail⟩)
  · exact h w.1 hw (.inr (.inr (.inr (.inr (prefix_of_run _ _ _ _
      (isWordText_of_all _ (by decide)) hword hends htail)))))
  · have hsign : EndsWord ("@scriptattributes".toList ++ tail) := endsWord_cons '@' _ (by decide)
    rw [htail] at hsign
    exact not_endsWord_append _ _ (by simp [w.2.1]) hword hsign

theorem domainSubstitutions_call (method : String) : Rules.domainSubstitutions (r.call method) =
    Edit.applyAll Rules.substitutions (r.call method) := by
  have hattribute : Rules.scriptAttribute.occursIn (Text.trimStart (r.call method)) = false :=
    Bool.eq_false_iff.2 fun hoccurs =>
      not_opensAttribute r h method (Rules.opensAttribute_of_occursIn _ hoccurs)
  rw [Rules.domainSubstitutions, hattribute, if_neg Bool.false_ne_true]

theorem not_trigger_words (method : String) (hmethod : ¬IsTrigger method.toList)
    (hne : method.toList ≠ []) (hword : IsWordText method.toList) :
    ∀ w ∈ words (r.call method), ¬IsTrigger w := by
  rw [r.words_call method hne hword]
  intro w hw
  rcases List.mem_append.1 hw with hw | hw
  · exact h w hw
  · exact List.mem_singleton.1 hw ▸ hmethod

theorem keywords_keep (method : String)
    (htext : ∀ e ∈ Plugin.keywordCalls, e.pattern.passes (callOutline method) = true)
    (hsigns : (all ["h", .one Plugin.callSigns]).passes (callOutline method) = true)
    (hmethod : ¬IsTrigger method.toList) (hne : method.toList ≠ [])
    (hword : IsWordText method.toList) :
    Edit.applyAll Plugin.keywordEdits (r.call method) = r.call method :=
  Plugin.keywordEdits_keep r method htext hsigns (not_trigger_words r h method hmethod hne hword)

theorem domainSubstitutions_isEmpty : Rules.domainSubstitutions (r.call "IsEmpty") =
    dotted r.owners ++ nullOrEmpty r.member.1 := by
  have hline := r.fits_call "IsEmpty"
  have hpasses : ∀ e ∈ Rules.parseCalls ++ [Rules.upperCall],
      e.pattern.passes (callOutline "IsEmpty") = true := by decide +kernel
  have hparse : Edit.applyAll Rules.parseCalls (r.call "IsEmpty") = r.call "IsEmpty" :=
    Edit.applyAll_absent _ _ fun e he =>
      absent_of_passes _ _ _ (hpasses e (by simp [he])) hline
  have hupper : Rules.upperCall.apply (r.call "IsEmpty") = r.call "IsEmpty" :=
    Edit.apply_absent _ _ (absent_of_passes _ _ _ (hpasses _ (by simp)) hline)
  have hkeywords := keywords_keep r h "IsEmpty" (by decide +kernel) (by decide +kernel) (by decide)
    (by decide) (isWordText_of_all _ (by decide))
  have hhit : Rules.isEmptyCall.apply (r.call "IsEmpty") =
      dotted r.owners ++ nullOrEmpty r.member.1 := by
    obtain ⟨hit, hm, htext, hgroup⟩ := isEmptyCall_hit _ (behind_dotted r.owners) r.member
    have hquiet := quiet_dotted Rules.isEmptyCall.pattern r.owners
      (nameOutline ++ methodOutline "IsEmpty") _ (by decide +kernel)
      (r.member.fits.append (Outline.fits_lit _))
    rw [r.call_eq]
    refine (Rules.isEmptyCall.apply_last _ _ hit hquiet hm htext (by simp)).trans ?_
    simp only [Edit.render, Rules.isEmptyCall, List.flatMap_cons, List.flatMap_nil, Part.render,
      hgroup]
    rfl
  have hlater : ∀ e ∈ [Rules.scriptBase, Rules.enumCast, Rules.calendarCall, Rules.trimCall],
      e.pattern.passes (.many pathChar :: (Outline.lit "string.IsNullOrEmpty(".toList ++
        (nameOutline ++ Outline.lit [')']))) = true := by decide +kernel
  have hwritten := fits_dotted r.owners _ (nullOrEmpty r.member.1)
    ((Outline.fits_lit _).append (r.member.fits.append (Outline.fits_lit _)))
  rw [domainSubstitutions_call r h, Plugin.applyAll_substitutions, hparse, hupper, hkeywords,
    ← List.singleton_append, Edit.applyAll_append, Edit.applyAll_singleton, hhit]
  exact Edit.applyAll_absent _ _ fun e he => absent_of_passes _ _ _ (hlater e he) hwritten

theorem domainSubstitutions_toUpperCase : Rules.domainSubstitutions (r.call "ToUpperCase") =
    upperPath r.owners r.member := by
  have hparse : Edit.applyAll Rules.parseCalls (r.call "ToUpperCase") = r.call "ToUpperCase" := by
    have hpasses : ∀ e ∈ Rules.parseCalls, e.pattern.passes (callOutline "ToUpperCase") = true := by
      decide +kernel
    exact Edit.applyAll_absent _ _ fun e he =>
      absent_of_passes _ _ _ (hpasses e he) (r.fits_call "ToUpperCase")
  have hkeywords := keywords_keep r h "ToUpper" (by decide +kernel) (by decide +kernel) (by decide)
    (by decide) (isWordText_of_all _ (by decide))
  have hkept : Edit.applyAll [Rules.isEmptyCall, Rules.scriptBase] (r.call "ToUpper") =
      r.call "ToUpper" := by
    have hpasses : ∀ e ∈ [Rules.isEmptyCall, Rules.scriptBase],
        e.pattern.passes (callOutline "ToUpper") = true := by decide +kernel
    exact Edit.applyAll_absent _ _ fun e he =>
      absent_of_passes _ _ _ (hpasses e he) (r.fits_call "ToUpper")
  have hsplit : ∀ line, Edit.applyAll
      [Rules.isEmptyCall, Rules.scriptBase, Rules.enumCast, Rules.calendarCall,
        Rules.trimCall] line =
      Edit.applyAll [Rules.enumCast, Rules.calendarCall, Rules.trimCall]
        (Edit.applyAll [Rules.isEmptyCall, Rules.scriptBase] line) :=
    Edit.applyAll_append [Rules.isEmptyCall, Rules.scriptBase] _
  rw [domainSubstitutions_call r h, Plugin.applyAll_substitutions, hparse, r.upperCall_apply,
    hkeywords, hsplit, hkept]
  obtain ⟨owners, member⟩ := r
  rcases List.eq_nil_or_concat owners with rfl | ⟨names, owner, rfl⟩
  · refine upper_kept member fun heq => h member.1 (by simp [Receiver.segments]) (.inr (.inl heq))
  · rw [List.concat_eq_append, upper_cast, upperPath_concat]

end

/-- Of a path of names the last one is taken, and for the cast of an upper-case call the last two.
The whole path is taken if and only if it is a single name. The substitutions of plugin scripts
need names that set nothing off by themselves, the reads of the scanner any names. -/
theorem receiver_taken_whole_iff (r : Receiver) :
    ((∀ w ∈ r.segments, ¬IsTrigger w) →
      (Rules.domainSubstitutions (r.call "IsEmpty") = dotted r.owners ++ nullOrEmpty r.member.1 ∧
        Rules.domainSubstitutions (r.call "ToUpperCase") = upperPath r.owners r.member) ∧
      (Rules.domainSubstitutions (r.call "IsEmpty") = nullOrEmpty r.text ↔ r.owners = []) ∧
      (Rules.domainSubstitutions (r.call "ToUpperCase") = r.call "ToUpper" ↔ r.owners = [])) ∧
    (Rules.scannerInput (r.call "nextInt") =
        dotted r.owners ++ "int.Parse(Console.ReadLine())".toList ∧
      Rules.scannerInput (r.call "nextLine") =
        dotted r.owners ++ "Console.ReadLine()".toList) ∧
    (Rules.scannerInput (r.call "nextInt") = "int.Parse(Console.ReadLine())".toList ↔
      r.owners = []) ∧
    (Rules.scannerInput (r.call "nextLine") = "Console.ReadLine()".toList ↔ r.owners = []) := by
  have hint := Rules.scannerInput_nextInt r
  have hline := Rules.scannerInput_nextLine r
  refine ⟨fun h => ?_, ⟨hint, hline⟩, ?_, ?_⟩
  · have hempty := domainSubstitutions_isEmpty r h
    have hupper := domainSubstitutions_toUpperCase r h
    refine ⟨⟨hempty, hupper⟩, ?_, ?_⟩
    · rw [hempty]
      exact nullOrEmpty_taken_iff r
    · rw [hupper]
      exact upperPath_taken_iff r
  · rw [hint, List.append_left_eq_self, dotted_eq_nil_iff]
  · rw [hline, List.append_left_eq_self, dotted_eq_nil_iff]

def nearReceiver : Receiver where
  owners := [⟨"OCalendarBases".toList, by decide⟩, ⟨"Lengths".toList, by decide⟩]
  member := ⟨"finals".toList, by decide⟩

theorem near_receiver_split :
    (∀ w ∈ nearReceiver.segments, ¬IsTrigger w) ∧
      Rules.domainSubstitutions (nearReceiver.call "IsEmpty") =
        "OCalendarBases.Lengths.string.IsNullOrEmpty(finals)".toList ∧
      Rules.domainSubstitutions (nearReceiver.call "ToUpperCase") =
        "OCalendarBases.(upper)Lengths.finals".toList ∧
      Rules.scannerInput (nearReceiver.call "nextInt") ≠
        "int.Parse(Console.ReadLine())".toList := by
  have h : ∀ w ∈ nearReceiver.segments, ¬IsTrigger w := by decide
  obtain ⟨hdomain, -, hint, -⟩ := receiver_taken_whole_iff nearReceiver
  obtain ⟨⟨hempty, hupper⟩, -⟩ := hdomain h
  have howners : nearReceiver.owners ≠ [] := List.cons_ne_nil _ _
  exact ⟨h, hempty.trans (by decide), hupper.trans (by decide), fun heq => howners (hint.1 heq)⟩

/-- With an owner before it the last name of a path is taken alone. -/
theorem last_name_taken_alone :
    (∀ w ∈ ["row", "name", "sc"], ¬IsTrigger w.toList) ∧
      Rules.domainSubstitutions "row.name.IsEmpty()".toList =
        "row.string.IsNullOrEmpty(name)".toList ∧
      Rules.domainSubstitutions "row.name.ToUpperCase()".toList = "(upper)row.name".toList ∧
      Rules.scannerInput "row.sc.nextInt()".toList =
        "row.int.Parse(Console.ReadLine())".toList ∧
      Rules.scannerInput "row.sc.nextLine()".toList = "row.Console.ReadLine()".toList := by
  decide +kernel

end JvsSharp
