import JvsSharp.Proofs.BareCalls

/-!
# Casing of methods where they are declared and called

Three rules case the names of methods: one in headers, one in calls on a
receiver, one in bare calls, which headers are for it too. The first and the
last case every segment of a name, and the last one puts keywords back into
lower case. The one in the middle changes the first letter only, so a call on
a receiver may be cased in another way than the method.
-/

set_option autoImplicit false

namespace JvsSharp
open Pattern

namespace Pattern

theorem matchK_star_none {α : Type} (p q : Pattern) (v : View) (c : Place) (hv : v.Sees c)
    (h : (Pattern.seq p (.seq (.star p) q)).reach v = []) (m : List Mark)
    (f : Place → List Mark → Option α) :
    (Pattern.star p).matchK c m (fun c' m' => q.matchK c' m' f) = q.matchK c m f := by
  have hround : ∀ n, ∀ r ∈ p.ends c m, ∀ s ∈ starEnds (fun c m => p.ends c m) n r.1 r.2,
      q.matchK s.1 s.2 f = none := by
    intro n r hr s hs
    rw [matchK_eq, List.findSome?_eq_none_iff]
    intro t ht
    obtain ⟨w, hw, hsees⟩ := reach_sound p v c hv m r hr
    obtain ⟨xs, hleads⟩ := starEnds_leads _ (fun c m r => ends_leads p c m r) n r.1 r.2 s hs
    obtain ⟨w', hw', hsees'⟩ := runs_passes (.except []) w r.1 s.1 hsees
      ⟨xs, hleads, by simp [CharClass.mem]⟩
    obtain ⟨w'', hw'', -⟩ := reach_sound q w' s.1 hsees' s.2 t ht
    have hmem : w'' ∈ (Pattern.seq p (.seq (.star p) q)).reach v := by
      simp only [reach, List.mem_flatMap]
      exact ⟨w, hw, w', hw', hw''⟩
    rw [h] at hmem
    exact absurd hmem List.not_mem_nil
  rw [matchK]
  cases c.rest.length with
  | zero => rfl
  | succ n =>
    rw [starK, matchK_eq p, List.findSome?_eq_none_iff.2, Option.none_or]
    intro r hr
    simp only [matchK_eq p]
    rw [starK_eq, List.findSome?_eq_none_iff]
    exact hround n r hr

theorem replaceAll_whole (p : Pattern) (f : Hit → Line) (line : Line) (h : Hit)
    (hm : p.matchAt ⟨none, line⟩ = some h) (ht : h.text = line) (hne : line ≠ []) :
    p.replaceAll f line = f h := by
  have hsingle := replaceAll_single p f [] line [] h trivial (by rwa [List.append_nil]) ht hne
    trivial
  simpa only [List.nil_append, List.append_nil] using hsingle

end Pattern

structure MethodName where
  text : Line
  form : ∃ c rest, text = c :: rest ∧ c.isLower = true ∧ IsNameText rest

namespace MethodName

variable (n : MethodName)

theorem ne : n.text ≠ [] := by
  obtain ⟨c, rest, h, -, -⟩ := n.form
  simp [h]

theorem start : n.text.head?.any Char.isLower = true := by
  obtain ⟨c, rest, h, hc, -⟩ := n.form
  rw [h]
  exact hc

theorem isNameText : IsNameText n.text := by
  obtain ⟨c, rest, h, hc, hrest⟩ := n.form
  rw [h]
  exact List.forall_mem_cons.2 ⟨by simp [nameChar, CharClass.mem, hc], hrest⟩

theorem isWordText : IsWordText n.text := fun c hc => isWord_nameChar (n.isNameText c hc)

end MethodName

namespace Rules

theorem matchK_memberType {α : Type} (b : Option Char) (m : List Mark)
    (f : Place → List Mark → Option α) (type rest : Line) (hne : type ≠ [])
    (htype : IsWordText type) (hrest : Stops (.union .word (.oneOf ['<', '>'])) rest) :
    memberType.matchK ⟨b, type ++ rest⟩ m f = f ⟨behind b type, rest⟩ m := by
  cases type with
  | nil => exact absurd rfl hne
  | cons t type =>
    have ht : CharClass.word.mem t = true := htype t (by simp)
    have hspan := matchK_span _ (some t) type rest m f
      (fun x hx => by simp [CharClass.mem, htype x (by simp [hx])]) hrest
    simp only [memberType, matchK_all_cons, matchK_all_nil, matchK, List.cons_append, ht, if_true]
      at hspan ⊢
    exact hspan

theorem methodHeader_hit (type : Word) (n : MethodName) :
    ∃ h, methodHeader.matchAt ⟨none, headerText type.1 n.text⟩ = some h ∧
      h.text = headerText type.1 n.text ∧ h.group 1 = type.1 ++ [' '] ∧ h.group 2 = type.1 ∧
      h.group 3 = n.text ∧ h.group 4 = ['('] := by
  obtain ⟨hne, htype⟩ := type.2
  let line := headerText type.1 n.text
  let name := bareText n.text
  have hview : (⟨none, [.many .word, .one (.only ' '), .one .lower, .many .word,
      .one (.only '(')]⟩ : View).Sees ⟨none, line⟩ := by
    obtain ⟨c, rest, htext, hc, hrest⟩ := n.form
    have hfits : Outline.Fits [.one .lower, .many .word, .one (.only '(')] name :=
      ⟨c, rest ++ ['('], by simp [name, bareText, htext], hc,
        fits_bareText fun x hx => isWord_nameChar (hrest x hx)⟩
    exact ⟨(Outline.fits_many .word type.1 htype).append ⟨' ', name, rfl, rfl, hfits⟩,
      View.knows_none none⟩
  have hedge : (⟨none, line⟩ : Place).atEdge = true :=
    Place.atEdge_word none type.1 _ rfl hne htype
  have hstop : Stops .blank name :=
    ContainerShape.stops_blank_word n.text ['('] n.ne n.isWordText
  refine ⟨⟨none, line, [⟨4, ['('], []⟩, ⟨3, name, ['(']⟩, ⟨1, line, name⟩, ⟨2, line, ' ' :: name⟩],
    []⟩, ?_, rfl, ?_, ?_, ?_, rfl⟩
  · -- Behind a modifier no white space is left that could follow a type.
    rw [matchAt, methodHeader, matchK_all_cons, matchK, matchK_all_cons,
      matchK_edge _ _ _ hedge, matchK_all_cons,
      matchK_star_none _ _ _ _ hview (by decide +kernel), matchK_all_cons, matchK]
    refine (matchK_memberType _ _ _ type.1 _ hne htype (stops_cons _ ' ' _ (by decide))).trans ?_
    rw [matchK_all_cons]
    refine (matchK_chars .blank _ [' '] _ _ _ (by decide) (by decide) hstop).trans ?_
    rw [matchK_all_nil, matchK_all_cons, matchK]
    refine (matchK_memberName _ _ _ n.text _ n.start n.isWordText
      (stops_cons _ '(' _ (by decide))).trans ?_
    rw [matchK_all_cons, matchK, matchK_all_cons, gap, matchK_span_none .blank _ _ _ _
      (stops_cons _ '(' _ (by decide)), matchK_all_cons]
    refine (matchK_char '(' _ _ _ _).trans ?_
    rw [matchK_all_nil, matchK_all_nil, textBetween_nil]
    rfl
  · have hline : line = (type.1 ++ [' ']) ++ name := by simp [line, name, headerText, bareText]
    simp only [Hit.group, List.find?_cons, beq_self_eq_true, Mark.text, hline]
    exact textBetween_left (type.1 ++ [' ']) name
  · exact textBetween_left type.1 (' ' :: name)
  · exact textBetween_left n.text ['(']

theorem methodNames_header (type : Word) (n : MethodName) (hdiff : type.1 ≠ n.text) :
    methodNames (headerText type.1 n.text) = headerText type.1 (Casing.pascal n.text) := by
  obtain ⟨h, hm, htext, hfirst, hsecond, hthird, hfourth⟩ := methodHeader_hit type n
  have hguard : (type.1 == n.text) = false := beq_eq_false_iff_ne.2 hdiff
  rw [methodNames, replaceAll_whole _ _ _ h hm htext (by simp [headerText]), hfirst, hsecond,
    hthird, hfourth, hguard]
  simp [headerText]

theorem callCasing_callText (receiver : Word) (n : MethodName) :
    callCasing (callText receiver.1 n.text) =
      callText receiver.1 (Casing.capitalizeFirst n.text) :=
  callCasing_call [] receiver.1 n.text [] rfl receiver.2.1 receiver.2.2 n.start n.isWordText
    trivial trivial

/-- A call is no header of a method, since no white space stands in it. -/
theorem methodNames_absent (o : Outline) (line : Line) (hline : o.Fits line)
    (h : methodHeader.passes o = true) : methodNames line = line :=
  replaceAll_absent _ _ line (absent_of_passes _ o line h hline)

theorem callCasing_absent (o : Outline) (line : Line) (hline : o.Fits line)
    (h : memberCall.pattern.passes o = true) : callCasing line = line :=
  memberCall.apply_absent line (absent_of_passes _ o line h hline)

end Rules

namespace MethodName

variable (n : MethodName)

theorem callStart_text : n.text.head?.any Rules.callStart.mem = true := by
  obtain ⟨c, rest, h, hc, -⟩ := n.form
  simp [h, Rules.callStart, CharClass.mem, hc]

theorem isNameText_pascal : IsNameText (Casing.pascal n.text) := by
  rw [Casing.pascal_eq _ n.isNameText]
  exact Casing.isNameText_upperInitials true _ n.isNameText

theorem isNameText_capitalizeFirst : IsNameText (Casing.capitalizeFirst n.text) := by
  have hname := n.isNameText
  obtain ⟨c, rest, h, -, hrest⟩ := n.form
  rw [h] at hname ⊢
  have hc : nameChar.mem c = true := hname c (by simp)
  rw [Casing.capitalizeFirst_eq c rest hc]
  exact List.forall_mem_cons.2 ⟨(nameChar_toUpper hc).1, hrest⟩

theorem callStart_pascal : (Casing.pascal n.text).head?.any Rules.callStart.mem = true := by
  have hname := n.isNameText
  obtain ⟨c, rest, h, hc, -⟩ := n.form
  rw [Casing.pascal_eq _ hname, h]
  rw [h] at hname
  rcases (Unicode.ascii_case c (nameChar_code (hname c (by simp)))).1 with hself | hupper
  · simp [Casing.upperInitials, hself, Rules.callStart, CharClass.mem, hc]
  · simp [Casing.upperInitials, Rules.callStart, CharClass.mem, hupper]

theorem map_toLower_pascal :
    (Casing.pascal n.text).map Char.toLower = n.text.map Char.toLower := by
  rw [Casing.pascal_eq _ n.isNameText]
  exact Casing.map_toLower_upperInitials true _ n.isNameText

theorem pascal_pascal : Casing.pascal (Casing.pascal n.text) = Casing.pascal n.text := by
  rw [Casing.pascal_eq _ n.isNameText_pascal, Casing.pascal_eq _ n.isNameText]
  exact Casing.upperInitials_idempotent true _ n.isNameText

/-- The casing of a header is undone or kept by the casing of bare calls, as if the name stood
there as it was written. -/
theorem bareCallName_pascal :
    Rules.bareCallName (Casing.pascal n.text) = Rules.bareCallName n.text := by
  rw [Rules.bareCallName, Rules.bareCallName, Rules.isKeyword, Rules.isKeyword,
    n.map_toLower_pascal, n.pascal_pascal]

theorem mendedElse_pascal (type : Line) :
    Rules.mendedElse type (Casing.pascal n.text) = Rules.mendedElse type n.text := by
  have hfold : (Casing.pascal n.text).map foldCase = n.text.map foldCase := by
    rw [Rules.map_foldCase_name _ n.isNameText_pascal, Rules.map_foldCase_name _ n.isNameText,
      n.map_toLower_pascal]
  apply if_congr _ rfl rfl
  rw [Rules.IsElseIf, Rules.IsElseIf, hfold]

/-- The two casings of a call differ at keywords and at segments in lower case. -/
theorem capitalizeFirst_eq_bareCallName_iff :
    Casing.capitalizeFirst n.text = Rules.bareCallName n.text ↔
      Rules.isKeyword n.text = false ∧ ¬Casing.HasLowerSegment n.text := by
  have hname := n.isNameText
  obtain ⟨c, rest, h, hc, -⟩ := n.form
  rw [h] at hname ⊢
  by_cases hkeyword : Rules.isKeyword (c :: rest) = true
  · have hupper : c.toUpper ≠ c := by
      rw [ne_eq, toUpper_eq_self_iff, hc]
      decide
    rw [Rules.bareCallName, if_pos hkeyword, Casing.capitalizeFirst_eq c rest (hname c (by simp)),
      List.map_cons, toLower_of_isLower c hc]
    simp [hupper, hkeyword]
  · rw [Rules.bareCallName, if_neg hkeyword,
      Casing.capitalizeFirst_eq_pascal_iff c rest hc hname]
    simp [hkeyword]

end MethodName

def casingRules : List Rule := [.methodNames, .callCasing, .standaloneCalls]

theorem turns_casing (index : Index) (line line' : Line)
    (h : Rules.standaloneCalls (Rules.callCasing (Rules.methodNames line)) = line') :
    Turns index casingRules line line' :=
  (Turns.single (fun _ => rfl) rfl).append
    ((Turns.single (fun _ => rfl) rfl).append (Turns.single (fun _ => rfl) h))

section
variable (index : Index) (n : MethodName)

theorem turns_header (type : Word) (hne : type.1 ≠ n.text) :
    Turns index casingRules (headerText type.1 n.text)
      (headerText (Rules.mendedElse type.1 n.text) (Rules.bareCallName n.text)) := by
  apply turns_casing
  have hword : IsWordText (Casing.pascal n.text) := fun c hc =>
    isWord_nameChar (n.isNameText_pascal c hc)
  rw [Rules.methodNames_header type n hne,
    Rules.callCasing_absent _ (headerText _ _) (fits_wordsAround type.2.2 hword ' ') (by decide),
    Rules.standaloneCalls_header type _ n.callStart_pascal n.isNameText_pascal,
    n.bareCallName_pascal, n.mendedElse_pascal]

theorem turns_call (receiver : Word) :
    Turns index casingRules (callText receiver.1 n.text)
      (callText receiver.1 (Casing.capitalizeFirst n.text)) := by
  apply turns_casing
  rw [Rules.methodNames_absent _ (callText _ _) (fits_wordsAround receiver.2.2 n.isWordText '.')
      (by decide),
    Rules.callCasing_callText receiver n,
    Rules.standaloneCalls_call _ _ receiver.2.2 n.isNameText_capitalizeFirst]

theorem turns_bare : Turns index casingRules (bareText n.text)
    (bareText (Rules.bareCallName n.text)) := by
  apply turns_casing
  rw [Rules.methodNames_absent _ _ (fits_bareText n.isWordText) (by decide),
    Rules.callCasing_absent _ _ (fits_bareText n.isWordText) (by decide),
    Rules.standaloneCalls_bare _ n.callStart_text n.isWordText]

end

/-- A method is cased alike where it is declared and in a bare call. In a call on a receiver it
is cased like that exactly if its name is no keyword and none of its later segments starts in
lower case. -/
theorem methods_cased_alike_iff (n : MethodName) (type receiver : Word) (hne : type.1 ≠ n.text)
    (index : Index) :
    (∀ m : Mode, casingRules.Sublist m.rules) ∧
      Turns index casingRules (headerText type.1 n.text)
        (headerText (Rules.mendedElse type.1 n.text) (Rules.bareCallName n.text)) ∧
      Turns index casingRules (bareText n.text) (bareText (Rules.bareCallName n.text)) ∧
      Turns index casingRules (callText receiver.1 n.text)
        (callText receiver.1 (Casing.capitalizeFirst n.text)) ∧
      (Casing.capitalizeFirst n.text = Rules.bareCallName n.text ↔
        Rules.isKeyword n.text = false ∧ ¬Casing.HasLowerSegment n.text) := by
  constructor
  · intro m
    cases m <;> decide
  · exact ⟨turns_header index n type hne, turns_bare index n, turns_call index n receiver,
      n.capitalizeFirst_eq_bareCallName_iff⟩

def doubledName : MethodName where
  text := "load__rowsOf_2_B".toList
  form := ⟨'l', "oad__rowsOf_2_B".toList, rfl, by decide, by unfold IsNameText; decide +kernel⟩

def intWord : Word := ⟨"int".toList, by decide, isWordText_of_all _ (by decide)⟩

def dbWord : Word := ⟨"db".toList, by decide, isWordText_of_all _ (by decide)⟩

/-- A pair of underscores leaves the letter behind it alone, and neither a digit nor a capital
can be changed. -/
theorem doubled_underscore_cased_alike :
    intWord.1 ≠ doubledName.text ∧
      Turns [] casingRules "int load__rowsOf_2_B(".toList "int Load__rowsOf_2_B(".toList ∧
      Turns [] casingRules "load__rowsOf_2_B(".toList "Load__rowsOf_2_B(".toList ∧
      Turns [] casingRules "db.load__rowsOf_2_B(".toList "db.Load__rowsOf_2_B(".toList ∧
      ¬Casing.HasLowerSegment doubledName.text := by
  have hne : intWord.1 ≠ doubledName.text := by decide
  obtain ⟨-, hheader, hbare, hcall, hiff⟩ :=
    methods_cased_alike_iff doubledName intWord dbWord hne []
  have hname : Rules.bareCallName doubledName.text = "Load__rowsOf_2_B".toList := by decide +kernel
  have hcalled : Casing.capitalizeFirst doubledName.text = "Load__rowsOf_2_B".toList := by
    decide +kernel
  rw [hname] at hheader hbare hiff
  rw [hcalled] at hcall hiff
  exact ⟨hne, hheader, hbare, hcall, (hiff.1 rfl).2⟩

/-- A segment in lower case and a keyword are each cased in two ways. -/
theorem methods_cased_apart :
    let cased := fun line : Line => (convertLine casingRules [] ⟨line, .idle⟩).line
    let int := "int".toList
    let db := "db".toList
    (cased (headerText int "load_rows".toList) = headerText int "Load_Rows".toList ∧
        cased (bareText "load_rows".toList) = bareText "Load_Rows".toList ∧
        cased (callText db "load_rows".toList) = callText db "Load_rows".toList ∧
        "Load_Rows".toList ≠ "Load_rows".toList) ∧
      cased (headerText int "get".toList) = headerText int "get".toList ∧
        cased (bareText "get".toList) = bareText "get".toList ∧
        cased (callText db "get".toList) = callText db "Get".toList ∧
        "get".toList ≠ "Get".toList := by
  decide +kernel

end JvsSharp
