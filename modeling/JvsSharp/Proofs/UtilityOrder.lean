import JvsSharp.Proofs.PluginPhrases

/-!
# Collection helpers in the two modes

Calls of the collection helpers are known by the names that they have in the
source. The general mode rewrites them before it capitalizes the names of
calls. In plugin scripts the names are capitalized first, and the helpers are
not recognised any more.
-/

set_option autoImplicit false

namespace JvsSharp
open Pattern

theorem sortEdit_apply (x : Identifier) :
    Rules.sortEdit.apply (phrase ["Collections.sort(", x, ");"]) = phrase [x, ".Sort();"] := by
  let call : Line := "Collections.sort(".toList ++ (x.text ++ [')'])
  have hline : phrase ["Collections.sort(", x, ");"] = call ++ [';'] := by
    simp [phrase, Token.line, call]
  let h : Hit := ⟨none, call, [⟨1, x.text ++ [')', ';'], [')', ';']⟩], [';']⟩
  have hmatch : Rules.sortEdit.pattern.matchAt ⟨none, call ++ [';']⟩ = some h := by
    have hcall : call ++ [';'] = "Collections.sort(".toList ++ (x.text ++ [')', ';']) := by
      simp [call]
    have htext : textBetween (call ++ [';']) [';'] = call := textBetween_left _ _
    rw [hcall] at htext ⊢
    rw [matchAt, Rules.sortEdit, matchK_all_cons, lit, matchK_text, matchK_all_cons]
    refine (Rules.matchK_argument x _ [';'] _ _ 1).trans ?_
    rw [matchK_all_cons]
    refine (matchK_char ')' _ [';'] _ _).trans ?_
    exact congrArg (fun text => some (Hit.mk none text h.marks [';'])) htext
  have hx : h.group 1 = x.text := textBetween_left _ _
  rw [hline, Rules.sortEdit.apply_start call [';'] h hmatch rfl (by simp [call])
    (quiet_text 'C' _ _ _ _ _ (by decide))]
  simp [Edit.render, Rules.sortEdit, Part.render, hx, phrase, Token.line]

theorem copyEdit_apply (a n : Identifier) :
    Rules.copyEdit.apply (phrase ["Arrays.copyOf(", a, ", ", n, ");"]) =
      phrase ["Array.Copy(", a, ", ", n, ");"] := by
  let last : Line := n.text ++ [')', ';']
  let call : Line := "Arrays.copyOf(".toList ++ (a.text ++ ',' :: ' ' :: (n.text ++ [')']))
  have hline : phrase ["Arrays.copyOf(", a, ", ", n, ");"] = call ++ [';'] := by
    simp [phrase, Token.line, call]
  let h : Hit := ⟨none, call, [⟨2, last, [')', ';']⟩,
    ⟨1, a.text ++ ',' :: ' ' :: last, ',' :: ' ' :: last⟩], [';']⟩
  have hmatch : Rules.copyEdit.pattern.matchAt ⟨none, call ++ [';']⟩ = some h := by
    have hcall : call ++ [';'] =
        "Arrays.copyOf(".toList ++ (a.text ++ ',' :: ([' '] ++ last)) := by
      simp [call, last]
    have htext : textBetween (call ++ [';']) [';'] = call := textBetween_left _ _
    have hcomma : ∀ x ∈ a.text, (CharClass.except [',']).mem x = true := by
      intro x hx
      have hne : x ≠ ',' := by
        rintro rfl
        exact absurd (a.isWordText ',' hx) (by decide)
      simpa [CharClass.mem] using hne
    rw [hcall] at htext ⊢
    rw [matchAt, Rules.copyEdit, matchK_all_cons, lit, matchK_text, matchK_all_cons, matchK]
    refine (matchK_chars (.except [',']) _ a.text _ _ _ a.ne hcomma
      (stops_cons _ ',' _ (by decide))).trans ?_
    rw [matchK_all_cons]
    refine (matchK_char ',' _ _ _ _).trans ?_
    -- The blanks are a run that could give some back, but the name behind takes none.
    rw [matchK_all_cons, slack, matchK]
    refine runK_all .blank _ _ [' '] last (by decide)
      (ContainerShape.stops_blank_word n.text _ n.ne n.isWordText) h ?_
    rw [matchK_all_cons]
    refine (Rules.matchK_argument n _ [';'] _ _ 2).trans ?_
    rw [matchK_all_cons]
    refine (matchK_char ')' _ [';'] _ _).trans ?_
    exact congrArg (fun text => some (Hit.mk none text h.marks [';'])) htext
  have ha : h.group 1 = a.text := textBetween_left _ _
  have hn : h.group 2 = n.text := textBetween_left _ _
  rw [hline, Rules.copyEdit.apply_start call [';'] h hmatch rfl (by simp [call])
    (quiet_text 'A' _ _ _ _ _ (by decide))]
  simp [Edit.render, Rules.copyEdit, Part.render, ha, hn, phrase, Token.line]

theorem utility_edits_apart :
    (∀ e ∈ Rules.utilityEdits.drop 1,
        e.pattern.passes (Shape.outline [none, some ".Sort();"]) = true) ∧
      ∀ e ∈ Rules.utilityEdits.take 2, e.pattern.passes
        (Shape.outline [some "Arrays.copyOf(", none, some ", ", none, some ");"]) = true := by
  decide

theorem Rules.utilityEdits_sort_first : utilityEdits = [sortEdit] ++ utilityEdits.drop 1 := rfl

theorem Rules.utilityEdits_copy_last : utilityEdits = utilityEdits.take 2 ++ [copyEdit] := rfl

theorem Rules.collectionUtilities_calls (x a n : Identifier) :
    collectionUtilities (phrase ["Collections.sort(", x, ");"]) = phrase [x, ".Sort();"] ∧
      collectionUtilities (phrase ["Arrays.copyOf(", a, ", ", n, ");"]) =
        phrase ["Array.Copy(", a, ", ", n, ");"] := by
  have hsort : Edit.applyAll (utilityEdits.drop 1) (phrase [x, ".Sort();"]) =
      phrase [x, ".Sort();"] :=
    Edit.applyAll_absent _ _ fun e he =>
      absent_of_passes _ _ _ (utility_edits_apart.1 e he) (fits_phrase [x, ".Sort();"])
  have hcopy : Edit.applyAll (utilityEdits.take 2)
      (phrase ["Arrays.copyOf(", a, ", ", n, ");"]) =
        phrase ["Arrays.copyOf(", a, ", ", n, ");"] :=
    Edit.applyAll_absent _ _ fun e he =>
      absent_of_passes _ _ _ (utility_edits_apart.2 e he)
        (fits_phrase ["Arrays.copyOf(", a, ", ", n, ");"])
  constructor
  · rw [collectionUtilities, utilityEdits_sort_first, Edit.applyAll_append,
      Edit.applyAll_singleton, sortEdit_apply, hsort]
  · rw [collectionUtilities, utilityEdits_copy_last, Edit.applyAll_append, hcopy,
      Edit.applyAll_singleton, copyEdit_apply]

/-- The general mode, cut at the rules that a call of a helper sets off. -/
theorem general_rules_around_utilities : Mode.general.rules =
    Mode.general.rules.take 7 ++ ([.collectionUtilities] ++ ((Mode.general.rules.drop 8).take 12 ++
      ([.standaloneCalls] ++ Mode.general.rules.drop 21))) := rfl

structure UtilityFacts (source before : Shape) (name : String) (after : Shape) : Prop where
  idle : (Mode.general.rules.take 7).all source.isIdle = true
  idle_target : ((Mode.general.rules.drop 8).take 12 ++ Mode.general.rules.drop 21).all
    (before ++ some "." :: some name :: after).isIdle = true
  dotted : before.isDottedCall name after = true

theorem sort_facts : UtilityFacts [some "Collections.sort(", none, some ");"] [none] "Sort"
    [some "();"] := by
  constructor <;> decide +kernel

theorem copy_facts : UtilityFacts [some "Arrays.copyOf(", none, some ", ", none, some ");"]
    [some "Array"] "Copy" [some "(", none, some ", ", none, some ");"] := by
  constructor <;> decide +kernel

theorem turns_utilities (index : Index) (ts before : List Token) (name : String)
    (after : List Token) (line : Line)
    (h : UtilityFacts (shape ts) (shape before) name (shape after))
    (hline : line = phrase (before ++ .text "." :: .text name :: after))
    (hutilities : Rules.collectionUtilities (phrase ts) = line) :
    Turns index Mode.general.rules (phrase ts) line := by
  let target : List Token := before ++ .text "." :: .text name :: after
  have hshape : shape before ++ some "." :: some name :: shape after = shape target := by
    simp [target, shape, Token.fixed]
  have htarget := h.idle_target
  rw [hshape, List.all_append, Bool.and_eq_true] at htarget
  have hcalls : Rules.standaloneCalls line = line := by
    rw [hline]
    exact Rules.standaloneCalls_dotted before name after h.dotted
  have hbefore : Turns index (Mode.general.rules.take 7) (phrase ts) (phrase ts) :=
    .phrase ts _ h.idle
  have hbehind : Turns index ((Mode.general.rules.drop 8).take 12) line line := by
    rw [hline]
    exact .phrase target _ htarget.1
  have hlast : Turns index (Mode.general.rules.drop 21) line line := by
    rw [hline]
    exact .phrase target _ htarget.2
  rw [general_rules_around_utilities]
  refine hbefore.append ((Turns.single (fun _ => rfl) hutilities).append ?_)
  exact hbehind.append ((Turns.single (fun _ => rfl) hcalls).append hlast)

def staticCall (receiver method : String) (arguments : List Token) : List Token :=
  receiver :: "." :: method :: "(" :: (arguments ++ [.text ");"])

def staticShape (receiver method : String) (arguments : Shape) : Shape :=
  some receiver :: some "." :: some method :: some "(" :: (arguments ++ [some ");"])

theorem shape_staticCall (receiver method : String) (arguments : List Token) :
    shape (staticCall receiver method arguments) =
      staticShape receiver method (shape arguments) := by
  simp [shape, staticCall, staticShape, Token.fixed]

theorem domain_rules_around_calls : Mode.domain.rules =
    Mode.domain.rules.take 4 ++ ([.callCasing] ++ ([.standaloneCalls] ++
      ((Mode.domain.rules.drop 6).take 4 ++ pluginRules))) := rfl

structure ScriptFacts (receiver method renamed : String) (arguments : Shape) : Prop where
  receiver_word : receiver.toList.all Unicode.isWord = true
  receiver_head : receiver.toList.head?.any (fun c => !Unicode.isBlank c && c != 'i') = true
  method_name : method.toList.head?.any Char.isLower = true ∧
    method.toList.all Unicode.isWord = true
  renamed_eq : renamed.toList = Casing.capitalizeFirst method.toList
  idle : (Mode.domain.rules.take 4).all (staticShape receiver method arguments).isIdle = true
  idle_renamed : ((Mode.domain.rules.drop 6).take 4).all
    (staticShape receiver renamed arguments).isIdle = true
  one_call : Rules.memberCall.pattern.misses none (Shape.outline (arguments ++ [some ");"])) [] =
    true
  dotted : Shape.isDottedCall [some receiver] renamed
    (some "(" :: (arguments ++ [some ");"])) = true
  plugin : PluginFacts (staticShape receiver renamed arguments)

theorem sort_script_facts : ScriptFacts "Collections" "sort" "Sort" [none] := by
  have hplugin : PluginFacts (staticShape "Collections" "Sort" [none]) := by
    constructor <;> decide +kernel
  refine ⟨?_, ?_, ?_, ?_, ?_, ?_, ?_, ?_, hplugin⟩ <;> decide +kernel

theorem copy_script_facts : ScriptFacts "Arrays" "copyOf" "CopyOf" [none, some ", ", none] := by
  have hplugin : PluginFacts (staticShape "Arrays" "CopyOf" [none, some ", ", none]) := by
    constructor <;> decide +kernel
  refine ⟨?_, ?_, ?_, ?_, ?_, ?_, ?_, ?_, hplugin⟩ <;> decide +kernel

section
variable {receiver method renamed : String} {arguments : List Token}
  (h : ScriptFacts receiver method renamed (shape arguments))
include h

theorem callCasing_staticCall : Rules.callCasing (phrase (staticCall receiver method arguments)) =
    phrase (staticCall receiver renamed arguments) := by
  have hne : receiver.toList ≠ [] := by
    intro hnil
    have hhead := h.receiver_head
    rw [hnil] at hhead
    exact nomatch hhead
  have hafter := h.one_call
  rw [show shape arguments ++ [some ");"] = shape (arguments ++ [.text ");"]) from
    (shape_append arguments [.text ");"]).symm] at hafter
  have hreceiver : (Token.text receiver).line ≠ [] ∧ IsWordText (Token.text receiver).line :=
    ⟨hne, isWordText_of_all _ h.receiver_word⟩
  have hcasing := Rules.callCasing_phrase [] receiver method renamed (arguments ++ [.text ");"]) rfl
    hreceiver h.method_name h.renamed_eq rfl hafter
  exact hcasing

theorem standaloneCalls_staticCall :
    Rules.standaloneCalls (phrase (staticCall receiver renamed arguments)) =
      phrase (staticCall receiver renamed arguments) := by
  have hdotted := h.dotted
  rw [show some "(" :: (shape arguments ++ [some ");"]) =
      shape (.text "(" :: (arguments ++ [.text ");"])) by simp [shape, Token.fixed]] at hdotted
  exact Rules.standaloneCalls_dotted [.text receiver] renamed _ hdotted

theorem turns_plugin_staticCall (index : Index)
    (hnames : ∀ n, .name n ∈ arguments → n.IsPlain) :
    Turns index pluginRules (phrase (staticCall receiver renamed arguments))
      (phrase (staticCall receiver renamed arguments)) := by
  let target := staticCall receiver renamed arguments
  have hfacts : PluginFacts (shape target) := by
    rw [shape_staticCall]
    exact h.plugin
  have hnames' : ∀ n, .name n ∈ target → n.IsPlain := fun n hn =>
    hnames n (by simpa [target, staticCall] using hn)
  have hlast : (phrase target).getLast?.any Unicode.isBlank = false := by
    have hend : phrase target =
        phrase (receiver :: "." :: renamed :: "(" :: arguments) ++ [')', ';'] := by
      simp [target, phrase, staticCall, Token.line]
    simp [hend, Unicode.isBlank]
  have hsplit : phrase target = receiver.toList ++ phrase target.tail := rfl
  have hhead := h.receiver_head
  cases hr : receiver.toList with
  | nil =>
    rw [hr] at hhead
    exact absurd hhead Bool.false_ne_true
  | cons c rest =>
    rw [hr] at hhead hsplit
    have hc : Unicode.isBlank c = false ∧ c ≠ 'i' := by simpa using hhead
    exact turns_plugin target hfacts index hnames' c _ hsplit hc.1 hc.2 hlast

/-- In a plugin script a call on a class is capitalized and nothing else. -/
theorem turns_staticCall (index : Index) (hnames : ∀ n, .name n ∈ arguments → n.IsPlain) :
    Turns index Mode.domain.rules (phrase (staticCall receiver method arguments))
      (phrase (staticCall receiver renamed arguments)) := by
  let source := staticCall receiver method arguments
  let target := staticCall receiver renamed arguments
  have hidle : (Mode.domain.rules.take 4).all (shape source).isIdle = true := by
    rw [shape_staticCall]
    exact h.idle
  have hidle' : ((Mode.domain.rules.drop 6).take 4).all (shape target).isIdle = true := by
    rw [shape_staticCall]
    exact h.idle_renamed
  have hopening : Turns index (Mode.domain.rules.take 4) (phrase source) (phrase source) :=
    .phrase source _ hidle
  have hbehind : Turns index ((Mode.domain.rules.drop 6).take 4) (phrase target)
      (phrase target) := .phrase target _ hidle'
  -- When the rule for helpers has its turn, the call is already renamed.
  rw [domain_rules_around_calls]
  refine hopening.append ((Turns.single (fun _ => rfl) (callCasing_staticCall h)).append ?_)
  refine (Turns.single (fun _ => rfl) (standaloneCalls_staticCall h)).append ?_
  exact hbehind.append (turns_plugin_staticCall h index hnames)

theorem domain_body_staticCall (hnames : ∀ n, .name n ∈ arguments → n.IsPlain) :
    (Conversion.ofMode .domain).body [phrase (staticCall receiver method arguments)] =
      [phrase (staticCall receiver renamed arguments)] := by
  refine Conversion.body_single _ _ _ (turns_staticCall h _ hnames) ?_
  exact List.any_eq_true.2 ⟨';', by simp [phrase, staticCall, Token.line], by decide⟩

end

/-- Only the general mode rewrites calls of the collection helpers. Plugin scripts keep them
with capitalized names. -/
theorem helpers_rewritten_in_general_mode (x a n : Identifier) :
    let general := (Conversion.ofMode .general).body
    let domain := (Conversion.ofMode .domain).body
    let sort := phrase ["Collections.sort(", x, ");"]
    let copy := phrase ["Arrays.copyOf(", a, ", ", n, ");"]
    general [sort] = [phrase [x, ".Sort();"]] ∧
      general [copy] = [phrase ["Array.Copy(", a, ", ", n, ");"]] ∧
      (x.IsPlain → domain [sort] = [phrase ["Collections.Sort(", x, ");"]]) ∧
      (a.IsPlain → n.IsPlain →
        domain [copy] = [phrase ["Arrays.CopyOf(", a, ", ", n, ");"]]) := by
  intro general domain sort copy
  obtain ⟨hsort, hcopy⟩ := Rules.collectionUtilities_calls x a n
  have hsort' : phrase (staticCall "Collections" "sort" [x]) = sort ∧
      phrase (staticCall "Collections" "Sort" [x]) = phrase ["Collections.Sort(", x, ");"] := by
    simp [phrase, staticCall, Token.line, sort]
  have hcopy' : phrase (staticCall "Arrays" "copyOf" [a, ", ", n]) = copy ∧
      phrase (staticCall "Arrays" "CopyOf" [a, ", ", n]) =
        phrase ["Arrays.CopyOf(", a, ", ", n, ");"] := by
    simp [phrase, staticCall, Token.line, copy]
  refine ⟨?_, ?_, fun hx => ?_, fun ha hn => ?_⟩
  · refine Conversion.body_single _ _ _ ?_ (by simp [phrase, Token.line, Unicode.isBlank])
    exact turns_utilities _ _ [x] "Sort" ["();"] _ sort_facts (by simp [phrase, Token.line]) hsort
  · refine Conversion.body_single _ _ _ ?_ (by simp [phrase, Token.line, Unicode.isBlank])
    exact turns_utilities _ _ ["Array"] "Copy" ["(", a, ", ", n, ");"] _ copy_facts
      (by simp [phrase, Token.line]) hcopy
  · rw [← hsort'.1, ← hsort'.2]
    exact domain_body_staticCall sort_script_facts (by simpa using hx)
  · rw [← hcopy'.1, ← hcopy'.2]
    have hnames : ∀ m, Token.name m ∈ [.name a, .text ", ", .name n] → m.IsPlain := by
      intro m hm
      have hname : m = a ∨ m = n := by simpa using hm
      rcases hname with rfl | rfl
      · exact ha
      · exact hn
    exact domain_body_staticCall copy_script_facts hnames

def itemsName : Identifier where
  text := "items".toList
  form := ⟨'i', "tems".toList, rfl, by decide, by decide⟩
  free := by unfold IsReserved; decide +kernel

def bufferName : Identifier where
  text := "buffer".toList
  form := ⟨'b', "uffer".toList, rfl, by decide, by decide⟩
  free := by unfold IsReserved; decide +kernel

def sizeName : Identifier where
  text := "size2".toList
  form := ⟨'s', "ize2".toList, rfl, by decide, by decide⟩
  free := by unfold IsReserved; decide +kernel

/-- The two helpers in a plugin script. -/
theorem helpers_in_plugin_script :
    let domain := (Conversion.ofMode .domain).body
    (itemsName.IsPlain ∧
        domain ["Collections.sort(items);".toList] = ["Collections.Sort(items);".toList]) ∧
      bufferName.IsPlain ∧ sizeName.IsPlain ∧
        domain ["Arrays.copyOf(buffer, size2);".toList] =
          ["Arrays.CopyOf(buffer, size2);".toList] := by
  intro domain
  obtain ⟨-, -, hsort, hcopy⟩ := helpers_rewritten_in_general_mode itemsName bufferName sizeName
  have hitems : itemsName.IsPlain := by unfold Identifier.IsPlain; decide +kernel
  have hbuffer : bufferName.IsPlain := by unfold Identifier.IsPlain; decide +kernel
  have hsize : sizeName.IsPlain := by unfold Identifier.IsPlain; decide +kernel
  exact ⟨⟨hitems, hsort hitems⟩, hbuffer, hsize, hcopy hbuffer hsize⟩

/-- What the general mode writes for a helper is not written in a plugin script. -/
theorem plugin_script_keeps_helpers :
    let domain := (Conversion.ofMode .domain).body
    let sort := "Collections.sort(x);".toList
    let copy := "Arrays.copyOf(a, n);".toList
    domain [sort] = ["Collections.Sort(x);".toList] ∧ domain [sort] ≠ ["x.Sort();".toList] ∧
      domain [copy] = ["Arrays.CopyOf(a, n);".toList] ∧
      domain [copy] ≠ ["Array.Copy(a, n);".toList] := by
  intro domain sort copy
  have hsort : domain [sort] = ["Collections.Sort(x);".toList] := by decide +kernel
  have hcopy : domain [copy] = ["Arrays.CopyOf(a, n);".toList] := by decide +kernel
  rw [hsort, hcopy]
  decide

end JvsSharp
