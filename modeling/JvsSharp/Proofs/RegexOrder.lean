import JvsSharp.Proofs.CallNames

/-!
# Regular expressions come too late

The rule for regular expressions knows the calls by the names that they have
in the source. By itself it rewrites a declaration as a whole. In the general
mode the names of calls are capitalized before it has its turn, so that it
finds nothing any more and the declaration keeps its type.
-/

set_option autoImplicit false

namespace JvsSharp
open Pattern

structure CallLine where
  type : String
  name : Identifier
  receiver : Token
  argument : Identifier

namespace CallLine

def before (l : CallLine) : List Token := [l.type, " ", l.name, " = "]

def after (l : CallLine) : List Token := [l.argument, ");"]

def tokens (l : CallLine) (method : String) : List Token :=
  l.before ++ l.receiver :: "." :: method :: "(" :: l.after

end CallLine

def callShape (receiver : Option String) (method : String) : Shape :=
  [receiver, some ".", some method, some "(", none, some ");"]

def lineShape (type : String) (receiver : Option String) (method : String) : Shape :=
  [some type, some " ", none, some " = "] ++ callShape receiver method

def openingRules : List Rule :=
  [.diamondInference, .enhancedFor, .inheritance, .primitiveTypes, .scannerInput,
   .collectionDeclarations, .collectionInstantiations, .collectionUtilities, .mapMethods]

def headerRules : List Rule := [.consoleOutput, .mainSignature, .typeNames, .methodNames]

def fixedRules : List Rule :=
  [.constants, .publicFields, .namespaceHeader, .fileWriter, .patternMatcher]

def closingRules : List Rule := [.finalClass, .finalField, .override]

def laterRules : List Rule :=
  headerRules ++ ([.callCasing] ++ (fixedRules ++ ([.standaloneCalls] ++ closingRules)))

theorem general_rules_around_imports :
    Mode.general.rules = openingRules ++ ([.imports] ++ laterRules) := rfl

structure CallFacts (type : String) (receiver : Option String) (method renamed : String) :
    Prop where
  type_shown : type.toList.any (fun c => !Unicode.isBlank c) = true
  type_no_import : 'i' ∉ type.toList
  receiver_word : receiver.all (fun s => !s.toList.isEmpty && s.toList.all Unicode.isWord) = true
  method_name : method.toList.head?.any Char.isLower = true ∧
    method.toList.all Unicode.isWord = true
  renamed_eq : renamed.toList = Casing.capitalizeFirst method.toList
  idle : (openingRules ++ headerRules).all (lineShape type receiver method).isIdle = true
  idle_renamed : (fixedRules ++ closingRules).all (lineShape type receiver renamed).isIdle = true
  no_library : ∀ e ∈ Rules.importEdits.take 3,
    e.pattern.passes (lineShape type receiver method).outline = true
  no_import : Rules.otherImport.pattern.misses none
    (Shape.outline (some " = " :: callShape receiver method)) [] = true
  one_call : Rules.memberCall.pattern.misses none
    (Shape.outline [some type, some " ", none, some " = "])
    (callShape receiver method).outline = true
  dotted : Shape.isDottedCall [some type, some " ", none, some " = ", receiver] renamed
    [some "(", none, some ");"] = true
  idle_stem : laterRules.all (Shape.outline [some type, some " ", none]).isIdle = true

theorem compile_facts : CallFacts "Pattern" (some "Pattern") "compile" "Compile" := by
  constructor <;> decide +kernel

theorem matcher_facts : CallFacts "Matcher" none "matcher" "Matcher" := by
  constructor <;> decide +kernel

theorem argument_no_call :
    Rules.memberCall.pattern.misses none (Shape.outline [none, some ");"]) [] = true := by
  decide

namespace CallLine

variable (l : CallLine) {method renamed : String}
  (h : CallFacts l.type l.receiver.fixed method renamed)
include h

theorem receiver_word : l.receiver.line ≠ [] ∧ IsWordText l.receiver.line := by
  have hword := h.receiver_word
  cases hr : l.receiver with
  | text s =>
    rw [hr] at hword
    have hs : (!s.toList.isEmpty && s.toList.all Unicode.isWord) = true := hword
    rw [Bool.and_eq_true, Bool.not_eq_true', List.isEmpty_eq_false_iff] at hs
    exact ⟨hs.1, isWordText_of_all _ hs.2⟩
  | name n => exact ⟨n.ne, n.isWordText⟩

theorem turns_callCasing (index : Index) :
    Turns index [.callCasing] (phrase (l.tokens method)) (phrase (l.tokens renamed)) := by
  have hout : (behind none (phrase l.before)).any Unicode.isWord = false := by
    have hline : phrase l.before = (l.type.toList ++ (' ' :: l.name.text)) ++ " = ".toList := by
      simp [phrase, before, Token.line]
    rw [hline, behind_append]
    rfl
  exact .single (fun _ => rfl) (Rules.callCasing_phrase l.before l.receiver method renamed l.after
    hout (l.receiver_word h) h.method_name h.renamed_eq h.one_call argument_no_call)

theorem turns_standaloneCalls (index : Index) :
    Turns index [.standaloneCalls] (phrase (l.tokens renamed)) (phrase (l.tokens renamed)) := by
  let opened : List Token := "(" :: l.after
  have htokens : l.tokens renamed =
      (l.before ++ [l.receiver]) ++ .text "." :: .text renamed :: opened := by
    simp [tokens, opened]
  rw [htokens]
  exact .single (fun _ => rfl) (Rules.standaloneCalls_dotted _ renamed _ h.dotted)

theorem turns_later (index : Index) :
    Turns index laterRules (phrase (l.tokens method)) (phrase (l.tokens renamed)) := by
  have hidle := h.idle
  have hrenamed := h.idle_renamed
  rw [List.all_append, Bool.and_eq_true] at hidle hrenamed
  have hheader : Turns index headerRules (phrase (l.tokens method)) (phrase (l.tokens method)) :=
    .phrase _ _ hidle.2
  have hfixed : Turns index fixedRules (phrase (l.tokens renamed)) (phrase (l.tokens renamed)) :=
    .phrase _ _ hrenamed.1
  have hclosing : Turns index closingRules (phrase (l.tokens renamed))
      (phrase (l.tokens renamed)) := .phrase _ _ hrenamed.2
  exact hheader.append ((l.turns_callCasing h index).append (hfixed.append
    ((l.turns_standaloneCalls h index).append hclosing)))

theorem no_library : Edit.applyAll (Rules.importEdits.take 3) (phrase (l.tokens method)) =
    phrase (l.tokens method) :=
  Edit.applyAll_absent _ _ fun e he => absent_of_passes _ _ _ (h.no_library e he)
    (fits_phrase (l.tokens method))

theorem quiet_type (rest : Line) :
    Quiet Rules.otherImport.pattern none (l.type.toList ++ [' ']) rest := by
  refine quiet_text 'i' _ _ none _ rest fun hmem => ?_
  rcases List.mem_append.1 hmem with hmem | hmem
  · exact h.type_no_import hmem
  · exact absurd hmem (by decide)

/-- A name that does not end in `import` keeps its line. -/
theorem imports_keep (himport : ¬"import".toList <:+ l.name.text) :
    Rules.imports (phrase (l.tokens method)) = phrase (l.tokens method) := by
  let value : List Token := l.receiver :: "." :: method :: "(" :: l.after
  have hline : phrase (l.tokens method) =
      (l.type.toList ++ [' ']) ++ (l.name.text ++ (" = ".toList ++ phrase value)) := by
    simp [phrase, tokens, before, value, Token.line]
  have hvalue : ∀ b, Quiet Rules.otherImport.pattern b (" = ".toList ++ phrase value) [] := fun b =>
    quiet_of_misses _ none _ [] h.no_import b _ [] (View.knows_none b)
      (fits_phrase (" = " :: value)) rfl
  have hlibrary := l.no_library h
  rw [hline] at hlibrary ⊢
  exact Rules.imports_keep_word _ _ _ hlibrary (l.quiet_type h _) l.name.isWordText himport hvalue

theorem imports_cut (stem : Line) (hstem : l.name.text = stem ++ "import".toList) :
    Rules.imports (phrase (l.tokens method)) = l.type.toList ++ [' '] ++ stem := by
  let call : List Token := [l.receiver, ".", method, "(", l.argument]
  let rest : Line := "= ".toList ++ phrase call ++ [')']
  have hline : phrase (l.tokens method) =
      (l.type.toList ++ [' ']) ++ (stem ++ ("import ".toList ++ (rest ++ [';']))) := by
    simp [phrase, tokens, before, after, rest, call, Token.line, hstem]
  have hword : ∀ w : Line, IsWordText w → '\n' ∉ w := fun w hw hmem =>
    absurd (hw '\n' hmem) (by decide)
  have hrest : '\n' ∉ rest := by
    have hmethod := hword _ (isWordText_of_all _ h.method_name.2)
    have hreceiver := hword _ (l.receiver_word h).2
    have hargument := hword _ l.argument.isWordText
    simpa [rest, call, phrase, Token.line, hmethod, hargument] using hreceiver
  have hstem' : IsWordText stem := fun c hc => l.name.isWordText c (by simp [hstem, hc])
  have hlibrary := l.no_library h
  rw [hline] at hlibrary ⊢
  exact Rules.imports_cut_word _ _ _ hlibrary (l.quiet_type h _) hstem' (by simp [rest]) hrest

theorem turns_renamed (index : Index) (himport : ¬"import".toList <:+ l.name.text) :
    Turns index Mode.general.rules (phrase (l.tokens method)) (phrase (l.tokens renamed)) := by
  have hidle := h.idle
  rw [List.all_append, Bool.and_eq_true] at hidle
  have hopening : Turns index openingRules (phrase (l.tokens method)) (phrase (l.tokens method)) :=
    .phrase _ _ hidle.1
  have himports : Turns index [.imports] (phrase (l.tokens method)) (phrase (l.tokens method)) :=
    .single (fun _ => rfl) (l.imports_keep h himport)
  rw [general_rules_around_imports]
  exact hopening.append (himports.append (l.turns_later h index))

theorem turns_stem (index : Index) (stem : Line)
    (hstem : l.name.text = stem ++ "import".toList) :
    Turns index Mode.general.rules (phrase (l.tokens method))
      (l.type.toList ++ [' '] ++ stem) := by
  have hidle := h.idle
  rw [List.all_append, Bool.and_eq_true] at hidle
  have hopening : Turns index openingRules (phrase (l.tokens method)) (phrase (l.tokens method)) :=
    .phrase _ _ hidle.1
  have himports : Turns index [.imports] (phrase (l.tokens method))
      (l.type.toList ++ [' '] ++ stem) := .single (fun _ => rfl) (l.imports_cut h stem hstem)
  have hfits : (Shape.outline [some l.type, some " ", none]).Fits
      (l.type.toList ++ [' '] ++ stem) := by
    rw [List.append_assoc]
    exact (Outline.fits_lit _).append
      ((Outline.fits_lit [' ']).append (Outline.fits_stem_of_import l.name stem hstem))
  have hlater : Turns index laterRules (l.type.toList ++ [' '] ++ stem)
      (l.type.toList ++ [' '] ++ stem) :=
    .all fun r hr => .outline _ hfits r (List.all_eq_true.1 h.idle_stem r hr)
  rw [general_rules_around_imports]
  exact hopening.append (himports.append hlater)

end CallLine

section
variable {α : Type} (n : Identifier) (b : Option Char) (rest : Line) (m : List Mark)
  (f : Place → List Mark → Option α)

/-- What the two patterns have in common takes the text before the value. -/
theorem matchK_declared (type : String) (ps : List Pattern) (hrest : Stops .blank rest) :
    (all (type :: space :: .group 1 word :: gap :: "=" :: gap :: ps)).matchK
        ⟨b, type.toList ++ ' ' :: (n.text ++ (" = ".toList ++ rest))⟩ m f =
      (all ps).matchK ⟨some ' ', rest⟩
        (⟨1, n.text ++ (" = ".toList ++ rest), " = ".toList ++ rest⟩ :: m) f := by
  have hequals : " = ".toList = [' ', '=', ' '] := by decide
  rw [hequals, matchK_all_cons, lit, matchK_text, matchK_all_cons]
  refine (matchK_chars .blank _ [' '] _ m _ (by simp) (by decide)
    (ContainerShape.stops_blank_word n.text _ n.ne n.isWordText)).trans ?_
  rw [matchK_all_cons, matchK]
  refine (matchK_chars .word _ n.text _ m _ n.ne n.isWordText
    (stops_cons _ ' ' _ (by decide))).trans ?_
  rw [matchK_all_cons]
  refine (matchK_span .blank _ [' '] _ _ _ (by decide) (stops_cons _ '=' _ (by decide))).trans ?_
  rw [matchK_all_cons]
  refine (matchK_char '=' _ _ _ _).trans ?_
  rw [matchK_all_cons]
  exact matchK_span .blank _ [' '] rest _ _ (by decide) hrest

end

theorem compileEdit_apply (p x : Identifier) :
    Rules.compileEdit.apply (phrase ["Pattern ", p, " = Pattern.compile(", x, ");"]) =
      phrase ["Regex ", p, " = new Regex(", x, ");"] := by
  let call : Line := "Pattern.compile(".toList ++ (x.text ++ ");".toList)
  let line : Line := "Pattern".toList ++ ' ' :: (p.text ++ (" = ".toList ++ call))
  have hline : phrase ["Pattern ", p, " = Pattern.compile(", x, ");"] = line := by
    simp [phrase, Token.line, line, call]
  let h : Hit := ⟨none, line, [⟨2, x.text ++ ");".toList, ");".toList⟩,
    ⟨1, p.text ++ (" = ".toList ++ call), " = ".toList ++ call⟩], []⟩
  have hmatch : Rules.compileEdit.pattern.matchAt ⟨none, line⟩ = some h := by
    rw [matchAt, Rules.compileEdit]
    refine (matchK_declared p none call [] _ "Pattern" _ (stops_cons _ 'P' _ (by decide))).trans ?_
    rw [matchK_all_cons, lit, matchK_text, matchK_all_cons]
    refine (Rules.matchK_argument x _ [';'] _ _ 2).trans ?_
    rw [matchK_all_cons]
    refine (matchK_text ");".toList _ [] _ _).trans ?_
    exact congrArg (fun text => some (Hit.mk none text h.marks [])) (textBetween_nil line)
  have hp : h.group 1 = p.text := textBetween_left _ _
  have hx : h.group 2 = x.text := textBetween_left _ _
  have happly := Rules.compileEdit.apply_start line [] h (by rwa [List.append_nil]) rfl
    (by simp [line]) trivial
  rw [List.append_nil, List.append_nil] at happly
  rw [hline, happly]
  simp [Edit.render, Rules.compileEdit, Part.render, hp, hx, phrase, Token.line]

theorem matcherEdit_apply (m p s : Identifier) :
    Rules.matcherEdit.apply (phrase ["Matcher ", m, " = ", p, ".matcher(", s, ");"]) =
      phrase ["MatchCollection ", m, " = ", p, ".Matches(", s, ");"] := by
  let call : Line := p.text ++ (".matcher(".toList ++ (s.text ++ ");".toList))
  let line : Line := "Matcher".toList ++ ' ' :: (m.text ++ (" = ".toList ++ call))
  have hline : phrase ["Matcher ", m, " = ", p, ".matcher(", s, ");"] = line := by
    simp [phrase, Token.line, line, call]
  let h : Hit := ⟨none, line, [⟨3, s.text ++ ");".toList, ");".toList⟩,
    ⟨2, call, ".matcher(".toList ++ (s.text ++ ");".toList)⟩,
    ⟨1, m.text ++ (" = ".toList ++ call), " = ".toList ++ call⟩], []⟩
  have hmatch : Rules.matcherEdit.pattern.matchAt ⟨none, line⟩ = some h := by
    rw [matchAt, Rules.matcherEdit]
    refine (matchK_declared m none call [] _ "Matcher" _
      (ContainerShape.stops_blank_word p.text _ p.ne p.isWordText)).trans ?_
    rw [matchK_all_cons, matchK]
    refine (matchK_chars .word _ p.text _ _ _ p.ne p.isWordText
      (stops_cons _ '.' _ (by decide))).trans ?_
    rw [matchK_all_cons]
    refine (matchK_text ".matcher(".toList _ _ _ _).trans ?_
    rw [matchK_all_cons]
    refine (Rules.matchK_argument s _ [';'] _ _ 3).trans ?_
    rw [matchK_all_cons]
    refine (matchK_text ");".toList _ [] _ _).trans ?_
    exact congrArg (fun text => some (Hit.mk none text h.marks [])) (textBetween_nil line)
  have hm : h.group 1 = m.text := textBetween_left _ _
  have hp : h.group 2 = p.text := textBetween_left _ _
  have hs : h.group 3 = s.text := textBetween_left _ _
  have happly := Rules.matcherEdit.apply_start line [] h (by rwa [List.append_nil]) rfl
    (by simp [line]) trivial
  rw [List.append_nil, List.append_nil] at happly
  rw [hline, happly]
  simp [Edit.render, Rules.matcherEdit, Part.render, hm, hp, hs, phrase, Token.line]

theorem regex_edits_apart :
    Rules.matcherEdit.pattern.passes
        (Shape.outline [some "Regex ", none, some " = new Regex(", none, some ");"]) = true ∧
      Rules.compileEdit.pattern.passes (Shape.outline
        [some "Matcher ", none, some " = ", none, some ".matcher(", none, some ");"]) = true := by
  decide

/-- By itself the rule rewrites both declarations. -/
theorem Rules.patternMatcher_declarations (p m s x : Identifier) :
    Rules.patternMatcher (phrase ["Pattern ", p, " = Pattern.compile(", x, ");"]) =
        phrase ["Regex ", p, " = new Regex(", x, ");"] ∧
      Rules.patternMatcher (phrase ["Matcher ", m, " = ", p, ".matcher(", s, ");"]) =
        phrase ["MatchCollection ", m, " = ", p, ".Matches(", s, ");"] := by
  have hregex := Rules.matcherEdit.apply_absent _ (absent_of_passes _ _ _ regex_edits_apart.1
    (fits_phrase ["Regex ", p, " = new Regex(", x, ");"]))
  have hmatcher := Rules.compileEdit.apply_absent _ (absent_of_passes _ _ _ regex_edits_apart.2
    (fits_phrase ["Matcher ", m, " = ", p, ".matcher(", s, ");"]))
  rw [Rules.patternMatcher, Rules.patternMatcher, Rules.regexDeclarations]
  simp only [Edit.applyAll, List.foldl_cons, List.foldl_nil]
  rw [compileEdit_apply, hregex, hmatcher, matcherEdit_apply]
  exact ⟨rfl, rfl⟩

namespace CallLine

theorem run_general (l : CallLine) {method renamed : String}
    (h : CallFacts l.type l.receiver.fixed method renamed) :
    let run := (Conversion.ofMode .general).run [phrase (l.tokens method)]
    (¬"import".toList <:+ l.name.text → run = [phrase (l.tokens renamed)]) ∧
      ∀ stem, l.name.text = stem ++ "import".toList → run = [l.type.toList ++ [' '] ++ stem] := by
  intro run
  have hbody : ∀ line, Turns (Index.build [phrase (l.tokens method)]) Mode.general.rules
      (phrase (l.tokens method)) line → line.any (fun d => !Unicode.isBlank d) = true →
      run = [line] := by
    intro line hturns hblank
    have hsingle := (Conversion.ofMode .general).body_single _ line hturns hblank
    simpa [run, Conversion.run, Conversion.ofMode, Conversion.closing] using hsingle
  have hshown : ∀ rest, (l.type.toList ++ rest).any (fun d => !Unicode.isBlank d) = true :=
    fun rest => by rw [List.any_append, h.type_shown, Bool.true_or]
  constructor
  · intro himport
    exact hbody _ (l.turns_renamed h _ himport) (hshown _)
  · intro stem hstem
    refine hbody _ (l.turns_stem h _ stem hstem) ?_
    rw [List.append_assoc]
    exact hshown _

end CallLine

/-- The declarations of a regular expression and of its matches keep their types in the
general mode: only the call is capitalized, which hides it from the rule that would rewrite
the line. A name that ends in `import` loses its declaration altogether. -/
theorem regex_declarations_keep_types (p m s x : Identifier) :
    let compile := phrase ["Pattern ", p, " = Pattern.compile(", x, ");"]
    let matcher := phrase ["Matcher ", m, " = ", p, ".matcher(", s, ");"]
    let run := fun line => (Conversion.ofMode .general).run [line]
    (Rules.patternMatcher compile = phrase ["Regex ", p, " = new Regex(", x, ");"] ∧
        Rules.patternMatcher matcher =
          phrase ["MatchCollection ", m, " = ", p, ".Matches(", s, ");"]) ∧
      ((¬"import".toList <:+ p.text →
          run compile = [phrase ["Pattern ", p, " = Pattern.Compile(", x, ");"]]) ∧
        ∀ stem, p.text = stem ++ "import".toList →
          run compile = ["Pattern ".toList ++ stem]) ∧
      ((¬"import".toList <:+ m.text →
          run matcher = [phrase ["Matcher ", m, " = ", p, ".Matcher(", s, ");"]]) ∧
        ∀ stem, m.text = stem ++ "import".toList →
          run matcher = ["Matcher ".toList ++ stem]) := by
  intro compile matcher run
  let declared : CallLine := ⟨"Pattern", p, "Pattern", x⟩
  let matched : CallLine := ⟨"Matcher", m, p, s⟩
  have hdeclared : phrase (declared.tokens "compile") = compile ∧
      phrase (declared.tokens "Compile") =
        phrase ["Pattern ", p, " = Pattern.Compile(", x, ");"] := by
    simp [phrase, Token.line, CallLine.tokens, CallLine.before, CallLine.after, declared, compile]
  have hmatched : phrase (matched.tokens "matcher") = matcher ∧
      phrase (matched.tokens "Matcher") =
        phrase ["Matcher ", m, " = ", p, ".Matcher(", s, ");"] := by
    simp [phrase, Token.line, CallLine.tokens, CallLine.before, CallLine.after, matched, matcher]
  have hcompile := declared.run_general compile_facts
  have hmatcher := matched.run_general matcher_facts
  rw [hdeclared.1, hdeclared.2] at hcompile
  rw [hmatched.1, hmatched.2] at hmatcher
  have htypes : "Pattern ".toList = "Pattern".toList ++ [' '] ∧
      "Matcher ".toList = "Matcher".toList ++ [' '] := by decide
  refine ⟨Rules.patternMatcher_declarations p m s x, ⟨hcompile.1, fun stem hstem => ?_⟩,
    hmatcher.1, fun stem hstem => ?_⟩
  · rw [htypes.1]
    exact hcompile.2 stem hstem
  · rw [htypes.2]
    exact hmatcher.2 stem hstem

def emailName : Identifier where
  text := "emailPattern".toList
  form := ⟨'e', "mailPattern".toList, rfl, by decide, by decide⟩
  free := by unfold IsReserved; decide +kernel

def importName : Identifier where
  text := "myimport".toList
  form := ⟨'m', "yimport".toList, rfl, by decide, by decide⟩
  free := by unfold IsReserved; decide +kernel

def lineName : Identifier where
  text := "line2".toList
  form := ⟨'l', "ine2".toList, rfl, by decide, by decide⟩
  free := by unfold IsReserved; decide +kernel

/-- One name of either kind. -/
theorem email_declarations :
    let run := fun line => (Conversion.ofMode .general).run [line]
    ¬"import".toList <:+ emailName.text ∧
      run "Pattern emailPattern = Pattern.compile(line2);".toList =
        ["Pattern emailPattern = Pattern.Compile(line2);".toList] ∧
      importName.text = "my".toList ++ "import".toList ∧
      run "Matcher myimport = emailPattern.matcher(line2);".toList = ["Matcher my".toList] := by
  intro run
  obtain ⟨-, hcompile, hmatcher⟩ :=
    regex_declarations_keep_types emailName importName lineName lineName
  have hemail : ¬"import".toList <:+ emailName.text := by decide
  have himport : importName.text = "my".toList ++ "import".toList := by decide
  exact ⟨hemail, hcompile.1 hemail, himport, hmatcher.2 "my".toList himport⟩

/-- The lines that the rule by itself would write are not written. -/
theorem regex_lines_not_written :
    let run := (Conversion.ofMode .general).run
    let compile := "Pattern p = Pattern.compile(x);".toList
    let matcher := "Matcher m = p.matcher(s);".toList
    run [compile] = ["Pattern p = Pattern.Compile(x);".toList] ∧
      run [compile] ≠ ["Regex p = new Regex(x);".toList] ∧
      run [matcher] = ["Matcher m = p.Matcher(s);".toList] ∧
      run [matcher] ≠ ["MatchCollection m = p.Matches(s);".toList] := by
  intro run compile matcher
  have hcompile : run [compile] = ["Pattern p = Pattern.Compile(x);".toList] := by decide +kernel
  have hmatcher : run [matcher] = ["Matcher m = p.Matcher(s);".toList] := by decide +kernel
  rw [hcompile, hmatcher]
  decide

end JvsSharp
