import JvsSharp.Document
import JvsSharp.Proofs.Caseless
import JvsSharp.Proofs.Lookup
import JvsSharp.Proofs.Piecewise

/-!
# One line of text for every line of output

No rule brings a newline into a line that has none: what it writes is fixed
text without newlines, pieces of the line, names in another case, or types
from the index, which are pieces of other lines. The lines of a source have no
newlines, so the newlines of the written text are those between its lines.
-/

set_option autoImplicit false

namespace JvsSharp

def Spares (d : Char) (xs ys : Line) : Prop := d ∉ xs → d ∉ ys

namespace Spares

variable {d : Char}

theorem piecewise (d : Char) : Piecewise (Spares d) where
  nil := id
  char _ := id
  append {xs xs' ys ys'} hx hy hmem := by
    rw [List.mem_append, not_or] at hmem ⊢
    exact ⟨hx hmem.1, hy hmem.2⟩

theorem trans {xs ys zs : Line} (h : Spares d xs ys) (h' : Spares d ys zs) : Spares d xs zs :=
  fun hmem => h' (h hmem)

theorem of_not_mem {xs ys : Line} (h : d ∉ ys) : Spares d xs ys := fun _ => h

theorem of_filter {xs ys : Line} (h : ys.filter (· == d) = xs.filter (· == d)) :
    Spares d xs ys := by
  intro hmem hin
  have hkept : d ∈ ys.filter (· == d) := List.mem_filter.2 ⟨hin, beq_self_eq_true d⟩
  rw [h] at hkept
  exact hmem (List.mem_filter.1 hkept).1

end Spares

def Part.Spares (d : Char) : Part → Prop
  | .text cs => d ∉ cs
  | .group _ => True
  | .mapped f _ => ∀ xs, JvsSharp.Spares d xs (f xs)

def Part.isPlain (d : Char) : Part → Bool
  | .text cs => !cs.contains d
  | .group _ => true
  | .mapped _ _ => false

namespace Edit

def Spares (d : Char) (e : Edit) : Prop := ∀ part ∈ e.template, part.Spares d

theorem spares_of_plain (d : Char) (e : Edit) (h : e.template.all (Part.isPlain d) = true) :
    e.Spares d := by
  intro part hpart
  have hplain := List.all_eq_true.1 h part hpart
  cases part with
  | text cs => simpa [Part.isPlain, Part.Spares] using hplain
  | group i => trivial
  | mapped f i => exact nomatch hplain

theorem render_spares (d : Char) (e : Edit) (he : e.Spares d) (c : Place) (h : Hit)
    (hm : e.pattern.matchAt c = some h) : JvsSharp.Spares d h.text (e.render h) := by
  intro hmem hin
  have hgroup : ∀ i, d ∉ h.group i := fun i hg =>
    hmem ((Pattern.group_infix _ c h hm i).subset hg)
  rw [render, List.mem_flatMap] at hin
  obtain ⟨part, hpart, hin⟩ := hin
  have hspares := he part hpart
  cases part with
  | text cs => exact hspares hin
  | group i => exact hgroup i hin
  | mapped f i => exact hspares (h.group i) (hgroup i) hin

theorem apply_spares (d : Char) (e : Edit) (he : e.Spares d) (line : Line) :
    JvsSharp.Spares d line (e.apply line) :=
  Pattern.replaceAll_piecewise (JvsSharp.Spares.piecewise d) (e.render_spares d he) line

theorem applyAll_spares (d : Char) (es : List Edit) (hes : ∀ e ∈ es, e.Spares d) (line : Line) :
    JvsSharp.Spares d line (applyAll es line) := by
  induction es generalizing line with
  | nil => exact id
  | cons e es ih =>
    exact (e.apply_spares d (hes e (by simp)) line).trans
      (ih (fun e' he' => hes e' (by simp [he'])) (e.apply line))

def arePlain (d : Char) (es : List Edit) : Bool := es.all fun e => e.template.all (Part.isPlain d)

theorem spares_of_arePlain (d : Char) (es : List Edit) (h : arePlain d es = true) :
    ∀ e ∈ es, e.Spares d := fun e he => e.spares_of_plain d (List.all_eq_true.1 h e he)

end Edit

namespace Newline

theorem isCaseless : Unicode.CaselessKind (· == '\n') := by
  intro d hd
  rw [beq_iff_eq] at hd
  exact hd ▸ Unicode.caseless_of_test '\n' (by decide)

theorem spares_primitiveKeyword (xs : Line) : Spares '\n' xs (Rules.primitiveKeyword xs) := by
  have hkeywords : ∀ p ∈ Rules.primitives, '\n' ∉ p.2.toList := by decide
  rw [Rules.primitiveKeyword]
  split
  · next p hp => exact .of_not_mem (hkeywords p (List.mem_of_find?_eq_some hp))
  · exact id

theorem spares_parsedKeyword (xs : Line) : Spares '\n' xs (Rules.parsedKeyword xs) := by
  refine .of_not_mem ?_
  rw [Rules.parsedKeyword]
  repeat' split
  all_goals decide

theorem spares_joinArguments (xs : Line) : Spares '\n' xs (Rules.joinArguments xs) := by
  intro hmem hin
  obtain ⟨c, hc, heq⟩ := List.mem_map.1 hin
  split at heq
  · exact absurd heq (by decide)
  · exact hmem (heq ▸ hc)

def mappingEdits : List Edit :=
  Rules.typeNameEdits ++ Rules.scannerEdits ++
    [Rules.primitiveWord, Rules.memberCall, Rules.constantWord, Rules.publicField,
     Rules.packageLine, Rules.bareCall, Rules.printCall, Rules.enumCast]

theorem spares_mappingEdits : ∀ e ∈ mappingEdits, e.Spares '\n' := by
  have hpascal : ∀ xs, Spares '\n' xs (Casing.pascal xs) := fun xs =>
    .of_filter (filter_pascal isCaseless xs)
  have hcapitalize : ∀ xs, Spares '\n' xs (Casing.capitalizeFirst xs) := fun xs =>
    .of_filter (filter_capitalizeFirst isCaseless xs)
  have hpath : ∀ xs, Spares '\n' xs (Casing.pascalPath xs) := fun xs =>
    .of_filter (filter_pascalPath isCaseless xs)
  have hconstant : ∀ xs, Spares '\n' xs (Rules.constantName xs) := fun xs =>
    .of_filter (filter_constantName isCaseless xs)
  have hcall : ∀ xs, Spares '\n' xs (Rules.bareCallName xs) := fun xs =>
    .of_filter (filter_bareCallName isCaseless xs)
  have hlower : ∀ xs, Spares '\n' xs (Unicode.lowerText xs) := fun xs =>
    .of_filter (filter_lowerText isCaseless xs)
  simp [mappingEdits, Edit.Spares, Part.Spares, Rules.typeNameEdits, Rules.scannerEdits,
    Rules.scannerDeclaration, Rules.typedRead, Rules.lineRead, Rules.primitiveWord,
    Rules.memberCall, Rules.constantWord, Rules.publicField, Rules.packageLine, Rules.bareCall,
    Rules.printCall, Rules.enumCast, hpascal, hcapitalize, hpath, hconstant, hcall, hlower,
    spares_primitiveKeyword, spares_parsedKeyword, spares_joinArguments]

theorem spares_substitutions : ∀ e ∈ Rules.substitutions, e.Spares '\n' := by
  have hcut : Rules.substitutions =
      Rules.substitutions.take 17 ++ Rules.enumCast :: Rules.substitutions.drop 18 := rfl
  have hplain := Edit.spares_of_arePlain '\n'
    (Rules.substitutions.take 17 ++ Rules.substitutions.drop 18) (by decide)
  intro e he
  rw [hcut, List.mem_append, List.mem_cons] at he
  rcases he with he | rfl | he
  · exact hplain e (by simp [he])
  · exact spares_mappingEdits _ (by simp [mappingEdits])
  · exact hplain e (by simp [he])

theorem spares_methodNames (line : Line) : Spares '\n' line (Rules.methodNames line) := by
  refine Pattern.replaceAll_piecewise (Spares.piecewise '\n') (fun c h hm hmem => ?_) line
  have hgroup : ∀ i, '\n' ∉ h.group i := fun i hg =>
    hmem ((Pattern.group_infix _ c h hm i).subset hg)
  have hname : '\n' ∉ Casing.pascal (h.group 3) :=
    Spares.of_filter (filter_pascal isCaseless _) (hgroup 3)
  split
  · exact hmem
  · simp [hgroup, hname]

theorem spares_inheritance (line : Line) : Spares '\n' line (Rules.inheritance line) := by
  refine Edit.applyAll_spares '\n' _ (Edit.spares_of_arePlain '\n' _ ?_) line
  rw [Rules.implementsSeparator]
  split <;> decide

theorem spares_trackOverride (s : Progress) : Spares '\n' s.line (Rules.trackOverride s).line := by
  rw [Rules.trackOverride]
  split
  · exact Edit.apply_spares '\n' _ (Edit.spares_of_plain '\n' _ (by decide)) s.line
  · split
    · exact Pattern.replaceFirst_piecewise (Spares.piecewise '\n')
        (Rules.overridable.render_spares '\n' (Edit.spares_of_plain '\n' _ (by decide))) s.line
    · exact id

theorem spares_stripImports (line : Line) : Spares '\n' line (Rules.stripImports line) := by
  rw [Rules.stripImports]
  split
  · exact .of_not_mem (by simp)
  · exact id

theorem spares_domainSubstitutions (line : Line) :
    Spares '\n' line (Rules.domainSubstitutions line) := by
  rw [Rules.domainSubstitutions]
  split
  · exact .of_not_mem (by decide)
  · exact Edit.applyAll_spares '\n' _ spares_substitutions line

theorem spares_trimStart (line : Line) : Spares '\n' line (Text.trimStart line) := fun hmem hin =>
  hmem ((List.dropWhile_suffix _).subset hin)

theorem spares_trimEnd (line : Line) : Spares '\n' line (Text.trimEnd line) := by
  intro hmem
  rw [Text.trimEnd, List.mem_reverse]
  exact spares_trimStart line.reverse (by rwa [List.mem_reverse])

theorem spares_primitiveTypes (line : Line) : Spares '\n' line (Rules.primitiveTypes line) :=
  Edit.apply_spares '\n' _ (spares_mappingEdits _ (by simp [mappingEdits])) line

theorem not_mem_elementTypes (s : ContainerShape) (c : Place) (h : Hit)
    (hm : (Index.declaration s).matchAt c = some h) (htext : '\n' ∉ h.text) :
    '\n' ∉ Index.elementTypes s h := by
  have htype : ∀ i, '\n' ∉ Rules.primitiveTypes (Text.trim (h.group i)) := fun i =>
    spares_primitiveTypes _ (spares_trimEnd _ (spares_trimStart _ fun hg =>
      htext ((Pattern.group_infix _ c h hm i).subset hg)))
  rw [Index.elementTypes]
  split
  · simp [htype]
  · exact htype 1

theorem not_mem_binding (lines : List Line) (hlines : ∀ line ∈ lines, '\n' ∉ line) (name : Line)
    (b : Binding) (hb : (Index.build lines).get? name = some b) :
    '\n' ∉ b.container.toList ∧ '\n' ∉ b.elementTypes := by
  rw [Index.get?_build] at hb
  obtain ⟨before, after, hds, -⟩ := List.lookup_eq_some_iff.1 hb
  have hmem : (name, b) ∈ lines.flatMap Index.declarations := by simp [hds]
  obtain ⟨line, hline, hmem⟩ := List.mem_flatMap.1 hmem
  obtain ⟨s, hs, hmem⟩ := List.mem_flatMap.1 hmem
  obtain ⟨h, hh, heq⟩ := List.mem_map.1 hmem
  cases heq
  have htargets : ∀ s ∈ ContainerShape.known, '\n' ∉ s.target.toList := by decide
  refine ⟨htargets s hs, ?_⟩
  rw [Pattern.hits_eq, List.mem_filterMap] at hh
  obtain ⟨segment, hsegment, hhit⟩ := hh
  cases segment with
  | plain c => exact nomatch hhit
  | hit g =>
    cases hhit
    obtain ⟨c, hc, hm⟩ := Pattern.segmentsFrom_matchAt _ none 0 line h hsegment
    refine not_mem_elementTypes s c h hm fun htext => hlines line hline (hc.subset ?_)
    rw [← Pattern.matchAt_text _ c h hm]
    exact List.mem_append_left _ htext

theorem spares_diamondInference (lines : List Line) (hlines : ∀ line ∈ lines, '\n' ∉ line)
    (line : Line) : Spares '\n' line (Rules.diamondInference (Index.build lines) line) := by
  refine Pattern.replaceAll_piecewise (Spares.piecewise '\n') (fun c h hm hmem => ?_) line
  have hname : '\n' ∉ h.group 1 := fun hg =>
    hmem ((Pattern.group_infix _ c h hm 1).subset hg)
  split
  · next b hb =>
    obtain ⟨hcontainer, htypes⟩ := not_mem_binding lines hlines _ b hb
    simp [hname, hcontainer, htypes]
  · exact hmem

/-- No rule brings a newline in, whatever index of lines without newlines it reads. -/
theorem spares_rule (lines : List Line) (hlines : ∀ line ∈ lines, '\n' ∉ line) (r : Rule)
    (s : Progress) : Spares '\n' s.line (r.apply (Index.build lines) s).line := by
  have hrule : ∀ f : Line → Line, (∀ line, Spares '\n' line (f line)) →
      Spares '\n' s.line (s.mapLine f).line := fun f hf => hf s.line
  have hplain : ∀ e : Edit, Edit.arePlain '\n' [e] = true → ∀ line,
      Spares '\n' line (e.apply line) := fun e he =>
    e.apply_spares '\n' (Edit.spares_of_arePlain '\n' [e] he e (by simp))
  have hplains : ∀ es : List Edit, Edit.arePlain '\n' es = true → ∀ line,
      Spares '\n' line (Edit.applyAll es line) := fun es hes =>
    Edit.applyAll_spares '\n' es (Edit.spares_of_arePlain '\n' es hes)
  have hmapping : ∀ e ∈ mappingEdits, ∀ line, Spares '\n' line (e.apply line) := fun e he =>
    e.apply_spares '\n' (spares_mappingEdits e he)
  have hmappings : ∀ es : List Edit, (∀ e ∈ es, e ∈ mappingEdits) → ∀ line,
      Spares '\n' line (Edit.applyAll es line) := fun es hes =>
    Edit.applyAll_spares '\n' es fun e he => spares_mappingEdits e (hes e he)
  cases r with
  | diamondInference => exact hrule _ (spares_diamondInference lines hlines)
  | enhancedFor => exact hrule _ (hplain Rules.forEachHeader (by decide))
  | inheritance => exact hrule _ spares_inheritance
  | primitiveTypes => exact hrule _ spares_primitiveTypes
  | scannerInput =>
    exact hrule _ (hmappings Rules.scannerEdits (by simp +contextual [mappingEdits]))
  | collectionDeclarations => exact hrule _ (hplains _ (by decide))
  | collectionInstantiations => exact hrule _ (hplains _ (by decide))
  | collectionUtilities => exact hrule _ (hplains Rules.utilityEdits (by decide))
  | mapMethods => exact hrule _ (hplains Rules.mapEdits (by decide))
  | imports => exact hrule _ (hplains Rules.importEdits (by decide))
  | consoleOutput => exact hrule _ (hplains Rules.printCalls (by decide))
  | mainSignature => exact hrule _ (hplain Rules.entryPoint (by decide))
  | typeNames => exact hrule _ (hmappings Rules.typeNameEdits (by simp +contextual [mappingEdits]))
  | methodNames => exact hrule _ spares_methodNames
  | callCasing => exact hrule _ (hmapping Rules.memberCall (by simp [mappingEdits]))
  | constants => exact hrule _ (hmapping Rules.constantWord (by simp [mappingEdits]))
  | publicFields => exact hrule _ (hmapping Rules.publicField (by simp [mappingEdits]))
  | namespaceHeader => exact hrule _ (hmapping Rules.packageLine (by simp [mappingEdits]))
  | fileWriter => exact hrule _ (hplain Rules.writerDeclaration (by decide))
  | patternMatcher => exact hrule _ (hplains Rules.regexDeclarations (by decide))
  | standaloneCalls =>
    refine hrule _ fun line => (hplain Rules.elseIf (by decide) line).trans ?_
    exact Pattern.replaceUnlessAfter_piecewise (Spares.piecewise '\n')
      (Rules.bareCall.render_spares '\n' (spares_mappingEdits _ (by simp [mappingEdits]))) _ _
  | finalClass => exact hrule _ (hplain Rules.finalClassHeader (by decide))
  | finalField =>
    exact hrule _ (Pattern.replaceUnlessAfter_piecewise (Spares.piecewise '\n')
      (Rules.finalFieldHeader.render_spares '\n' (Edit.spares_of_plain '\n' _ (by decide))) _)
  | override => exact spares_trackOverride s
  | stripImports => exact hrule _ spares_stripImports
  | loggerDeclaration => exact hrule _ (hplains Rules.loggerEdits (by decide))
  | loggerPrint => exact hrule _ (hmapping Rules.printCall (by simp [mappingEdits]))
  | executeSignature => exact hrule _ (hplain Rules.executeHeader (by decide +kernel))
  | domainSubstitutions => exact hrule _ spares_domainSubstitutions
  | trimTrailing => exact hrule _ spares_trimEnd

theorem spares_convertLine (lines : List Line) (hlines : ∀ line ∈ lines, '\n' ∉ line)
    (rules : List Rule) (s : Progress) :
    Spares '\n' s.line (convertLine rules (Index.build lines) s).line := by
  induction rules generalizing s with
  | nil => exact id
  | cons r rules ih => exact (spares_rule lines hlines r s).trans (ih _)

theorem not_mem_convertLines (source : List Line) (hsource : ∀ line ∈ source, '\n' ∉ line)
    (rules : List Rule) (lines : List Line) (hlines : ∀ line ∈ lines, '\n' ∉ line)
    (state : OverrideState) :
    ∀ s ∈ convertLines rules (Index.build source) state lines, '\n' ∉ s.line := by
  induction lines generalizing state with
  | nil => exact fun _ hs => nomatch hs
  | cons line lines ih =>
    intro s hs
    rcases List.mem_cons.1 hs with rfl | hs
    · exact spares_convertLine source hsource rules _ (hlines line (by simp))
    · exact ih (fun l hl => hlines l (by simp [hl])) _ s hs

theorem not_mem_run (c : Conversion) (hprelude : ∀ line ∈ c.prelude, '\n' ∉ line)
    (lines : List Line) (hlines : ∀ line ∈ lines, '\n' ∉ line) :
    ∀ line ∈ c.run lines, '\n' ∉ line := by
  intro line hline
  rw [Conversion.run, List.mem_append, List.mem_append] at hline
  rcases hline with (hline | hline) | hline
  · exact hprelude line hline
  · rw [Conversion.body, List.mem_filter, List.mem_map] at hline
    obtain ⟨⟨s, hs, rfl⟩, -⟩ := hline
    exact not_mem_convertLines lines hlines c.rules lines hlines .idle s hs
  · rw [Conversion.closing] at hline
    split at hline
    · rw [List.mem_singleton.1 hline]
      decide
    · exact nomatch hline

end Newline

namespace Text

theorem newline_not_mem_consFirst (c : Char) (hc : c ≠ '\n') (ls : List Line)
    (h : ∀ line ∈ ls, '\n' ∉ line) : ∀ line ∈ consFirst c ls, '\n' ∉ line := by
  cases ls with
  | nil => simp [consFirst, Ne.symm hc]
  | cons first ls =>
    intro line hline
    rcases List.mem_cons.1 hline with rfl | hline
    · simp [Ne.symm hc, h first (by simp)]
    · exact h line (by simp [hline])

theorem newline_not_mem_lines (text : List Char) : ∀ line ∈ lines text, '\n' ∉ line := by
  fun_induction lines text with
  | case1 => exact fun _ h => nomatch h
  | case2 rest ih =>
    intro line hline
    rcases List.mem_cons.1 hline with rfl | hline
    · simp
    · exact ih line hline
  | case3 rest ih =>
    intro line hline
    rcases List.mem_cons.1 hline with rfl | hline
    · simp
    · exact ih line hline
  | case4 c rest hnewline hreturn ih =>
    exact newline_not_mem_consFirst c hnewline _ ih

theorem count_unlines (ls : List Line) (h : ∀ line ∈ ls, '\n' ∉ line) :
    (unlines ls).count '\n' = ls.length := by
  induction ls with
  | nil => rfl
  | cons line ls ih =>
    have hline : line.count '\n' = 0 := List.count_eq_zero.2 (h line (by simp))
    rw [unlines, List.flatMap_cons, List.count_append, List.count_append, hline, ← unlines,
      ih fun l hl => h l (by simp [hl]), List.length_cons]
    simp [Nat.add_comm]

theorem split_line (separator : Char) (line rest : Line) (h : separator ∉ line) :
    split separator (line ++ separator :: rest) = line :: split separator rest := by
  induction line with
  | nil => simp [split]
  | cons c line ih =>
    have hc : (c == separator) = false := beq_false_of_ne fun heq => h (by simp [heq])
    rw [List.cons_append, split, hc, ih fun hmem => h (by simp [hmem])]
    rfl

theorem split_unlines (ls : List Line) (h : ∀ line ∈ ls, '\n' ∉ line) :
    split '\n' (unlines ls) = ls ++ [[]] := by
  induction ls with
  | nil => rfl
  | cons line ls ih =>
    rw [unlines, List.flatMap_cons, List.append_assoc, List.singleton_append,
      split_line '\n' line _ (h line (by simp)), ← unlines, ih fun l hl => h l (by simp [hl]),
      List.cons_append]

end Text

theorem Conversion.body_not_blank (c : Conversion) (lines : List Line) :
    ∀ line ∈ c.body lines, ∃ d ∈ line, Unicode.isBlank d = false := by
  intro line hline
  rw [body, List.mem_filter, Bool.not_eq_true', Text.isBlankLine, List.all_eq_false] at hline
  obtain ⟨-, d, hd, hblank⟩ := hline
  exact ⟨d, hd, by simpa using hblank⟩

/-- The number of lines that a conversion reports is the number of newlines that it writes,
and the written text splits at them into the very lines of the run. Of these the ones between
the prelude and the closing brace are not blank. All rests on the rules, none of which makes
a newline. -/
theorem written_text_splits_into_run (c : Conversion)
    (hprelude : ∀ line ∈ c.prelude, '\n' ∉ line) (bytes : List UInt8) :
    let lines := sourceLines bytes
    let written := c.convertBytes bytes
    written.1 = written.2.count '\n' ∧
      Text.split '\n' written.2 = c.run lines ++ [[]] ∧
      c.run lines = c.prelude ++ c.body lines ++ c.closing ∧
      (∀ line ∈ c.body lines, ∃ d ∈ line, Unicode.isBlank d = false) ∧
      ∀ source : List Line, (∀ line ∈ source, '\n' ∉ line) →
        ∀ mode : Mode, ∀ r ∈ mode.rules, ∀ s : Progress, '\n' ∉ s.line →
          '\n' ∉ (r.apply (Index.build source) s).line := by
  intro lines written
  have hrun : ∀ line ∈ c.run lines, '\n' ∉ line :=
    Newline.not_mem_run c hprelude lines (Text.newline_not_mem_lines _)
  refine ⟨(Text.count_unlines _ hrun).symm, Text.split_unlines _ hrun, rfl,
    c.body_not_blank lines, ?_⟩
  intro source hsource mode r _ s hs
  exact Newline.spares_rule source hsource r s hs

/-- Of two lines one is dropped, and a directive and a brace are written around the other. -/
theorem three_lines_written :
    let c : Conversion := ⟨.general, ["using A;".toList], true⟩
    let bytes := Utf8.encode "import a;\r\nString s;".toList
    (∀ line ∈ c.prelude, '\n' ∉ line) ∧ (c.convertBytes bytes).2.count '\n' = 3 ∧
      '\n' ∉ (Rule.primitiveTypes.apply (Index.build []) ⟨"String s;".toList, .idle⟩).line := by
  intro c bytes
  have hprelude : ∀ line ∈ c.prelude, '\n' ∉ line := by decide
  obtain ⟨hcount, -, -, -, hrules⟩ := written_text_splits_into_run c hprelude bytes
  have hwritten : (c.convertBytes bytes).1 = 3 := by decide +kernel
  refine ⟨hprelude, hcount.symm.trans hwritten, ?_⟩
  exact hrules [] (by simp) .general .primitiveTypes (by decide) _ (by decide)

end JvsSharp
