import JvsSharp.Proofs.EntryPoint

/-!
# The new signature of the entry point

The header with its parameters and exceptions is replaced as a whole, and the
substitutions that come after it find nothing in the signature. The list of
exceptions ends early if the edit for loggers has broken a name off; the rest
of that name then stays behind the signature.
-/

set_option autoImplicit false

namespace JvsSharp
open Pattern EntryLine

namespace Pattern

variable {α : Type}

/-- The shortest run ends where its continuation can go on, if that is at the first `d`. -/
theorem fewestK_until (k : CharClass) (f : Place → Option α) (d : Char)
    (hf : ∀ b v, v.head? ≠ some d → f ⟨b, v⟩ = none) (b : Option Char) (xs rest : Line)
    (hx : ∀ x ∈ xs, k.mem x = true ∧ x ≠ d) (r : α)
    (hlast : f ⟨behind b xs, d :: rest⟩ = some r) : fewestK k f b (xs ++ d :: rest) = some r := by
  induction xs generalizing b with
  | nil =>
    have hhere : f ⟨b, d :: rest⟩ = some r := hlast
    rw [List.nil_append, fewestK, hhere, Option.some_or]
  | cons x xs ih =>
    obtain ⟨hmem, hne⟩ := hx x (by simp)
    have hhere : f ⟨b, x :: (xs ++ d :: rest)⟩ = none := hf b _ (by simpa using hne)
    rw [List.cons_append, fewestK, hhere, Option.none_or, if_pos hmem]
    exact ih (some x) (fun y hy => hx y (by simp [hy])) hlast

end Pattern

namespace Rules

@[irreducible] def signature : String :=
  "public override Olf.Openrisk.Table.Table Execute(Context context, EnumScriptCategory " ++
    "category, Olf.Openrisk.Table.ConstTable table)"

theorem render_executeHeader (h : Hit) : executeHeader.render h = signature.toList := by
  have htemplate : executeHeader.template = [.text signature.toList] := by
    delta executeHeader signature
    exact rfl
  rw [Edit.render, htemplate]
  exact List.append_nil _

/-- The header of the entry point is found up to the last of its exceptions. -/
theorem executeHeader_matchAt (b : Option Char) (params : Line) (hparams : Lacks paramsLack params)
    (es : Exceptions) (rest : Line) (hends : EndsWord rest)
    (hstop : ∀ (b : Option Char) (m : List Mark) (f : Place → List Mark → Option Hit),
      Rules.nextName.matchK ⟨b, rest⟩ m f = none) :
    let found := "public void Execute(".toList ++ (params ++ (") throws ".toList ++ es.text))
    ∃ h, executeHeader.pattern.matchAt ⟨b, found ++ rest⟩ = some h ∧ h.text = found := by
  intro found
  let line : Line := found ++ rest
  let final : Place → List Mark → Option Hit := fun c m =>
    some ⟨b, textBetween line c.rest, m, c.rest⟩
  refine ⟨⟨b, textBetween line rest, [], rest⟩, ?_, textBetween_left found rest⟩
  have hline : line = "public void Execute(".toList ++
      (params ++ ')' :: (" throws ".toList ++ (es.text ++ rest))) := by
    simp [line, found]
  have hclose : ∀ b', (all [")", gap, "throws", space, word, .star Rules.nextName]).matchK
      ⟨b', ')' :: (" throws ".toList ++ (es.text ++ rest))⟩ [] final =
        some ⟨b, textBetween line rest, [], rest⟩ := by
    intro b'
    change (all [space, word, .star Rules.nextName]).matchK
      ⟨some 's', [' '] ++ (es.text ++ rest)⟩ [] final = _
    rw [matchK_all_cons]
    refine (matchK_chars .blank _ [' '] _ _ _ (by decide) (by decide)
      (es.stops_blank_text rest)).trans ?_
    exact Exceptions.matchK_list rest hends hstop es _ [] final _ rfl
  have hopen : ∀ text, executeHeader.pattern.matchK ⟨b, "public void Execute(".toList ++ text⟩ []
      final = (all [.fewest .inLine, ")", gap, "throws", space, word,
        .star Rules.nextName]).matchK ⟨some '(', text⟩ [] final := fun _ => rfl
  refine (congrArg (fun text => executeHeader.pattern.matchK ⟨b, text⟩ [] final) hline).trans ?_
  refine (hopen _).trans ?_
  rw [matchK_all_cons, matchK]
  refine fewestK_until .inLine _ ')' (fun b v hv => ?_) _ params _ ?_ _ (hclose _)
  · rw [matchK_all_cons]
    exact matchK_char_none ')' b v [] _ hv
  · intro x hx
    have hne : ∀ d ∈ paramsLack, x ≠ d := fun d hd hxd => hparams d hd (hxd ▸ hx)
    exact ⟨by simpa [CharClass.mem] using hne '\n' (by decide), hne ')' (by decide)⟩

/-- The header gives way to the signature, and what stands behind the exceptions stays. -/
theorem executeSignature_entry (indent : Blanks) (es : Exceptions) (rest line : Line)
    (h : IsEntry "public void Execute(" indent (es.text ++ rest) line)
    (hlacks : Lacks clauseLacks (es.text ++ rest)) (hends : EndsWord rest)
    (hstop : ∀ (b : Option Char) (m : List Mark) (f : Place → List Mark → Option Hit),
      Rules.nextName.matchK ⟨b, rest⟩ m f = none) :
    executeSignature line = indent.1 ++ (signature.toList ++ rest) := by
  obtain ⟨params, hparams, rfl⟩ := h
  let found : Line := "public void Execute(".toList ++ (params ++ (") throws ".toList ++ es.text))
  have hline : EntryLine.text "public void Execute(" indent params (es.text ++ rest) =
      indent.1 ++ (found ++ rest) := by simp [EntryLine.text, found]
  obtain ⟨hit, hm, htext⟩ := executeHeader_matchAt (behind none indent.1) params hparams es rest
    hends hstop
  have hbefore : Quiet executeHeader.pattern none indent.1 (found ++ rest) := by
    refine quiet_of_misses _ none [.many .blank] (Outline.lit ['p'] ++ [.many (.except [])])
      (by decide) none _ _ (View.knows_none none)
      (Outline.fits_many .blank indent.1 indent.2) ?_
    exact ⟨'p', _, rfl, by decide, Exceptions.fits_any _⟩
  have hafter : Quiet executeHeader.pattern (behind (behind none indent.1) found) rest [] :=
    quiet_of_misses _ none [.many (.except clauseLacks)] [] (by decide) _ _ _
      (View.knows_none _)
      (Outline.fits_many _ rest ((lacks_iff _ _).1 ((lacks_append _ _ _).1 hlacks).2)) rfl
  have hne : found ≠ [] := by simp [found]
  rw [hline, executeSignature, Edit.apply,
    replaceAll_single _ _ indent.1 found rest hit hbefore hm htext hne hafter,
    render_executeHeader]

theorem domainSubstitutions_signature (indent : Blanks) (rest : Line)
    (hrest : Lacks clauseLacks rest) :
    domainSubstitutions (indent.1 ++ (signature.toList ++ rest)) =
      Edit.applyAll substitutions (indent.1 ++ (signature.toList ++ rest)) := by
  have habsent := scriptAttribute_absent _ _
    (Outline.fits_before signature.toList rest clauseLacks hrest) (by decide +kernel)
  have hfirst : signature.toList.head? = some 'p' := by decide +kernel
  have hstops : Stops .blank (signature.toList ++ rest) := by
    rw [Stops, List.head?_append, hfirst]
    rfl
  rw [domainSubstitutions, Text.trimStart_blanks indent _ hstops, occursIn_absent _ _ habsent]
  exact if_neg Bool.false_ne_true

theorem signature_quiet (e : Edit) (he : e ∈ substitutions) (indent : Blanks) (rest : Line)
    (hrest : Lacks clauseLacks rest) :
    Quiet e.pattern none (indent.1 ++ signature.toList) rest := by
  have hmisses : ∀ e ∈ substitutions, e.pattern.misses none
      (.many .blank :: Outline.lit signature.toList) [.many (.except clauseLacks)] = true := by
    decide +kernel
  exact quiet_of_misses _ none _ _ (hmisses e he) none _ _ (View.knows_none none)
    (Outline.fits_indented indent _) (Outline.fits_many _ rest ((lacks_iff _ _).1 hrest))

theorem substitutions_signature (indent : Blanks) :
    Edit.applyAll substitutions (indent.1 ++ (signature.toList ++ " \x7b".toList)) =
      indent.1 ++ (signature.toList ++ " \x7b".toList) := by
  have hmisses : ∀ e ∈ substitutions,
      e.pattern.misses none (Outline.lit " \x7b".toList) [] = true := by decide
  refine foldl_same _ _ _ fun e he => ?_
  have hbrace : Lacks clauseLacks " \x7b".toList := by
    unfold Lacks
    decide
  rw [← List.append_assoc, Edit.apply, replaceAll_eq,
    replaceFrom_quiet _ _ none _ _ (signature_quiet e he indent _ hbrace),
    replaceFrom_all_quiet _ _ _ _ (quiet_of_misses _ none _ [] (hmisses e he) _ _ _
      (View.knows_none _) (Outline.fits_lit _) rfl)]

def brokenOff (indent : Blanks) : Line := (indent.1 ++ signature.toList) ++ " Logger".toList

/-- What was broken off stays behind the signature. -/
theorem substitutions_brokenOff (indent : Blanks) (es : List Edit) (hes : es ⊆ substitutions)
    (rest : Line) (hrest : Lacks clauseLacks rest) :
    ∃ rest', Lacks clauseLacks rest' ∧
      Edit.applyAll es (brokenOff indent ++ rest) = brokenOff indent ++ rest' := by
  have hmisses : ∀ e ∈ substitutions, e.pattern.misses none (Outline.lit " Logger".toList)
      [.many (.except clauseLacks)] = true := by decide
  -- The edits that can match behind the signature write nothing but words and pieces.
  have hplain : ∀ e ∈ substitutions,
      e.pattern.misses none [.many (.except clauseLacks)] [] = true ∨
        (e.pattern.isFilled = true ∧
          ∀ d ∈ clauseLacks, e.template.all (Part.isPlain d) = true) := by
    decide
  have hlogger : Lacks clauseLacks " Logger".toList := by
    unfold Lacks
    decide
  induction es generalizing rest with
  | nil => exact ⟨rest, hrest, rfl⟩
  | cons e es ih =>
    obtain ⟨he, hes⟩ := List.cons_subset.1 hes
    have hfits := Outline.fits_many _ rest ((lacks_iff _ _).1 hrest)
    have hquiet : Quiet e.pattern none (brokenOff indent) rest :=
      (signature_quiet e he indent _ ((lacks_append _ _ _).2 ⟨hlogger, hrest⟩)).append
        (quiet_of_misses _ none _ _ (hmisses e he) _ _ _ (View.knows_none _) (Outline.fits_lit _)
          hfits)
    have hstep : e.apply (brokenOff indent ++ rest) = brokenOff indent ++
        e.pattern.replaceFrom e.render (behind none (brokenOff indent)) rest := by
      rw [Edit.apply, replaceAll_eq, replaceFrom_quiet _ _ none _ rest hquiet]
    have hkeep : Lacks clauseLacks
        (e.pattern.replaceFrom e.render (behind none (brokenOff indent)) rest) := by
      rcases hplain e he with hnone | ⟨hfilled, htemplate⟩
      · rwa [replaceFrom_all_quiet _ _ _ _ (quiet_of_misses _ none _ [] hnone _ _ _
          (View.knows_none _) hfits rfl)]
      · exact e.replaceFrom_lacks hfilled clauseLacks
          (fun d hd => e.spares_of_plain d (htemplate d hd)) _ rest hrest
    obtain ⟨rest', hrest', happly⟩ := ih hes _ hkeep
    refine ⟨rest', hrest', ?_⟩
    change Edit.applyAll es (e.apply (brokenOff indent ++ rest)) = _
    rw [hstep, happly]

end Rules

theorem Text.trimEnd_append (xs ys : Line)
    (h : xs.getLast?.any Unicode.isBlank = false) : trimEnd (xs ++ ys) = xs ++ trimEnd ys := by
  have hkeep : xs.reverse.dropWhile Unicode.isBlank = xs.reverse := by
    have htrim := congrArg List.reverse (trimEnd_eq_self xs h)
    rwa [trimEnd, trimStart, List.reverse_reverse] at htrim
  rw [trimEnd, trimEnd, trimStart, trimStart, List.reverse_append, List.dropWhile_append, hkeep]
  split
  · next hempty => simp [List.isEmpty_iff.1 hempty]
  · rw [List.reverse_append, List.reverse_reverse]

open LineByLine in
theorem pluginLine_eq (line : Line) : pluginLine line =
    Text.trimEnd (Rules.domainSubstitutions (Rules.executeSignature (Rules.loggerPrint
      (Rules.loggerDeclaration (Rules.stripImports (Rules.collectionUtilities
        (Rules.collectionInstantiations (Rules.collectionDeclarations (Rules.primitiveTypes
          (Rules.standaloneCalls (Rules.callCasing (Rules.methodNames (Rules.inheritance
            (Rules.namespaceHeader (Rules.enhancedFor line))))))))))))))) := by
  simp only [pluginLine, alone, convertLine, Mode.rules, List.foldl_cons, List.foldl_nil,
    Rule.apply, Progress.mapLine]

namespace Rules

section
variable {indent : Blanks} {line : Line} (es : Exceptions)
  (h : IsEntry "public void Execute(" indent es.closed line)
include h

/-- Only what the edit for fields of loggers makes of the exceptions is left to say. -/
theorem loggerDeclaration_entry (clause : Line) (hclause : Lacks clauseLacks clause)
    (hreplace : loggerField.pattern.replaceFrom loggerField.render (some ' ') es.closed = clause) :
    IsEntry "public void Execute(" indent clause (loggerDeclaration line) := by
  have hplain : ∀ d ∈ paramsLack, loggerField.template.all (Part.isPlain d) = true := by decide
  have hquiet : ∀ b, Quiet loggerField.pattern b ") throws ".toList es.closed := fun b =>
    quiet_of_misses _ none _ [.one .word, .many (.except [])] (by decide) b _ _
      (View.knows_none b) (Outline.fits_lit _) (es.fits_text _)
  have hfield := h.apply_edit es.lacks_closed loggerField (by decide) (by decide)
    (by decide) (fun d hd => loggerField.spares_of_plain d (hplain d hd)) clause fun b => by
      rw [replaceFrom_quiet _ _ b _ _ (hquiet b)]
      exact congrArg (") throws ".toList ++ ·) hreplace
  rw [loggerDeclaration, loggerEdits_cut, Edit.applyAll, List.foldl_cons]
  exact hfield.laterLoggerEdits hclause

variable (hfree : ∀ w ∈ es.names, w ∉ loggerModifiers)
include hfree

theorem loggerDeclaration_keeps (hnames : ∀ w ∈ es.names, ¬OpensLogger w) :
    IsEntry "public void Execute(" indent es.closed (loggerDeclaration line) := by
  refine loggerDeclaration_entry es h es.closed es.lacks_closed ?_
  refine replaceFrom_all_quiet _ _ _ _ (.append ?_ ?_)
  · exact Exceptions.quiet_text (by decide) es (fun w hw b rest hrest =>
      loggerField_quiet w (es.isWordText_names w hw) (hfree w hw) (hnames w hw) b rest hrest)
      _ _ Exceptions.fits_brace
  · exact quiet_of_misses _ none _ [] (by decide) _ _ _ (View.knows_none _)
      (Outline.fits_lit _) rfl

theorem loggerDeclaration_breaks (hnames : ∃ w ∈ es.names, OpensLogger w) :
    ∃ (es' : Exceptions) (rest : Line),
      Lacks clauseLacks (es'.text ++ (" Logger".toList ++ rest)) ∧
      IsEntry "public void Execute(" indent (es'.text ++ (" Logger".toList ++ rest))
        (loggerDeclaration line) := by
  have hplain : ∀ d ∈ clauseLacks, loggerField.template.all (Part.isPlain d) = true := by decide
  have hspares : ∀ d ∈ clauseLacks, loggerField.Spares d := fun d hd =>
    loggerField.spares_of_plain d (hplain d hd)
  obtain ⟨es', rest, -, hreplace⟩ := loggerField_breaks es hfree hnames clauseLacks hspares
    (some ' ') (by decide) " \x7b".toList es.lacks_closed
  have hclause : Lacks clauseLacks (es'.text ++ (" Logger".toList ++ rest)) :=
    hreplace ▸ loggerField.replaceFrom_lacks (by decide) clauseLacks hspares _ _ es.lacks_closed
  exact ⟨es', rest, hclause, loggerDeclaration_entry es h _ hclause hreplace⟩

end

end Rules

namespace EntryPoint

variable (e : EntryPoint)

def rewired : Line := e.indent.1 ++ (Rules.signature.toList ++ " \x7b".toList)

theorem keywords_free : ∀ w ∈ e.exceptions.keywords.names, w ∉ Rules.loggerModifiers := by
  intro w hw
  rw [Exceptions.names_keywords, List.mem_map] at hw
  obtain ⟨v, hv, rfl⟩ := hw
  exact (Rules.primitiveKeyword_logger v (e.free v hv)).1

theorem pluginLine_rewired (h : ∀ w ∈ e.exceptions.names, ¬Rules.OpensLogger w) :
    LineByLine.pluginLine e.line = e.rewired := by
  have hnames : ∀ w ∈ e.exceptions.keywords.names, ¬Rules.OpensLogger w := by
    intro w hw
    rw [Exceptions.names_keywords, List.mem_map] at hw
    obtain ⟨v, hv, rfl⟩ := hw
    exact mt (Rules.primitiveKeyword_logger v (e.free v hv)).2.1 (h v hv)
  have hlacks := e.exceptions.keywords.lacks_closed
  have hlogger := Rules.loggerDeclaration_keeps _ e.before_loggers e.keywords_free hnames
  have hbrace : Lacks clauseLacks " \x7b".toList := ((lacks_append _ _ _).1 hlacks).2
  have hlast : e.rewired.getLast?.any Unicode.isBlank = false := by
    rw [rewired, ← List.append_assoc, List.getLast?_append]
    rfl
  rw [pluginLine_eq, Rules.executeSignature_entry e.indent _ _ _ (hlogger.loggerPrint hlacks) hlacks
    (by unfold EndsWord; decide) (fun _ _ _ => rfl),
    Rules.domainSubstitutions_signature e.indent _ hbrace, Rules.substitutions_signature]
  exact Text.trimEnd_eq_self _ hlast

theorem pluginLine_broken (h : ∃ w ∈ e.exceptions.names, Rules.OpensLogger w) :
    Rules.brokenOff e.indent <+: LineByLine.pluginLine e.line := by
  have hnames : ∃ w ∈ e.exceptions.keywords.names, Rules.OpensLogger w := by
    obtain ⟨v, hv, hopens⟩ := h
    refine ⟨Rules.primitiveKeyword v, ?_, ?_⟩
    · rw [Exceptions.names_keywords]
      exact List.mem_map_of_mem hv
    · exact (Rules.primitiveKeyword_logger v (e.free v hv)).2.2 hopens
  obtain ⟨es, rest, hlacks, hlogger⟩ :=
    Rules.loggerDeclaration_breaks _ e.before_loggers e.keywords_free hnames
  have hrest : Lacks clauseLacks (" Logger".toList ++ rest) := ((lacks_append _ _ _).1 hlacks).2
  obtain ⟨rest', -, happly⟩ := Rules.substitutions_brokenOff e.indent Rules.substitutions
    (List.Subset.refl _) rest ((lacks_append _ _ _).1 hrest).2
  have hline : e.indent.1 ++ (Rules.signature.toList ++ (" Logger".toList ++ rest)) =
      Rules.brokenOff e.indent ++ rest := by simp [Rules.brokenOff]
  have hlast : (Rules.brokenOff e.indent).getLast?.any Unicode.isBlank = false := by
    rw [Rules.brokenOff, List.getLast?_append]
    rfl
  rw [pluginLine_eq, Rules.executeSignature_entry e.indent _ _ _ (hlogger.loggerPrint hlacks) hlacks
    (by exact rfl) (fun _ _ _ => rfl),
    Rules.domainSubstitutions_signature e.indent _ hrest, hline, happly,
    Text.trimEnd_append _ _ hlast]
  exact List.prefix_append _ _

theorem rewired_not_broken : ¬Rules.brokenOff e.indent <+: e.rewired := by
  rintro ⟨rest, hrest⟩
  have hsame : " Logger".toList ++ rest = " \x7b".toList := by
    rwa [Rules.brokenOff, rewired, ← List.append_assoc e.indent.1, List.append_assoc,
      List.append_cancel_left_eq] at hrest
  exact absurd (congrArg (·[1]?) hsame) (by simp)

/-- Either way the result opens with the signature, so it is not left out as blank. -/
theorem not_blank : Text.isBlankLine (LineByLine.pluginLine e.line) = false := by
  have hopen : e.indent.1 ++ Rules.signature.toList <+: LineByLine.pluginLine e.line := by
    by_cases hnames : ∃ w ∈ e.exceptions.names, Rules.OpensLogger w
    · exact (List.prefix_append _ _).trans (e.pluginLine_broken hnames)
    · rw [e.pluginLine_rewired fun w hw hopens => hnames ⟨w, hw, hopens⟩, rewired,
        ← List.append_assoc]
      exact List.prefix_append _ _
  have hp : 'p' ∈ Rules.signature.toList := by decide +kernel
  rw [Text.isBlankLine, List.all_eq_false]
  exact ⟨'p', hopen.subset (List.mem_append_right _ hp), by decide⟩

open LineByLine in
/-- What becomes of the header is to be seen in every script. -/
theorem body_line (c : Conversion) (hc : c.mode = .domain) (before after : List Line) :
    c.body (before ++ e.line :: after) = c.body before ++ pluginLine e.line :: c.body after := by
  have hcons : pluginBody (e.line :: after) = pluginLine e.line :: pluginBody after := by
    rw [pluginBody, List.map_cons, List.filter_cons_of_pos (by rw [e.not_blank]; rfl)]
    rfl
  rw [body_domain c hc, body_domain c hc, body_domain c hc, pluginBody_append, hcons]

end EntryPoint

/-- The entry point of a plugin script is rewired, whatever its parameters are and wherever it
stands, if and only if none of its exceptions opens like the field of a logger. If one does,
what is left of that name stays behind the signature. -/
theorem entry_point_rewired_iff (e : EntryPoint) (prelude : List Line) (close : Bool)
    (before after : List Line) :
    let c : Conversion := ⟨.domain, prelude, close⟩
    let script := before ++ e.line :: after
    (c.body script = c.body before ++ e.rewired :: c.body after ↔
      ∀ w ∈ e.exceptions.names, ¬Rules.OpensLogger w) ∧
    ((∃ w ∈ e.exceptions.names, Rules.OpensLogger w) →
      ∃ rest, c.body script =
        c.body before ++ (Rules.brokenOff e.indent ++ rest) :: c.body after) := by
  intro c script
  have hbody : c.body script = c.body before ++ LineByLine.pluginLine e.line :: c.body after :=
    e.body_line c rfl before after
  refine ⟨⟨fun hsame w hw hopens => ?_, fun hnames => ?_⟩, fun hnames => ?_⟩
  · have hline : LineByLine.pluginLine e.line = e.rewired := by
      rw [hbody] at hsame
      exact (List.cons.inj (List.append_cancel_left hsame)).1
    exact e.rewired_not_broken (hline ▸ e.pluginLine_broken ⟨w, hw, hopens⟩)
  · rw [hbody, e.pluginLine_rewired hnames]
  · obtain ⟨rest, hrest⟩ := e.pluginLine_broken hnames
    exact ⟨rest, by rw [hbody, hrest]⟩

def busyEntry : EntryPoint where
  indent := ⟨[' '], blank_space⟩
  params := "Vector<Integer> v; import a; x : y".toList
  exceptions := .more ⟨"OException".toList, by decide, by unfold IsWordText; decide⟩
    ⟨[' '], blank_space⟩ ⟨['\t'], by decide⟩
    (.last ⟨"publicError".toList, by decide, by unfold IsWordText; decide⟩)
  plain := by unfold Lacks; decide
  free := by unfold IsReserved; decide

/-- The header in a script of its own. -/
theorem busy_entry_rewired :
    let domain := (⟨.domain, [], false⟩ : Conversion).body
    let entry := (" public void execute(Vector<Integer> v; import a; x : y) " ++
      "throws OException ,\tpublicError \x7b").toList
    (∀ w ∈ busyEntry.exceptions.names, ¬Rules.OpensLogger w) ∧
      domain [entry] = [' ' :: (Rules.signature.toList ++ " \x7b".toList)] := by
  intro domain entry
  have hline : entry = busyEntry.line := by decide
  have hnames : ∀ w ∈ busyEntry.exceptions.names, ¬Rules.OpensLogger w := by decide
  refine ⟨hnames, ?_⟩
  rw [hline]
  exact (entry_point_rewired_iff busyEntry [] false [] []).1.2 hnames

def loggedEntry : EntryPoint where
  indent := ⟨[], blank_nil⟩
  params := "int a".toList
  exceptions := .last
    ⟨"publicJVS_INC_LogFunctions".toList, by decide, by unfold IsWordText; decide⟩
  plain := by unfold Lacks; decide
  free := by unfold IsReserved; decide

/-- An exception that opens like the field of a logger is not taken over as a whole. -/
theorem logger_name_ends_exceptions :
    let domain := (⟨.domain, [], false⟩ : Conversion).body
    let entry := "public void execute(int a) throws publicJVS_INC_LogFunctions \x7b".toList
    (∃ rest, domain [entry] = [Rules.signature.toList ++ (" Logger".toList ++ rest)]) ∧
      domain [entry] ≠ [Rules.signature.toList ++ " \x7b".toList] := by
  intro domain entry
  have hline : entry = loggedEntry.line := by decide
  have hbody : domain [entry] = [LineByLine.pluginLine loggedEntry.line] := by
    rw [hline]
    exact loggedEntry.body_line _ rfl [] []
  obtain ⟨rest, hrest⟩ := loggedEntry.pluginLine_broken (by decide)
  refine ⟨⟨rest, ?_⟩, fun hsame => ?_⟩
  · rw [hbody, ← hrest, Rules.brokenOff, List.append_assoc]
    rfl
  · rw [hbody] at hsame
    exact loggedEntry.rewired_not_broken ⟨rest, hrest.trans (List.cons.inj hsame).1⟩

end JvsSharp
