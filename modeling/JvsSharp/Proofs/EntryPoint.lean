import JvsSharp.Proofs.BareCalls
import JvsSharp.Proofs.PluginLines
import JvsSharp.Proofs.PluginPhrases
import JvsSharp.Proofs.TargetForm
import JvsSharp.Proofs.ThrownNames

/-!
# The entry point of a plugin script

The header of the entry point goes through thirteen rules before it is
recognised. What they do to it is confined: the fixed text before the
parameters is cased once, the parameters stay free of parentheses whatever
the rules find in them, and of the exceptions only the names can change. So
the whole header is replaced by the new signature, unless one of the names is
broken off as the field of a logger.
-/

set_option autoImplicit false

namespace JvsSharp
open Pattern

theorem Text.trimStart_blanks (gap : Blanks) (rest : Line) (h : Stops .blank rest) :
    Text.trimStart (gap.1 ++ rest) = rest := by
  rw [Text.trimStart, List.dropWhile_append_of_pos gap.2]
  cases rest with
  | nil => rfl
  | cons c rest =>
    have hc : Unicode.isBlank c = false := h
    rw [List.dropWhile_cons, hc]
    rfl

theorem Outline.fits_indented (indent : Blanks) (text : Line) :
    Outline.Fits (.many .blank :: Outline.lit text) (indent.1 ++ text) :=
  (Outline.fits_many .blank indent.1 indent.2).append (Outline.fits_lit text)

theorem Outline.fits_before (text rest : Line) (ds : List Char) (h : Lacks ds rest) :
    Outline.Fits (Outline.lit text ++ [.many (.except ds)]) (text ++ rest) :=
  (Outline.fits_lit text).append (Outline.fits_many _ rest ((lacks_iff ds rest).1 h))

namespace EntryLine

def paramsLack : List Char := ['(', ')', '\n']

def clauseLacks : List Char := ['(', ')', ';', '=', '.', ':', '<']

def text (header : String) (indent : Blanks) (params clause : Line) : Line :=
  indent.1 ++ (header.toList ++ (params ++ (") throws ".toList ++ clause)))

def head (header : String) : Outline := .many .blank :: Outline.lit header.toList

def clauseOutline : Outline := Outline.lit ") throws ".toList ++ [.many (.except clauseLacks)]

def rest : Outline := .many (.except paramsLack) :: clauseOutline

def isConfined (header : String) (e : Edit) : Bool :=
  e.pattern.isFilled && e.pattern.skirts ')' && e.pattern.misses none (head header) rest &&
    paramsLack.all fun d => e.template.all (Part.isPlain d)

end EntryLine

open EntryLine

def IsEntry (header : String) (indent : Blanks) (clause line : Line) : Prop :=
  ∃ params, Lacks paramsLack params ∧ line = EntryLine.text header indent params clause

namespace IsEntry

variable {header : String} {indent : Blanks} {clause line : Line}

theorem fits_head (header : String) (indent : Blanks) :
    (head header).Fits (indent.1 ++ header.toList) := Outline.fits_indented indent header.toList

section
variable (hclause : Lacks clauseLacks clause)
include hclause

theorem fits_clause : clauseOutline.Fits (") throws ".toList ++ clause) :=
  Outline.fits_before _ clause clauseLacks hclause

theorem fits_rest (params : Line) (hparams : Lacks paramsLack params) :
    rest.Fits (params ++ (") throws ".toList ++ clause)) :=
  (Outline.fits_many _ params ((lacks_iff _ _).1 hparams)).append (fits_clause hclause)

theorem absent (h : IsEntry header indent clause line) (p : Pattern)
    (hp : p.passes (head header ++ rest) = true) : p.Absent line := by
  obtain ⟨params, hparams, rfl⟩ := h
  have hfits := (fits_head header indent).append (fits_rest hclause params hparams)
  refine absent_of_passes p _ _ hp ?_
  simpa [EntryLine.text] using hfits

/-- An edit that finds nothing in the fixed text before the parameters. -/
theorem apply_edit (h : IsEntry header indent clause line) (e : Edit)
    (hfilled : e.pattern.isFilled = true) (hskirts : e.pattern.skirts ')' = true)
    (hhead : e.pattern.misses none (head header) rest = true)
    (hspares : ∀ d ∈ paramsLack, e.Spares d) (clause' : Line)
    (hafter : ∀ b, e.pattern.replaceFrom e.render b (") throws ".toList ++ clause) =
      ") throws ".toList ++ clause') : IsEntry header indent clause' (e.apply line) := by
  obtain ⟨params, hparams, rfl⟩ := h
  let before : Line := indent.1 ++ header.toList
  have hline : ∀ params clause, EntryLine.text header indent params clause =
      before ++ (params ++ (") throws ".toList ++ clause)) := by simp [EntryLine.text, before]
  have hquiet : Quiet e.pattern none before (params ++ (") throws ".toList ++ clause)) :=
    quiet_of_misses _ none _ _ hhead none _ _ (View.knows_none none) (fits_head header indent)
      (fits_rest hclause params hparams)
  obtain ⟨params', hparams', hcut⟩ := e.replaceFrom_cut hfilled paramsLack hspares ')' hskirts
    (behind none before) params (" throws ".toList ++ clause) hparams
  refine ⟨params', hparams', ?_⟩
  rw [hline, Edit.apply, replaceAll_eq, replaceFrom_quiet _ _ none before _ hquiet]
  refine (congrArg (before ++ ·) hcut).trans ?_
  exact (congrArg (fun text => before ++ (params' ++ text)) (hafter _)).trans (hline _ _).symm

theorem apply_confined (h : IsEntry header indent clause line) (e : Edit)
    (he : isConfined header e = true) (hmisses : e.pattern.misses none clauseOutline [] = true) :
    IsEntry header indent clause (e.apply line) := by
  simp only [isConfined, Bool.and_eq_true, List.all_eq_true] at he
  obtain ⟨⟨⟨hfilled, hskirts⟩, hhead⟩, hplain⟩ := he
  refine h.apply_edit hclause e hfilled hskirts hhead (fun d hd => ?_) clause fun b => ?_
  · exact e.spares_of_plain d (List.all_eq_true.2 (hplain d hd))
  · exact replaceFrom_all_quiet _ _ b _ (quiet_of_misses _ none _ _ hmisses b _ _
      (View.knows_none b) (fits_clause hclause) rfl)

theorem applyAll_confined (es : List Edit)
    (hes : ∀ e ∈ es, isConfined header e = true ∧ e.pattern.misses none clauseOutline [] = true)
    (h : IsEntry header indent clause line) :
    IsEntry header indent clause (Edit.applyAll es line) := by
  induction es generalizing line with
  | nil => exact h
  | cons e es ih =>
    obtain ⟨he, hmisses⟩ := hes e (by simp)
    exact ih (fun e' he' => hes e' (by simp [he'])) (h.apply_confined hclause e he hmisses)

end

theorem mapWords_text (g : Line → Line) (front : Line) (hheader : header.toList = front ++ ['('])
    (indent : Blanks) (params clause : Line) (hfront : ∀ w ∈ words front, g w = w)
    (hthrows : g "throws".toList = "throws".toList) :
    mapWords g (EntryLine.text header indent params clause) =
      EntryLine.text header indent (mapWords g params) (mapWords g clause) := by
  have hclause : mapWords g (" throws ".toList ++ clause) =
      " throws ".toList ++ mapWords g clause := by
    have hcut := mapWords_cut g " throws".toList ' ' clause (by decide)
    have hword : mapWords g " throws".toList = " throws".toList :=
      mapWords_eq_self g _ fun v hv => by
        rw [show words " throws".toList = ["throws".toList] by decide, List.mem_singleton] at hv
        rw [hv, hthrows]
    rw [hword] at hcut
    exact hcut
  have hhead : mapWords g (indent.1 ++ front) = indent.1 ++ front := by
    rw [mapWords_others g indent.1 _ (TypeExpr.isWord_blanks indent), mapWords_eq_self g _ hfront]
  have hline : ∀ params clause, EntryLine.text header indent params clause =
      (indent.1 ++ front) ++ '(' :: (params ++ ')' :: (" throws ".toList ++ clause)) := by
    intro params clause
    simp [EntryLine.text, hheader]
  rw [hline, hline, mapWords_cut g _ '(' _ (by decide), mapWords_cut g _ ')' _ (by decide), hhead,
    hclause]

/-- An edit of a word that stands neither in the fixed text nor among the exceptions. -/
theorem apply_wordEdit (h : IsEntry header indent clause line) (front : Line)
    (hheader : header.toList = front ++ ['(']) (w written : Line) (hw : AreWords [w])
    (hwritten : Lacks paramsLack written) (hfront : w ∉ words front) (hthrows : w ≠ "throws".toList)
    (hclause : ∀ g : Line → Line, (∀ v, v ≠ w → g v = v) → mapWords g clause = clause) :
    IsEntry header indent clause
      ((⟨wholeWord (.text w), [.text written]⟩ : Edit).apply line) := by
  obtain ⟨params, hparams, rfl⟩ := h
  let e : Edit := ⟨wholeWord (.text w), [.text written]⟩
  let g : Line → Line := fun v => if v ∈ [w] then written else v
  have happly : ∀ line, e.apply line = mapWords g line := fun line =>
    replaceAll_words (chooses_text w) hw e.render (fun _ => written)
      (fun _ _ _ => by simp [e, Edit.render, Part.render]) line
  have hkeep : ∀ v, v ≠ w → g v = v := fun v hv => if_neg (by simpa using hv)
  have hparams' : Lacks paramsLack (e.apply params) := fun d hd =>
    e.apply_spares d (e.spares_of_plain d (by simpa [e, Part.isPlain] using hwritten d hd)) params
      (hparams d hd)
  refine ⟨_, hparams', (happly _).trans ?_⟩
  rw [mapWords_text g front hheader indent params clause
    (fun v hv => hkeep v fun hvw => hfront (hvw ▸ hv)) (hkeep _ (Ne.symm hthrows)), happly,
    hclause g hkeep]

end IsEntry

def Exceptions.closed (es : Exceptions) : Line := es.text ++ " \x7b".toList

namespace Exceptions

theorem lacks_closed (es : Exceptions) : Lacks clauseLacks es.closed := by
  have hsigns : ∀ d ∈ clauseLacks, Unicode.isWord d = false ∧ Unicode.isBlank d = false ∧
      d ≠ ',' ∧ d ∉ " \x7b".toList := by decide
  intro d hd
  obtain ⟨hword, hblank, hcomma, hbrace⟩ := hsigns d hd
  rw [closed, List.mem_append, not_or]
  exact ⟨not_mem_text d hword hblank hcomma es, hbrace⟩

theorem fits_brace : behindName.Fits " \x7b".toList :=
  fits_behindName ⟨[' '], blank_space⟩ '\x7b' (by decide) []

theorem mapWords_closed (g : Line → Line) (es : Exceptions) :
    mapWords g es.closed = es.spelled g ++ " \x7b".toList := by
  have hbrace := mapWords_others g " \x7b".toList [] (by decide)
  rw [List.append_nil, mapWords_nil, List.append_nil] at hbrace
  rw [closed, mapWords_text g es _ (by unfold EndsWord; decide), hbrace]

theorem quiet_closed (es : Exceptions) (p : Pattern)
    (hcomma : p.misses none [.many .blank, .one (.only ','), .many .blank]
      [.one .word, .many (.except [])] = true)
    (hfirst : p.misses none (Outline.lit ") throws ".toList)
      [.one .word, .many (.except [])] = true)
    (hlast : p.misses none (Outline.lit " \x7b".toList) [] = true)
    (hname : ∀ w ∈ es.names, ∀ b rest, behindName.Fits rest → Quiet p b w rest) (b : Option Char) :
    Quiet p b (") throws ".toList ++ es.closed) [] := by
  refine .append ?_ (.append ?_ ?_)
  · rw [List.append_nil]
    exact quiet_of_misses p none _ _ hfirst b _ _ (View.knows_none b) (Outline.fits_lit _)
      (es.fits_text _)
  · exact quiet_text hcomma es hname _ _ fits_brace
  · exact quiet_of_misses p none _ _ hlast _ _ _ (View.knows_none _) (Outline.fits_lit _) rfl

end Exceptions

namespace IsEntry

variable {indent : Blanks} {clause line : Line}

section
variable (hclause : Lacks clauseLacks clause)
include hclause

theorem enhancedFor (h : IsEntry "public void execute(" indent clause line) :
    IsEntry "public void execute(" indent clause (Rules.enhancedFor line) := by
  have habsent := h.absent hclause Rules.forEachHeader.pattern (by decide)
  rwa [Rules.enhancedFor, Edit.apply_absent _ _ habsent]

theorem namespaceHeader (h : IsEntry "public void execute(" indent clause line) :
    IsEntry "public void execute(" indent clause (Rules.namespaceHeader line) := by
  have hsigns : ∀ d ∈ paramsLack, Unicode.isCaseless d = true ∧ d ∉ "namespace ".toList ∧
      d ∉ " \x7b".toList := by decide
  refine h.apply_edit hclause Rules.packageLine (by decide) (by decide) (by decide)
    (fun d hd => ?_) clause fun b => ?_
  · obtain ⟨hcaseless, hfirst, hlast⟩ := hsigns d hd
    have hkind : Unicode.CaselessKind (· == d) := fun c hc =>
      eq_of_beq hc ▸ Unicode.caseless_of_test d hcaseless
    intro part hpart
    simp only [Rules.packageLine, List.mem_cons, List.not_mem_nil, or_false] at hpart
    rcases hpart with rfl | rfl | rfl
    · exact hfirst
    · exact fun xs => .of_filter (filter_pascalPath hkind xs)
    · exact hlast
  · exact replaceFrom_all_quiet _ _ b _ (quiet_of_misses _ none _ [] (by decide) b _ _
      (View.knows_none b) (fits_clause hclause) rfl)

end

theorem inheritance (es : Exceptions) (hfree : ∀ w ∈ es.names, ¬IsReserved w)
    (h : IsEntry "public void execute(" indent es.closed line) :
    IsEntry "public void execute(" indent es.closed (Rules.inheritance line) := by
  have hkeep : ∀ w, IsReserved w → ∀ g : Line → Line, (∀ v, v ≠ w → g v = v) →
      mapWords g es.closed = es.closed := by
    intro w hw g hg
    rw [es.mapWords_closed, es.spelled_eq_text g fun v hv => hg v ?_, Exceptions.closed]
    exact fun hvw => hfree v hv (hvw ▸ hw)
  have hseparator : Lacks paramsLack (Rules.implementsSeparator line) := by
    rw [Rules.implementsSeparator]
    unfold Lacks
    split <;> decide
  have hextends := h.apply_wordEdit "public void execute".toList rfl "extends".toList [':']
    (areWords_of_all _ (by decide)) (by unfold Lacks; decide) (by decide) (by decide)
    (hkeep _ (by unfold IsReserved; decide))
  exact hextends.apply_wordEdit "public void execute".toList rfl "implements".toList _
    (areWords_of_all _ (by decide)) hseparator (by decide) (by decide)
    (hkeep _ (by unfold IsReserved; decide))

end IsEntry

namespace Rules

theorem methodHeader_quiet_others (b : Option Char) (hb : b.any Unicode.isWord = false)
    (xs rest : Line) (hxs : ∀ c ∈ xs, Unicode.isWord c = false) : Quiet methodHeader b xs rest := by
  induction xs generalizing b with
  | nil => trivial
  | cons c xs ih =>
    have hc : Unicode.isWord c = false := hxs c (by simp)
    refine ⟨?_, ih (some c) hc fun d hd => hxs d (by simp [hd])⟩
    have hedge : (⟨b, c :: (xs ++ rest)⟩ : Place).atEdge = false := by simp [Place.atEdge, hb, hc]
    rw [matchAt, methodHeader, matchK_all_cons, matchK, matchK_all_cons, matchK, hedge]
    rfl

theorem methodHeader_entry (b : Option Char) (hb : b.any Unicode.isWord = false) (rest : Line) :
    ∃ h, methodHeader.matchAt ⟨b, "public void execute(".toList ++ rest⟩ = some h ∧
      h.text = "public void execute(".toList ∧ h.group 1 = "public void ".toList ∧
      h.group 2 = "void".toList ∧ h.group 3 = "execute".toList ∧ h.group 4 = "(".toList := by
  let line : Line := "public void execute(".toList ++ rest
  have hedge : (⟨b, line⟩ : Place).atEdge = true :=
    Place.atEdge_word b "public".toList (" void execute(".toList ++ rest) hb (by decide)
      (isWordText_of_all _ (by decide))
  have hlength : line.length = ("ublic void execute(".toList ++ rest).length + 1 := rfl
  refine ⟨⟨b, textBetween line rest, [⟨4, "(".toList ++ rest, rest⟩,
    ⟨3, "execute".toList ++ ("(".toList ++ rest), "(".toList ++ rest⟩,
    ⟨1, "public void ".toList ++ ("execute(".toList ++ rest), "execute(".toList ++ rest⟩,
    ⟨2, "void".toList ++ (" execute(".toList ++ rest), " execute(".toList ++ rest⟩], rest⟩,
    ?_, textBetween_left _ _, textBetween_left _ _, textBetween_left _ _, textBetween_left _ _,
    textBetween_left _ _⟩
  -- One round of the modifiers is taken; what is left is computed.
  rw [matchAt, methodHeader, matchK_all_cons, matchK, matchK_all_cons, matchK_edge _ _ _ hedge,
    matchK_all_cons, matchK, hlength, starK, modifier, matchK_all_cons, matchK_edge _ _ _ hedge]
  rfl

end Rules

namespace EntryLine

def foreignEdits : List Edit :=
  Rules.memberCall :: Rules.printCall :: (ContainerShape.known.map ContainerShape.instantiated ++
    (Rules.utilityEdits ++ Rules.loggerEdits.drop 2))

theorem foreignEdits_pass : ∀ e ∈ foreignEdits,
    e.pattern.passes (head "public void Execute(" ++ rest) = true := by decide

def confinedEdits : List Edit :=
  ContainerShape.known.flatMap (fun s => [s.elided, s.declared]) ++
    (Rules.loggerEdits.drop 1).take 1

theorem confinedEdits_confined : ∀ e ∈ confinedEdits,
    isConfined "public void Execute(" e = true ∧ e.pattern.misses none clauseOutline [] = true := by
  decide

end EntryLine

namespace IsEntry

variable {indent : Blanks} {clause line : Line}

theorem behind_indent (indent : Blanks) : (behind none indent.1).any Unicode.isWord = false :=
  behind_others none indent.1 rfl (TypeExpr.isWord_blanks indent)

section
variable (hclause : Lacks clauseLacks clause)
include hclause

theorem methodNames (h : IsEntry "public void execute(" indent clause line) :
    IsEntry "public void Execute(" indent clause (Rules.methodNames line) := by
  obtain ⟨params, hparams, rfl⟩ := h
  refine ⟨params, hparams, ?_⟩
  have hfits := fits_rest hclause params hparams
  generalize hpost : params ++ (") throws ".toList ++ clause) = post at hfits
  obtain ⟨h, hm, htext, hfirst, htype, hname, hlast⟩ :=
    Rules.methodHeader_entry (behind none indent.1) (behind_indent indent) post
  have hquiet := Rules.methodHeader_quiet_others none rfl indent.1
    ("public void execute(".toList ++ post) (TypeExpr.isWord_blanks indent)
  have hafter := quiet_of_misses Rules.methodHeader none EntryLine.rest [] (by decide)
    (behind (behind none indent.1) "public void execute(".toList) post [] (View.knows_none _) hfits
    rfl
  rw [EntryLine.text, EntryLine.text, hpost, Rules.methodNames]
  refine (replaceAll_single _ _ indent.1 _ post h hquiet hm htext (by decide) hafter).trans ?_
  rw [hfirst, htype, hname, hlast]
  rfl

theorem applyAll_foreign (h : IsEntry "public void Execute(" indent clause line) (es : List Edit)
    (hes : ∀ e ∈ es, e ∈ foreignEdits) : Edit.applyAll es line = line :=
  Edit.applyAll_absent _ _ fun e he => h.absent hclause _ (foreignEdits_pass e (hes e he))

theorem callCasing (h : IsEntry "public void Execute(" indent clause line) :
    IsEntry "public void Execute(" indent clause (Rules.callCasing line) := by
  have hsame := h.applyAll_foreign hclause [Rules.memberCall] (by simp [foreignEdits])
  rwa [Rules.callCasing, ← Edit.applyAll_singleton, hsame]

theorem bareCalls (h : IsEntry "public void Execute(" indent clause line) :
    Rules.bareCall.pattern.replaceUnlessAfter Rules.isReceiverPart Rules.bareCall.render line =
      line := by
  obtain ⟨params, hparams, rfl⟩ := h
  let pre : Line := indent.1 ++ "public void ".toList
  let post : Line := params ++ (") throws ".toList ++ clause)
  have hline : EntryLine.text "public void Execute(" indent params clause =
      pre ++ (bareText "Execute".toList ++ post) := by
    simp [EntryLine.text, pre, post, bareText]
  have hfits : EntryLine.rest.Fits post := fits_rest hclause params hparams
  have hquiet : Quiet Rules.bareCall.pattern none pre (bareText "Execute".toList ++ post) :=
    quiet_of_misses _ none (.many .blank :: Outline.lit "public void ".toList)
      (Outline.lit "Execute(".toList ++ EntryLine.rest) (by decide) none _ _
      (View.knows_none none)
      ((Outline.fits_many .blank indent.1 indent.2).append (Outline.fits_lit _))
      ((Outline.fits_lit _).append hfits)
  have hafter : ∀ b, Quiet Rules.bareCall.pattern b post [] := fun b =>
    quiet_of_misses _ none EntryLine.rest [] (by decide) b _ _ (View.knows_none b) hfits rfl
  have hfree : (behind none pre).any Rules.isReceiverPart = false := by
    rw [behind_append]
    exact (by decide : (some ' ').any Rules.isReceiverPart = false)
  rw [hline, Rules.bareCall_replace pre _ post (by decide) (isWordText_of_all _ (by decide)) hquiet
    hfree hafter]
  rfl

end

theorem standaloneCalls (es : Exceptions)
    (h : IsEntry "public void Execute(" indent es.closed line) :
    IsEntry "public void Execute(" indent es.closed (Rules.standaloneCalls line) := by
  have hplain : ∀ d ∈ paramsLack, Rules.elseIf.template.all (Part.isPlain d) = true := by decide
  -- Behind a name there is a comma or a brace, so no `if` follows it.
  have hquiet := es.quiet_closed Rules.elseIf.pattern (by decide) (by decide)
    (by decide) fun w hw b rest hrest =>
      quiet_of_misses _ none [.many .word] _ (by decide) b w rest (View.knows_none b)
        (Outline.fits_many .word w (es.isWordText_names w hw)) hrest
  have hmended := h.apply_edit es.lacks_closed Rules.elseIf (by decide) (by decide)
    (by decide) (fun d hd => Rules.elseIf.spares_of_plain d (hplain d hd)) es.closed
    fun b => replaceFrom_all_quiet _ _ b _ (hquiet b)
  rw [Rules.standaloneCalls, bareCalls es.lacks_closed hmended]
  exact hmended

theorem primitiveTypes (es : Exceptions)
    (h : IsEntry "public void Execute(" indent es.closed line) :
    IsEntry "public void Execute(" indent es.keywords.closed (Rules.primitiveTypes line) := by
  obtain ⟨params, hparams, rfl⟩ := h
  have hkeywords : ∀ d ∈ paramsLack, ∀ p ∈ Rules.primitives, d ∉ p.2.toList := by decide
  have hparams' : Lacks paramsLack (Rules.primitiveTypes params) := by
    intro d hd
    refine Rules.primitiveWord.apply_spares d (fun part hpart => ?_) params (hparams d hd)
    rw [List.mem_singleton.1 hpart]
    intro xs
    rw [Rules.primitiveKeyword]
    split
    · next p hp => exact .of_not_mem (hkeywords d hd p (List.mem_of_find?_eq_some hp))
    · exact id
  refine ⟨_, hparams', ?_⟩
  rw [Rules.primitiveTypes_eq, mapWords_text _ "public void Execute".toList rfl indent params _
    (by decide) (by decide), es.mapWords_closed, ← es.text_keywords, Rules.primitiveTypes_eq]
  rfl

section
variable (hclause : Lacks clauseLacks clause)
include hclause

theorem collectionDeclarations (h : IsEntry "public void Execute(" indent clause line) :
    IsEntry "public void Execute(" indent clause (Rules.collectionDeclarations line) :=
  applyAll_confined hclause _
    (fun e he => confinedEdits_confined e (List.mem_append_left _ he)) h

theorem collectionInstantiations (h : IsEntry "public void Execute(" indent clause line) :
    IsEntry "public void Execute(" indent clause (Rules.collectionInstantiations line) := by
  rwa [Rules.collectionInstantiations, h.applyAll_foreign hclause _ fun e he => by
    simp only [foreignEdits, List.mem_cons, List.mem_append, he, true_or, or_true]]

theorem collectionUtilities (h : IsEntry "public void Execute(" indent clause line) :
    IsEntry "public void Execute(" indent clause (Rules.collectionUtilities line) := by
  rwa [Rules.collectionUtilities, h.applyAll_foreign hclause _ fun e he => by
    simp only [foreignEdits, List.mem_cons, List.mem_append, he, true_or, or_true]]

omit hclause in
theorem stripImports (h : IsEntry "public void Execute(" indent clause line) :
    IsEntry "public void Execute(" indent clause (Rules.stripImports line) := by
  obtain ⟨params, hparams, rfl⟩ := h
  refine ⟨params, hparams, ?_⟩
  rw [Rules.stripImports, EntryLine.text, Text.trimStart_blanks indent _ (by exact rfl)]
  rfl

theorem loggerPrint (h : IsEntry "public void Execute(" indent clause line) :
    IsEntry "public void Execute(" indent clause (Rules.loggerPrint line) := by
  have hsame := h.applyAll_foreign hclause [Rules.printCall] (by simp [foreignEdits])
  rwa [Rules.loggerPrint, ← Edit.applyAll_singleton, hsame]

/-- The edits for loggers that need more than a name. -/
theorem laterLoggerEdits (h : IsEntry "public void Execute(" indent clause line) :
    IsEntry "public void Execute(" indent clause
      (Edit.applyAll (Rules.loggerEdits.drop 1) line) := by
  have hfield := applyAll_confined hclause ((Rules.loggerEdits.drop 1).take 1)
    (fun e he => confinedEdits_confined e (List.mem_append_right _ he)) h
  have hcut : Rules.loggerEdits.drop 1 =
      (Rules.loggerEdits.drop 1).take 1 ++ Rules.loggerEdits.drop 2 := rfl
  rwa [hcut, Edit.applyAll_append, hfield.applyAll_foreign hclause _ fun e he => by
    simp only [foreignEdits, List.mem_cons, List.mem_append, he, or_true]]

end

end IsEntry

structure EntryPoint where
  indent : Blanks
  params : Line
  exceptions : Exceptions
  plain : Lacks paramsLack params
  free : ∀ w ∈ exceptions.names, ¬IsReserved w

namespace EntryPoint

variable (e : EntryPoint)

def line : Line := EntryLine.text "public void execute(" e.indent e.params e.exceptions.closed

theorem before_loggers : IsEntry "public void Execute(" e.indent e.exceptions.keywords.closed
    (Rules.stripImports (Rules.collectionUtilities (Rules.collectionInstantiations
      (Rules.collectionDeclarations (Rules.primitiveTypes (Rules.standaloneCalls (Rules.callCasing
        (Rules.methodNames (Rules.inheritance (Rules.namespaceHeader
          (Rules.enhancedFor e.line))))))))))) := by
  have hopen := e.exceptions.lacks_closed
  have hmapped := e.exceptions.keywords.lacks_closed
  have hentry : IsEntry "public void execute(" e.indent e.exceptions.closed e.line :=
    ⟨e.params, e.plain, rfl⟩
  have hnamed := ((hentry.enhancedFor hopen).namespaceHeader hopen).inheritance e.exceptions e.free
  have hcased := ((hnamed.methodNames hopen).callCasing hopen).standaloneCalls e.exceptions
  have htyped := hcased.primitiveTypes e.exceptions
  exact (((htyped.collectionDeclarations hmapped).collectionInstantiations
    hmapped).collectionUtilities hmapped).stripImports

end EntryPoint

end JvsSharp
