import JvsSharp.Proofs.FieldDeclaration

/-!
# Assignments of new containers to a field

An assignment that leaves its types out is completed from the index. Behind
that the line carries the container of the target already, so the rules for
containers find it but have nothing to change. Only the removal of imports can
touch it: a name that ends in `import` is followed by a space here, and all
from there on is dropped.
-/

set_option autoImplicit false

namespace JvsSharp
open Pattern ContainerShape

/-- A pattern that opens with a text does not match where its first character is missing. -/
theorem Pattern.quiet_text (d : Char) (ds : List Char) (ps : List Pattern) (b : Option Char)
    (xs rest : Line) (h : d ∉ xs) : Quiet (all (.text (d :: ds) :: ps)) b xs rest := by
  induction xs generalizing b with
  | nil => trivial
  | cons c xs ih =>
    have hc : c ≠ d := fun heq => h (by simp [heq])
    refine ⟨?_, ih (some c) fun hmem => h (by simp [hmem])⟩
    rw [matchAt, matchK_all_cons, matchK, Place.skip?, if_neg hc]
    rfl

namespace Rules

/-- A word before a space is taken for an import only if it is `import`. -/
theorem otherImport_none (w rest : Line) (hw : IsWordText w) (hne : w ≠ "import".toList)
    (b : Option Char) : otherImport.pattern.matchAt ⟨b, w ++ ' ' :: rest⟩ = none := by
  rw [otherImport, matchAt, matchK_all_cons, lit, matchK]
  cases hskip : Place.skip? "import ".toList ⟨b, w ++ ' ' :: rest⟩ with
  | none => rfl
  | some c =>
    obtain ⟨hrest, -⟩ := skip?_leads _ _ c hskip
    have hspace : ∀ rest, EndsWord (' ' :: rest) := fun rest =>
      endsWord_cons ' ' rest (by decide)
    have hsame : w = "import".toList := run_unique w _ (' ' :: rest) (' ' :: c.rest) hw
      (isWordText_of_all _ (by decide)) (hspace _) (hspace _) hrest
    exact absurd hsame hne

/-- A part `xs` of a word that goes on with `last` and ends before a space. -/
theorem otherImport_quiet (xs last rest : Line) (hw : IsWordText (xs ++ last))
    (h : ∀ v, v ≠ [] → v <:+ xs → v ++ last ≠ "import".toList) (b : Option Char) :
    Quiet otherImport.pattern b xs (last ++ ' ' :: rest) := by
  induction xs generalizing b with
  | nil => trivial
  | cons c xs ih =>
    constructor
    · rw [← List.append_assoc, ← List.cons_append]
      exact otherImport_none _ rest hw (h (c :: xs) (by simp) (List.suffix_refl _)) b
    · refine ih (fun d hd => hw d (List.mem_cons_of_mem c hd)) (fun v hv hsuffix => ?_) _
      exact h v hv (hsuffix.trans (List.suffix_cons c xs))

theorem imports_eq (line : Line)
    (hlibraries : Edit.applyAll (importEdits.take 3) line = line) :
    imports line = otherImport.apply line := by
  rw [imports, importEdits_cut, Edit.applyAll_append, hlibraries, Edit.applyAll_singleton]

/-- A word with another ending is no import, so the line stays if nothing behind it is one. -/
theorem imports_keep_word (pre w rest : Line)
    (hlibraries : Edit.applyAll (importEdits.take 3) (pre ++ (w ++ (" = ".toList ++ rest))) =
      pre ++ (w ++ (" = ".toList ++ rest)))
    (hpre : Quiet otherImport.pattern none pre (w ++ (" = ".toList ++ rest)))
    (hw : IsWordText w) (h : ¬"import".toList <:+ w)
    (hrest : ∀ b, Quiet otherImport.pattern b (" = ".toList ++ rest) []) :
    imports (pre ++ (w ++ (" = ".toList ++ rest))) = pre ++ (w ++ (" = ".toList ++ rest)) := by
  have hword : ∀ b, Quiet otherImport.pattern b w (" = ".toList ++ rest) := by
    intro b
    refine otherImport_quiet w [] ("= ".toList ++ rest) (by simpa using hw) (fun v _ hv heq => ?_) b
    rw [List.append_nil] at heq
    exact h (heq ▸ hv)
  rw [imports_eq _ hlibraries]
  refine otherImport.apply_quiet _ (.append ?_ (.append ?_ (hrest _)))
  · rwa [List.append_nil]
  · rw [List.append_nil]
    exact hword _

/-- What follows a word that ends in `import` is dropped with this ending. -/
theorem imports_cut_word (pre stem rest : Line)
    (hlibraries : Edit.applyAll (importEdits.take 3)
        (pre ++ (stem ++ ("import ".toList ++ (rest ++ [';'])))) =
      pre ++ (stem ++ ("import ".toList ++ (rest ++ [';']))))
    (hpre : Quiet otherImport.pattern none pre (stem ++ ("import ".toList ++ (rest ++ [';']))))
    (hstem : IsWordText stem) (hne : rest ≠ []) (hrest : '\n' ∉ rest) :
    imports (pre ++ (stem ++ ("import ".toList ++ (rest ++ [';'])))) = pre ++ stem := by
  let mid : Line := "import ".toList ++ (rest ++ [';'])
  have hline : pre ++ (stem ++ ("import ".toList ++ (rest ++ [';']))) =
      (pre ++ stem) ++ (mid ++ []) := by simp [mid]
  have hquiet : Quiet otherImport.pattern none (pre ++ stem) (mid ++ []) := by
    rw [List.append_nil]
    refine .append hpre ?_
    have hword : IsWordText (stem ++ "import".toList) := fun c hc =>
      (List.mem_append.1 hc).elim (hstem c)
        (isWordText_of_all "import".toList (by decide) c)
    refine otherImport_quiet stem "import".toList _ hword (fun v hv _ heq => ?_) _
    have hlength := congrArg List.length heq
    rw [List.length_append] at hlength
    exact hv (List.length_eq_zero_iff.1 (by omega))
  have hinLine : ∀ x ∈ rest, CharClass.inLine.mem x = true := by
    intro x hx
    have hnewline : x ≠ '\n' := fun heq => hrest (heq ▸ hx)
    simpa [CharClass.mem] using hnewline
  have hmatch : ∀ b, otherImport.pattern.matchAt ⟨b, mid ++ []⟩ = some ⟨b, mid, [], []⟩ := by
    intro b
    have hmid : mid ++ [] = "import ".toList ++ (rest ++ ';' :: ([] ++ [])) := by simp [mid]
    have htext : textBetween (mid ++ []) [] = mid := by rw [textBetween_nil, List.append_nil]
    rw [hmid] at htext ⊢
    rw [otherImport, matchAt, matchK_all_cons, lit, matchK_text, matchK_all_cons]
    refine matchK_stretch .inLine ';' (by decide) _ rest [] [] [] _ ?_ hne hinLine (by simp)
      rfl _ ?_
    · intro b v hv
      rw [matchK_all_cons]
      exact matchK_char_none ';' b v _ _ hv
    · rw [matchK_all_cons]
      refine (matchK_char ';' _ _ _ _).trans ?_
      rw [matchK_all_nil]
      exact congrArg (fun text => some (Hit.mk b text [] [])) htext
  rw [imports_eq _ hlibraries, hline, Edit.apply,
    replaceAll_single otherImport.pattern otherImport.render _ mid [] _ hquiet (hmatch _) rfl
      (by simp [mid]) trivial]
  simp [Edit.render, otherImport]

end Rules

/-- An identifier is not `import` itself, so what is before this ending is a name. -/
theorem Outline.fits_stem_of_import (n : Identifier) (stem : Line)
    (h : n.text = stem ++ "import".toList) : Outline.nameText.Fits stem := by
  obtain ⟨c, rest, hform, hc, hrest⟩ := n.form
  cases stem with
  | nil =>
    have hreserved : "import".toList ∈ reservedWords.map String.toList := by decide
    exact absurd (h ▸ hreserved) n.free
  | cons d stem =>
    rw [h, List.cons_append, List.cons.injEq] at hform
    obtain ⟨rfl, rfl⟩ := hform
    exact (Outline.fits_one .lower d hc).append
      (Outline.fits_many alnum stem fun x hx => hrest x (by simp [hx]))

namespace Field

variable (f : Field)

theorem elidedAssignment_hit (container : Word) (b : Option Char) :
    ∃ h, Rules.elidedAssignment.matchAt
        ⟨b, "this.".toList ++ (f.name ++ (" = ".toList ++ creation container.1 [] [';']))⟩ =
          some h ∧
      h.text = "this.".toList ++ (f.name ++ (" = ".toList ++ creation container.1 [] [])) ∧
      h.group 1 = f.name := by
  have hequals : " = ".toList = [' ', '=', ' '] := by decide
  let after : Line := ' ' :: '=' :: ' ' :: creation container.1 [] [';']
  refine ⟨⟨b, "this.".toList ++ (f.name ++ (" = ".toList ++ creation container.1 [] [])),
    [⟨1, f.name ++ after, after⟩], [';']⟩, ?_, rfl, ?_⟩
  · have htext : "this.".toList ++ (f.name ++ (" = ".toList ++ creation container.1 [] [';'])) =
        ("this.".toList ++ (f.name ++ (" = ".toList ++ creation container.1 [] []))) ++ [';'] := by
      rw [creation_append _ _ [';']]
      simp
    have hspan : ∀ (b : Option Char) (c : Char) (rest : Line) (m : List Mark)
        (g : Place → List Mark → Option Hit), Unicode.isBlank c = false →
        gap.matchK ⟨b, c :: rest⟩ m g = g ⟨b, c :: rest⟩ m := fun b c rest m g hc =>
      matchK_span_none .blank b _ m g (stops_cons _ c rest hc)
    have hblank : ∀ (b : Option Char) (c : Char) (rest : Line) (m : List Mark)
        (g : Place → List Mark → Option Hit), Unicode.isBlank c = false →
        gap.matchK ⟨b, [' '] ++ c :: rest⟩ m g = g ⟨some ' ', c :: rest⟩ m :=
      fun b c rest m g hc => matchK_span .blank b [' '] _ m g (by decide) (stops_cons _ c rest hc)
    rw [matchAt, Rules.elidedAssignment, matchK_all_cons, lit, matchK_text, matchK_all_cons, matchK]
    refine (matchK_chars .word _ f.name _ [] _ f.name_ne f.name_word ?_).trans ?_
    · rw [hequals]
      exact stops_cons _ ' ' _ (by decide)
    rw [hequals, matchK_all_cons]
    refine (hblank _ '=' _ _ _ (by decide)).trans ?_
    rw [matchK_all_cons]
    refine (matchK_char '=' _ _ _ _).trans ?_
    rw [matchK_all_cons]
    refine (hblank _ 'n' _ _ _ (by decide)).trans ?_
    rw [matchK_all_cons]
    refine (matchK_text "new".toList _ _ _ _).trans ?_
    rw [matchK_all_cons]
    refine (matchK_chars .blank _ [' '] _ _ _ (by simp) (by decide)
      (stops_blank_word container.1 _ container.2.1 container.2.2)).trans ?_
    rw [matchK_all_cons]
    refine (matchK_chars .word _ container.1 _ _ _ container.2.1 container.2.2
      (stops_cons _ '<' _ (by decide))).trans ?_
    rw [matchK_all_cons, hspan _ '<' _ _ _ (by decide), matchK_all_cons]
    refine (matchK_char '<' _ _ _ _).trans ?_
    rw [matchK_all_cons, List.nil_append, hspan _ '>' _ _ _ (by decide), matchK_all_cons]
    refine (matchK_char '>' _ _ _ _).trans ?_
    rw [matchK_all_cons, hspan _ '(' _ _ _ (by decide), matchK_all_cons]
    refine (matchK_char '(' _ _ _ _).trans ?_
    rw [matchK_all_cons, hspan _ ')' _ _ _ (by decide), matchK_all_cons]
    refine (matchK_char ')' _ _ _ _).trans ?_
    rw [matchK_all_nil, ← hequals, htext, textBetween_left, hequals]
    rfl
  · simp [Hit.group, Mark.text, textBetween_left]

theorem assignment_diamond (index : Index)
    (hindex : index.get? f.name = some ⟨f.shape.target, f.types⟩) (indent : Blanks)
    (container : Word) :
    Rules.diamondInference index (f.assignment indent container) = f.assigned indent := by
  obtain ⟨h, hmatch, htext, hname⟩ := f.elidedAssignment_hit container (behind none indent.1)
  have hindent : 't' ∉ indent.1 := fun hmem => absurd (indent.2 't' hmem) (by decide)
  have hline : "this.".toList ++ (f.name ++ (" = ".toList ++ creation container.1 [] [';'])) =
      ("this.".toList ++ (f.name ++ (" = ".toList ++ creation container.1 [] []))) ++ [';'] := by
    rw [creation_append _ _ [';']]
    simp
  rw [hline] at hmatch
  rw [assignment, newLine, hline, Rules.diamondInference,
    replaceAll_single Rules.elidedAssignment _ indent.1 _ [';'] h
      (quiet_text 't' _ _ none _ _ hindent) hmatch htext (by simp)
      (quiet_text 't' _ _ _ [';'] [] (by decide)), hname, hindex]
  simp [assigned, newLine, creation, generic]

theorem assigned_inheritance (indent : Blanks) :
    Rules.inheritance (f.assigned indent) = f.assigned indent := by
  refine Rules.inheritance_eq_self _ fun g hg => ?_
  have hwords : ∀ w ∈ ["this".toList, "new".toList], w ∉ baseWords := by decide
  have htarget : f.shape.target.toList ∉ baseWords := by
    have hall : ∀ c ∈ known, c.target.toList ∉ baseWords := by decide
    exact hall f.shape f.shape_known
  have hnames : ∀ w ∈ f.elements.keywords.spaced.names, g w = w := by
    intro w hw
    rw [Elements.names_spaced, Elements.names_keywords, List.mem_map] at hw
    obtain ⟨v, hv, rfl⟩ := hw
    exact hg _ (not_baseWord_keyword v (f.elements_free v hv))
  obtain ⟨-, hne, hw⟩ := container_word f.shape f.shape_known
  rw [assigned, types, mapWords_newLine g (fun w hw => hg w (hwords w hw)) indent f.name f.name_ne
    f.name_word _ hne hw, hg _ htarget, hg _ (not_baseWord_of_free _ f.name_free),
    Elements.textWith_eq_text g _ hnames]

theorem assigned_primitiveTypes (indent : Blanks) :
    Rules.primitiveTypes (f.assigned indent) = f.assigned indent := by
  have hwords : ∀ w ∈ ["this".toList, "new".toList], Rules.primitiveKeyword w = w := by
    decide
  have hnames : ∀ w ∈ f.elements.keywords.spaced.names, Rules.primitiveKeyword w = w := by
    intro w hw
    rw [Elements.names_spaced, Elements.names_keywords, List.mem_map] at hw
    obtain ⟨v, -, rfl⟩ := hw
    exact primitiveKeyword_idem v
  obtain ⟨-, hne, hw⟩ := container_word f.shape f.shape_known
  rw [Rules.primitiveTypes_eq, assigned, types, mapWords_newLine _ hwords indent f.name f.name_ne
    f.name_word _ hne hw, (primitiveKeyword_container f.shape f.shape_known).2,
    f.primitiveKeyword_name, Elements.textWith_eq_text _ _ hnames]

theorem spaced_arity : f.elements.keywords.spaced.isPair = f.shape.mapLike := by
  rw [Elements.isPair_spaced, Elements.isPair_keywords, f.arity]

theorem target_source (s : ContainerShape) (hs : s ∈ known) (h : s.source = f.shape.target) :
    s = f.shape := by
  have hall : ∀ c ∈ known, ∀ s ∈ known, s.source = c.target → s = c := by decide
  exact hall f.shape f.shape_known s hs h

theorem fits_assigned (indent : Blanks) :
    (Outline.newLine (.lit f.shape.target.toList) f.shape.mapLike).Fits (f.assigned indent) := by
  rw [← f.spaced_arity]
  exact Outline.fits_newLine f indent _ _ (Outline.fits_lit _) _

theorem parts_spaced (e : Elements) (s : ContainerShape) (h : e.spaced.isPair = s.mapLike) :
    (e.spaced.parts s h).written = e.spaced.text := by
  rw [Elements.parts_written]
  cases e with
  | one _ => rfl
  | two _ _ _ => rfl

def assignee (indent : Blanks) : Line :=
  indent.1 ++ ("this.".toList ++ (f.name ++ " = ".toList))

theorem assigned_creation (indent : Blanks) :
    f.assigned indent = f.assignee indent ++ creation f.shape.target.toList f.types [';'] := by
  simp [assigned, newLine, assignee]

theorem assigned_generic (indent : Blanks) :
    f.assigned indent = (f.assignee indent ++ "new ".toList) ++
      generic f.shape.target.toList f.types "();".toList := by
  rw [assigned_creation, List.append_assoc]
  rfl

theorem assigned_declared (indent : Blanks) (s : ContainerShape) (hs : s ∈ known) :
    s.declared.apply (f.assigned indent) = f.assigned indent := by
  by_cases hsource : s.source = f.shape.target
  · have hshape := f.target_source s hs hsource
    subst hshape
    have hfits : (Outline.assignee ++ Outline.lit "new ".toList).Fits
        (f.assignee indent ++ "new ".toList) :=
      (Outline.fits_assignee f indent).append (Outline.fits_lit _)
    have hrest := Outline.fits_generic (.lit f.shape.target.toList) f.shape.target.toList
      (Outline.fits_lit _) f.elements.keywords.spaced _ "();".toList (Outline.fits_lit _)
    rw [f.spaced_arity] at hrest
    have hpre := quiet_of_misses _ none _ _ (assignee_misses f.shape f.shape_known).1 none _ _
      (View.knows_none none) hfits hrest
    have hpost : Quiet f.shape.declared.pattern (some '>') ([] ++ "();".toList) [] :=
      opening_quiet_others f.shape f.shape_known [] _ _ _ (by decide)
    have hb : (behind none (f.assignee indent ++ "new ".toList)).any Unicode.isWord = false := by
      rw [behind_append]
      exact (by decide : Unicode.isWord ' ' = false)
    have happly := declared_apply f.shape f.shape_known
      (f.elements.keywords.spaced.parts f.shape f.spaced_arity) _ [] "();".toList hb
      ⟨by simp, stops_cons _ '(' _ (by decide)⟩
      (by rwa [Elements.parts_text, hsource]) hpost
    rw [Elements.parts_text, parts_spaced, hsource] at happly
    rw [assigned_generic]
    exact happly
  · exact s.declared.apply_absent _ (absent_of_passes _ _ _
      (newLine_passes f.shape f.shape_known s hs hsource).1 (f.fits_assigned indent))

theorem assigned_instantiated (indent : Blanks) (s : ContainerShape) (hs : s ∈ known) :
    s.instantiated.apply (f.assigned indent) = f.assigned indent := by
  by_cases hsource : s.source = f.shape.target
  · have hshape := f.target_source s hs hsource
    subst hshape
    have hrest := Outline.fits_creation (.lit f.shape.target.toList) f.shape.target.toList
      (Outline.fits_lit _) f.elements.keywords.spaced
    rw [f.spaced_arity] at hrest
    have hpre := quiet_of_misses _ none _ _ (assignee_misses f.shape f.shape_known).2 none _ _
      (View.knows_none none) (Outline.fits_assignee f indent) hrest
    have hpost : Quiet f.shape.instantiated.pattern (some ')') [';'] [] :=
      quiet_text 'n' _ _ _ [';'] [] (by decide)
    have happly := instantiated_apply f.shape f.shape_known
      (f.elements.keywords.spaced.parts f.shape f.spaced_arity) _ [';']
      (by rwa [Elements.parts_text, hsource]) hpost
    rw [Elements.parts_text, parts_spaced, hsource] at happly
    rw [assigned_creation]
    exact happly
  · exact s.instantiated.apply_absent _ (absent_of_passes _ _ _
      (newLine_passes f.shape f.shape_known s hs hsource).2 (f.fits_assigned indent))

theorem assigned_elided (indent : Blanks) (s : ContainerShape) (hs : s ∈ known) :
    s.elided.apply (f.assigned indent) = f.assigned indent := by
  have hfits := Outline.fits_newLine f indent .wordText _
    (fits_container f.shape f.shape_known).2 f.elements.keywords.spaced
  exact s.elided.apply_absent _ (absent_of_passes _ _ _ (newLine_not_elided _ s hs) hfits)

theorem assigned_collections (indent : Blanks) :
    Rules.collectionDeclarations (f.assigned indent) = f.assigned indent ∧
      Rules.collectionInstantiations (f.assigned indent) = f.assigned indent := by
  constructor
  · rw [Rules.collectionDeclarations_eq]
    refine foldl_same _ _ known fun s hs => ?_
    rw [f.assigned_elided indent s hs, f.assigned_declared indent s hs]
  · rw [Rules.collectionInstantiations_eq]
    exact foldl_same _ _ known fun s hs => f.assigned_instantiated indent s hs

theorem otherImport_quiet_this (indent : Blanks) (rest : Line) :
    Quiet Rules.otherImport.pattern none (indent.1 ++ "this.".toList) rest := by
  have hfits : ([.many .blank] ++ Outline.lit "this.".toList : Outline).Fits
      (indent.1 ++ "this.".toList) :=
    (Outline.fits_many .blank indent.1 indent.2).append (Outline.fits_lit _)
  exact quiet_of_misses _ none _ _ (newLine_no_import true).1 none _ rest (View.knows_none none)
    hfits (Outline.fits_many _ rest (by simp [CharClass.mem]))

theorem assigned_libraries (indent : Blanks) :
    Edit.applyAll (Rules.importEdits.take 3) (f.assigned indent) = f.assigned indent := by
  have hfits := Outline.fits_newLine f indent .wordText _
    (fits_container f.shape f.shape_known).2 f.elements.keywords.spaced
  exact Edit.applyAll_absent _ _ fun e he =>
    absent_of_passes _ _ _ (newLine_no_library _ e he) hfits

theorem imports_keep (indent : Blanks) (h : ¬"import".toList <:+ f.name) :
    Rules.imports (f.assigned indent) = f.assigned indent := by
  have hfits := (Outline.fits_lit " = ".toList).append (Outline.fits_creation .wordText _
    (fits_container f.shape f.shape_known).2 f.elements.keywords.spaced)
  have hend : ∀ b, Quiet Rules.otherImport.pattern b
      (" = ".toList ++ creation f.shape.target.toList f.types [';']) [] := fun b =>
    quiet_of_misses _ none _ [] (newLine_no_import _).2 b _ [] (View.knows_none b) hfits rfl
  have hline : f.assigned indent = (indent.1 ++ "this.".toList) ++ (f.name ++
      (" = ".toList ++ creation f.shape.target.toList f.types [';'])) := by
    rw [assigned, newLine, List.append_assoc]
  have hlibraries := f.assigned_libraries indent
  rw [hline] at hlibraries ⊢
  exact Rules.imports_keep_word _ _ _ hlibraries (otherImport_quiet_this indent _) f.name_word h
    hend

theorem newline_not_mem_types : '\n' ∉ f.types := by
  have hword : ∀ w : AsciiWord, '\n' ∉ w.1 := fun w hmem =>
    absurd (w.2.2 '\n' hmem) (by decide)
  cases he : f.elements with
  | one type => simpa [types, he, Elements.keywords, Elements.spaced, Elements.text,
      Elements.textWith] using hword type.keyword
  | two key gap value =>
    simpa [types, he, Elements.keywords, Elements.spaced, Elements.text, Elements.textWith] using
      ⟨hword key.keyword, hword value.keyword⟩

theorem imports_cut (indent : Blanks) (stem : Line) (h : f.name = stem ++ "import".toList) :
    Rules.imports (f.assigned indent) = indent.1 ++ ("this.".toList ++ stem) := by
  let rest : Line := "= ".toList ++ creation f.shape.target.toList f.types []
  have hrest : '\n' ∉ rest := by
    have htarget : ∀ c ∈ known, '\n' ∉ c.target.toList := by decide
    have htypes := f.newline_not_mem_types
    simp [rest, creation, generic, htarget f.shape f.shape_known, htypes]
  have hline : f.assigned indent =
      (indent.1 ++ "this.".toList) ++ (stem ++ ("import ".toList ++ (rest ++ [';']))) := by
    simp [assigned, newLine, h, rest, creation, generic]
  have hstem : IsWordText stem := fun c hc => f.name_word c (by simp [h, hc])
  have hlibraries := f.assigned_libraries indent
  rw [hline] at hlibraries ⊢
  rw [Rules.imports_cut_word _ _ _ hlibraries (otherImport_quiet_this indent _) hstem
    (by simp [rest]) hrest, List.append_assoc]

theorem fits_stem (indent : Blanks) (stem : Line) (h : f.name = stem ++ "import".toList) :
    Outline.stem.Fits (indent.1 ++ ("this.".toList ++ stem)) :=
  (Outline.fits_many .blank indent.1 indent.2).append ((Outline.fits_lit _).append
    (Outline.fits_stem_of_import f.identifier stem h))

/-- The line that the general mode makes of an assignment. -/
theorem turns_assignment (index : Index)
    (hindex : index.get? f.name = some ⟨f.shape.target, f.types⟩) (indent : Blanks)
    (container : Word) (line : Line) (himports : Rules.imports (f.assigned indent) = line)
    (hlate : ∀ rules, (∀ r ∈ rules, r ∈ sparedRules) → Turns index rules line line)
    (hconstants : Rules.constants line = line) :
    Turns index Mode.general.rules (f.assignment indent container) line := by
  obtain ⟨-, htarget⟩ := fits_container f.shape f.shape_known
  have hspared : ∀ rules : List Rule, (∀ r ∈ rules, r ∈ sparedRules) →
      Turns index rules (f.assigned indent) (f.assigned indent) := by
    intro rules hrules
    refine Outline.turns_of_spares _ rules ?_ index _
      (Outline.fits_newLine f indent _ _ htarget f.elements.keywords.spaced)
    exact spares_subset _ _ rules (newLine_spares _) hrules
  obtain ⟨hdeclarations, hinstantiations⟩ := f.assigned_collections indent
  rw [general_rules_cut]
  have hdiamond := f.assignment_diamond index hindex indent container
  refine (Turns.single (fun _ => rfl) hdiamond).append ?_
  refine (hspared _ (by decide)).append ?_
  refine (Turns.single (fun _ => rfl) (f.assigned_inheritance indent)).append ?_
  refine (Turns.single (fun _ => rfl) (f.assigned_primitiveTypes indent)).append ?_
  refine (hspared _ (by decide)).append ?_
  refine (Turns.single (fun _ => rfl) hdeclarations).append ?_
  refine (Turns.single (fun _ => rfl) hinstantiations).append ?_
  refine (hspared _ (by decide)).append ?_
  refine (Turns.single (fun _ => rfl) himports).append ?_
  refine (hlate _ (by decide)).append ?_
  refine (Turns.single (fun _ => rfl) hconstants).append ?_
  exact hlate _ (by decide)

theorem turns_assigned (index : Index)
    (hindex : index.get? f.name = some ⟨f.shape.target, f.types⟩) (indent : Blanks)
    (container : Word) (h : ¬"import".toList <:+ f.name) :
    Turns index Mode.general.rules (f.assignment indent container) (f.assigned indent) := by
  have hfits := Outline.fits_newLine f indent .wordText _
    (fits_container f.shape f.shape_known).2 f.elements.keywords.spaced
  have hpieces : ∀ pair : Bool, (Outline.newLine .wordText pair).lacks '_' = true := by
    decide
  refine f.turns_assignment index hindex indent container _ (f.imports_keep indent h) ?_ ?_
  · intro rules hrules
    exact Outline.turns_of_spares _ rules
      (spares_subset _ _ rules (newLine_spares _) hrules) index _ hfits
  · exact Rules.constants_eq_self _ (Outline.not_mem_of_lacks '_' _ (hpieces _) _ hfits)

theorem turns_cut (index : Index)
    (hindex : index.get? f.name = some ⟨f.shape.target, f.types⟩) (indent : Blanks)
    (container : Word) (stem : Line) (h : f.name = stem ++ "import".toList) :
    Turns index Mode.general.rules (f.assignment indent container)
      (indent.1 ++ ("this.".toList ++ stem)) := by
  have hfits := f.fits_stem indent stem h
  refine f.turns_assignment index hindex indent container _ (f.imports_cut indent stem h) ?_ ?_
  · intro rules hrules
    exact Outline.turns_of_spares _ rules
      (spares_subset _ _ rules stem_spares hrules) index _ hfits
  · exact Rules.constants_eq_self _
      (Outline.not_mem_of_lacks '_' _ (by decide) _ hfits)

end Field

end JvsSharp
