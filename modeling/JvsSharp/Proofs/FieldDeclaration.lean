import JvsSharp.Proofs.FieldOutlines
import JvsSharp.Proofs.Lookup
import JvsSharp.Proofs.TypeExpr

/-!
# The declaration of a field

A declaration goes through the primitive types and the renaming of containers;
no other rule of the general mode touches it. The index reads the same types
from it before any rule is run.
-/

set_option autoImplicit false

namespace JvsSharp
open Pattern ContainerShape

theorem Edit.apply_quiet (e : Edit) (line : Line) (h : Quiet e.pattern none line []) :
    e.apply line = line := by
  rw [Edit.apply, replaceAll_eq, replaceFrom_all_quiet _ _ _ _ h]

theorem foldl_same {α β : Type} (g : α → β → α) (a : α) (xs : List β)
    (h : ∀ x ∈ xs, g a x = a) : xs.foldl g a = a := by
  induction xs with
  | nil => rfl
  | cons x xs ih => rw [List.foldl_cons, h x (by simp), ih fun y hy => h y (by simp [hy])]

theorem Rules.collectionDeclarations_eq (line : Line) :
    Rules.collectionDeclarations line =
      known.foldl (fun line s => s.declared.apply (s.elided.apply line)) line := by
  rw [Rules.collectionDeclarations, Edit.applyAll, List.foldl_flatMap]
  rfl

theorem Rules.collectionInstantiations_eq (line : Line) :
    Rules.collectionInstantiations line =
      known.foldl (fun line s => s.instantiated.apply line) line := by
  rw [Rules.collectionInstantiations, Edit.applyAll, List.foldl_map]

theorem known_split (c : ContainerShape) (hc : c ∈ known) :
    ∃ first last, known = first ++ c :: last ∧ c ∉ first ∧ c ∉ last := by
  obtain ⟨first, last, hknown, hfirst⟩ := List.eq_append_cons_of_mem hc
  have hnodup : known.Nodup := by decide
  rw [hknown, List.nodup_append, List.nodup_cons] at hnodup
  exact ⟨first, last, hknown, hfirst, hnodup.2.1.1⟩

/-- An identifier is no name of a primitive type: those in lower case are reserved. -/
theorem Identifier.primitiveKeyword_text (n : Identifier) :
    Rules.primitiveKeyword n.text = n.text := by
  have hall : ∀ p ∈ Rules.primitives,
      p.1.toList ∈ reservedWords.map String.toList ∨ p.1.toList.head?.any Char.isLower = false := by
    decide
  obtain ⟨c, rest, hname, hc, -⟩ := n.form
  cases hfind : Rules.primitives.find? fun p => p.1.toList == n.text with
  | none => rw [Rules.primitiveKeyword, hfind]
  | some p =>
    have hsame : p.1.toList = n.text := by simpa using List.find?_some hfind
    rcases hall p (List.mem_of_find?_eq_some hfind) with hreserved | hlower
    · exact absurd (hsame ▸ hreserved) n.free
    · rw [hsame, hname, List.head?_cons, Option.any_some, hc] at hlower
      exact nomatch hlower

namespace Field

variable (f : Field)

theorem opening_quiet (s : ContainerShape) (hs : s ∈ known) (ps : List Pattern) (rest : Line) :
    Quiet (s.opening ps) none f.opening rest := by
  have hword : ∀ w ∈ ["private".toList, "protected".toList], ∀ b,
      Quiet (s.opening ps) b (w ++ [' ']) rest := by
    intro w hw b
    have hwords : AreWords ["private".toList, "protected".toList] :=
      areWords_of_all _ (by decide)
    refine .append (opening_quiet_word s hs ps b w _ (hwords w hw).2 ?_ (by simp)) ?_
    · exact endsWord_cons ' ' rest (by decide)
    · exact opening_quiet_others s hs ps _ [' '] rest (by decide)
  refine .append (opening_quiet_others s hs ps none _ _ (TypeExpr.isWord_blanks f.indent)) ?_
  have hmem := f.modifier_mem
  simp only [List.mem_cons, List.not_mem_nil, or_false] at hmem
  rcases hmem with h | h | h
  · rw [h]
    trivial
  · rw [h]
    exact hword "private".toList (by simp) _
  · rw [h]
    exact hword "protected".toList (by simp) _

theorem opening_outside : (behind none f.opening).any Unicode.isWord = false := by
  have hindent := behind_others none f.indent.1 rfl (TypeExpr.isWord_blanks f.indent)
  have hmem := f.modifier_mem
  simp only [List.mem_cons, List.not_mem_nil, or_false] at hmem
  rw [opening, behind_append]
  rcases hmem with h | h | h
  · rw [h]
    exact hindent
  · rw [h]
    exact (by decide : Unicode.isWord ' ' = false)
  · rw [h]
    exact (by decide : Unicode.isWord ' ' = false)

theorem field_quiet (s : ContainerShape) (hs : s ∈ known) (hne : s ≠ f.shape) (e : Elements)
    (he : e.isPair = f.shape.mapLike) (b : Option Char) :
    Quiet (Index.declaration s) b
        (generic f.shape.source.toList e.text (' ' :: f.name ++ [';'])) [] ∧
      Quiet s.declared.pattern b
        (generic f.shape.source.toList e.text (' ' :: f.name ++ [';'])) [] ∧
      Quiet s.declared.pattern b
        (generic f.shape.target.toList e.text (' ' :: f.name ++ [';'])) [] := by
  obtain ⟨hindex, hsource, htarget⟩ := field_misses f.shape f.shape_known s hs hne
  rw [← he] at hindex hsource htarget
  have hfits := fun container : Line =>
    Outline.fits_field f (.lit container) container (Outline.fits_lit container) e
  exact ⟨quiet_of_misses _ none _ [] hindex b _ [] (View.knows_none b) (hfits _) rfl,
    quiet_of_misses _ none _ [] hsource b _ [] (View.knows_none b) (hfits _) rfl,
    quiet_of_misses _ none _ [] htarget b _ [] (View.knows_none b) (hfits _) rfl⟩

/-- The declaration binds the name to the target of its container and to its types. -/
theorem declarationsOf_declaration (s : ContainerShape) (hs : s ∈ known) :
    Index.declarationsOf f.declaration s =
      if s = f.shape then [(f.name, ⟨f.shape.target, f.types⟩)] else [] := by
  split
  · next h =>
    subst h
    obtain ⟨hit, hmatch, hall, hname, htypes⟩ := declaration_hit f.shape hs
      (f.elements.parts f.shape f.arity) _ f.opening_outside f.name f.name_ne f.name_word
    rw [Elements.parts_text] at hmatch hall
    have hhits := hits_single (Index.declaration f.shape) f.opening _ hit
      (f.opening_quiet f.shape hs _ _) hmatch hall (by simp [generic])
    rw [Index.declarationsOf, declaration, fieldLine, hhits, List.map_singleton, hname, htypes,
      Elements.parts_types, types]
  · next h =>
    have hquiet : Quiet (Index.declaration s) none f.declaration [] :=
      .append (f.opening_quiet s hs _ _) (f.field_quiet s hs h f.elements f.arity _).1
    rw [Index.declarationsOf, hits_quiet _ _ hquiet]
    rfl

/-- If the lines before it leave the name free, the declaration is the one that counts. -/
theorem get?_index (before after : List Line) (hfree : (Index.build before).get? f.name = none) :
    (Index.build (before ++ f.declaration :: after)).get? f.name =
      some ⟨f.shape.target, f.types⟩ := by
  have hfound : (Index.build [f.declaration]).get? f.name = some ⟨f.shape.target, f.types⟩ := by
    obtain ⟨first, last, hknown, hfirst⟩ := List.eq_append_cons_of_mem f.shape_known
    have hskip : (first.findSome? fun s =>
        (Index.declarationsOf f.declaration s).lookup f.name) = none := by
      rw [List.findSome?_eq_none_iff]
      intro s hs
      have hne : s ≠ f.shape := fun heq => hfirst (heq ▸ hs)
      rw [f.declarationsOf_declaration s (by simp [hknown, hs]), if_neg hne]
      rfl
    rw [Index.get?_build_line, hknown, List.findSome?_append, hskip, Option.none_or,
      List.findSome?_cons, f.declarationsOf_declaration f.shape f.shape_known, if_pos rfl,
      List.lookup_cons_self]
  rw [Index.get?_build_append, hfree, ← List.singleton_append, Index.get?_build_append, hfound]
  rfl

theorem container_word (c : ContainerShape) (hc : c ∈ known) :
    (c.source.toList ≠ [] ∧ IsWordText c.source.toList) ∧
      c.target.toList ≠ [] ∧ IsWordText c.target.toList := by
  have htargets : AreWords (known.map fun c => c.target.toList) :=
    areWords_of_all _ (by decide)
  exact ⟨source_word c hc, htargets _ (List.mem_map_of_mem hc)⟩

def baseWords : List Line := ["extends".toList, "implements".toList]

theorem not_baseWord_of_free (w : Line) (h : ¬IsReserved w) : w ∉ baseWords := by
  have hall : ∀ w ∈ baseWords, w ∈ reservedWords.map String.toList := by decide
  exact fun hw => h (hall w hw)

theorem not_baseWord_keyword (w : Line) (h : ¬IsReserved w) :
    Rules.primitiveKeyword w ∉ baseWords := by
  have hall : ∀ p ∈ Rules.primitives, p.2.toList ∉ baseWords := by decide
  rw [Rules.primitiveKeyword]
  split
  · next p hp => exact hall p (List.mem_of_find?_eq_some hp)
  · exact not_baseWord_of_free w h

theorem primitiveKeyword_idem (w : Line) :
    Rules.primitiveKeyword (Rules.primitiveKeyword w) = Rules.primitiveKeyword w := by
  have hall : ∀ p ∈ Rules.primitives, Rules.primitiveKeyword p.2.toList = p.2.toList := by
    decide
  cases hfind : Rules.primitives.find? fun p => p.1.toList == w with
  | none =>
    have hsame : Rules.primitiveKeyword w = w := by rw [Rules.primitiveKeyword, hfind]
    rw [hsame, hsame]
  | some p =>
    have hkeyword : Rules.primitiveKeyword w = p.2.toList := by
      rw [Rules.primitiveKeyword, hfind]
    rw [hkeyword, hall p (List.mem_of_find?_eq_some hfind)]

theorem primitiveKeyword_container (c : ContainerShape) (hc : c ∈ known) :
    Rules.primitiveKeyword c.source.toList = c.source.toList ∧
      Rules.primitiveKeyword c.target.toList = c.target.toList := by
  have hall : ∀ c ∈ known, Rules.primitiveKeyword c.source.toList = c.source.toList ∧
      Rules.primitiveKeyword c.target.toList = c.target.toList := by decide
  exact hall c hc

theorem primitiveKeyword_name : Rules.primitiveKeyword f.name = f.name :=
  f.identifier.primitiveKeyword_text

theorem declaration_inheritance : Rules.inheritance f.declaration = f.declaration := by
  refine Rules.inheritance_eq_self _ fun g hg => ?_
  have hmodifiers : ∀ w ∈ ["private".toList, "protected".toList], w ∉ baseWords := by
    decide
  have hsource : f.shape.source.toList ∉ baseWords := by
    have hall : ∀ c ∈ known, c.source.toList ∉ baseWords := by decide
    exact hall f.shape f.shape_known
  obtain ⟨⟨hne, hw⟩, -⟩ := container_word f.shape f.shape_known
  rw [declaration, opening, mapWords_fieldLine g f.indent f.modifier f.modifier_mem
    (fun w hw => hg w (hmodifiers w hw)) _ hne hw f.elements f.name f.name_ne f.name_word,
    hg _ hsource, hg _ (not_baseWord_of_free _ f.name_free),
    Elements.textWith_eq_text g f.elements fun w hw =>
      hg w (not_baseWord_of_free w (f.elements_free w hw))]

theorem declaration_primitiveTypes :
    Rules.primitiveTypes f.declaration =
      fieldLine f.opening f.shape.source.toList f.elements.keywords.text f.name := by
  have hmodifiers : ∀ w ∈ ["private".toList, "protected".toList],
      Rules.primitiveKeyword w = w := by decide
  obtain ⟨⟨hne, hw⟩, -⟩ := container_word f.shape f.shape_known
  rw [Rules.primitiveTypes_eq, declaration, opening, mapWords_fieldLine _ f.indent f.modifier
    f.modifier_mem hmodifiers _ hne hw f.elements f.name f.name_ne f.name_word,
    (primitiveKeyword_container f.shape f.shape_known).1, f.primitiveKeyword_name,
    Elements.keywords_text]

theorem fits_container (c : ContainerShape) (hc : c ∈ known) :
    Outline.wordText.Fits c.source.toList ∧ Outline.wordText.Fits c.target.toList := by
  have hall : ∀ c ∈ known, (c.source.toList ≠ [] ∧ ∀ x ∈ c.source.toList, alnum.mem x = true) ∧
      c.target.toList ≠ [] ∧ ∀ x ∈ c.target.toList, alnum.mem x = true := by decide
  exact ⟨Outline.fits_wordText ⟨_, (hall c hc).1⟩, Outline.fits_wordText ⟨_, (hall c hc).2⟩⟩

theorem fieldLine_elided (s : ContainerShape) (hs : s ∈ known) (container : Line)
    (hw : Outline.wordText.Fits container) (e : Elements) :
    s.elided.apply (fieldLine f.opening container e.text f.name) =
      fieldLine f.opening container e.text f.name := by
  refine s.elided.apply_absent _ (absent_of_passes _ _ _ ?_ (Outline.fits_fieldLine f _ _ hw e))
  exact fieldLine_not_elided f.modifier f.modifier_mem e.isPair s hs

/-- The declaration gets the name of its target, and one space behind a comma. -/
theorem fieldLine_collections (e : Elements) (he : e.isPair = f.shape.mapLike) :
    Rules.collectionDeclarations (fieldLine f.opening f.shape.source.toList e.text f.name) =
      fieldLine f.opening f.shape.target.toList e.spaced.text f.name := by
  obtain ⟨first, last, hknown, hfirst, hlast⟩ := known_split f.shape f.shape_known
  obtain ⟨hsource, htarget⟩ := fits_container f.shape f.shape_known
  have hspaced : e.spaced.isPair = f.shape.mapLike := e.isPair_spaced.trans he
  have hbefore : ∀ s ∈ first, s.declared.apply (s.elided.apply
      (fieldLine f.opening f.shape.source.toList e.text f.name)) =
        fieldLine f.opening f.shape.source.toList e.text f.name := by
    intro s hs
    have hmem : s ∈ known := by simp [hknown, hs]
    have hne : s ≠ f.shape := fun heq => hfirst (heq ▸ hs)
    rw [f.fieldLine_elided s hmem _ hsource e]
    exact s.declared.apply_quiet _
      (.append (f.opening_quiet s hmem [] _) (f.field_quiet s hmem hne e he _).2.1)
  have hafter : ∀ s ∈ last, s.declared.apply (s.elided.apply
      (fieldLine f.opening f.shape.target.toList e.spaced.text f.name)) =
        fieldLine f.opening f.shape.target.toList e.spaced.text f.name := by
    intro s hs
    have hmem : s ∈ known := by simp [hknown, hs]
    have hne : s ≠ f.shape := fun heq => hlast (heq ▸ hs)
    rw [f.fieldLine_elided s hmem _ htarget e.spaced]
    exact s.declared.apply_quiet _
      (.append (f.opening_quiet s hmem [] _) (f.field_quiet s hmem hne e.spaced hspaced _).2.2)
  have hown : f.shape.declared.apply (fieldLine f.opening f.shape.source.toList e.text f.name) =
      fieldLine f.opening f.shape.target.toList e.spaced.text f.name := by
    have hfollows : Follows (' ' :: f.name) [';'] := follows_name f.name f.name_word
    have hpost := opening_quiet_name f.shape f.shape_known [] (some '>') f.name f.name_word
    have happly := declared_apply f.shape f.shape_known (e.parts f.shape he) f.opening
      (' ' :: f.name) [';'] f.opening_outside hfollows (f.opening_quiet _ f.shape_known [] _) hpost
    rwa [Elements.parts_text, Elements.parts_written] at happly
  rw [Rules.collectionDeclarations_eq, hknown, List.foldl_append, foldl_same _ _ first hbefore,
    List.foldl_cons, f.fieldLine_elided f.shape f.shape_known _ hsource e, hown,
    foldl_same _ _ last hafter]

theorem spares_subset (o : Outline) (rules some : List Rule) (h : o.spares rules = true)
    (hsome : ∀ r ∈ some, r ∈ rules) : o.spares some = true := by
  rw [Outline.spares, List.all_eq_true] at h ⊢
  exact fun r hr => h r (hsome r hr)

open Rule in
/-- The rules of the general mode, cut where a field is changed or needs an argument. -/
theorem general_rules_cut : Mode.general.rules =
    [diamondInference] ++ ([enhancedFor] ++ ([inheritance] ++ ([primitiveTypes] ++
      ([scannerInput] ++ ([collectionDeclarations] ++ ([collectionInstantiations] ++
        ([collectionUtilities, mapMethods] ++ ([imports] ++
          ([consoleOutput, mainSignature, typeNames, methodNames, callCasing] ++
            ([constants] ++ [publicFields, namespaceHeader, fileWriter, patternMatcher,
              standaloneCalls, finalClass, finalField, override])))))))))) := rfl

theorem turns_declaration (index : Index) :
    Turns index Mode.general.rules f.declaration f.declared := by
  obtain ⟨hsource, htarget⟩ := fits_container f.shape f.shape_known
  have hspared : ∀ (container : Line) (e : Elements), Outline.wordText.Fits container →
      ∀ rules : List Rule,
        (∀ r ∈ rules, r ∈ [.diamondInference, .collectionInstantiations, .imports] ++
          sparedRules) →
        Turns index rules (fieldLine f.opening container e.text f.name)
          (fieldLine f.opening container e.text f.name) := by
    intro container e hw rules hrules
    refine Outline.turns_of_spares _ rules ?_ index _ (Outline.fits_fieldLine f _ _ hw e)
    exact spares_subset _ _ rules (fieldLine_spares f.modifier f.modifier_mem e.isPair) hrules
  have harity : f.elements.keywords.isPair = f.shape.mapLike :=
    f.elements.isPair_keywords.trans f.arity
  have hconstants : Rules.constants f.declared = f.declared := by
    have hpieces : ∀ modifier ∈ ["", "private ", "protected "], ∀ pair : Bool,
        (Outline.fieldLine modifier Outline.wordText pair).lacks '_' = true := by decide
    exact Rules.constants_eq_self _ (Outline.not_mem_of_lacks '_' _
      (hpieces f.modifier f.modifier_mem _) _ (Outline.fits_fieldLine f _ _ htarget _))
  rw [general_rules_cut]
  refine (hspared _ f.elements hsource _ (by decide)).append ?_
  refine (hspared _ f.elements hsource _ (by decide)).append ?_
  refine (Turns.single (fun _ => rfl) f.declaration_inheritance).append ?_
  refine (Turns.single (fun _ => rfl) f.declaration_primitiveTypes).append ?_
  refine (hspared _ f.elements.keywords hsource _ (by decide)).append ?_
  refine (Turns.single (fun _ => rfl)
    (f.fieldLine_collections f.elements.keywords harity)).append ?_
  refine (hspared _ f.elements.keywords.spaced htarget _ (by decide)).append ?_
  refine (hspared _ f.elements.keywords.spaced htarget _ (by decide)).append ?_
  refine (hspared _ f.elements.keywords.spaced htarget _ (by decide)).append ?_
  refine (hspared _ f.elements.keywords.spaced htarget _ (by decide)).append ?_
  refine (Turns.single (fun _ => rfl) hconstants).append ?_
  exact hspared _ f.elements.keywords.spaced htarget _ (by decide)

end Field

end JvsSharp
