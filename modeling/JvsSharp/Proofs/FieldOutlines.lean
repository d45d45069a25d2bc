import JvsSharp.Proofs.FieldLines

/-!
# Which rules a field can set off

From the outlines of the two lines of a field it is computed that all but a
few rules have nothing to do with them. The container itself is found by the
patterns of its own shape alone.
-/

set_option autoImplicit false

namespace JvsSharp
open Outline ContainerShape

namespace Outline

def wordText : Outline := [.one alnum, .many alnum]

def nameText : Outline := [.one .lower, .many alnum]

def elements (pair : Bool) : Outline :=
  if pair then wordText ++ (lit [','] ++ ([.many .blank] ++ wordText)) else wordText

def generic (container : Outline) (pair : Bool) (after : Outline) : Outline :=
  container ++ (lit ['<'] ++ (elements pair ++ (lit ['>'] ++ after)))

def field (container : Outline) (pair : Bool) : Outline :=
  generic container pair (lit [' '] ++ (nameText ++ lit [';']))

def fieldLine (modifier : String) (container : Outline) (pair : Bool) : Outline :=
  [.many .blank] ++ (lit modifier.toList ++ field container pair)

def assignee : Outline :=
  [.many .blank] ++ (lit "this.".toList ++ (nameText ++ lit " = ".toList))

def stem : Outline := [.many .blank] ++ (lit "this.".toList ++ nameText)

def creation (container : Outline) (pair : Bool) : Outline :=
  lit "new ".toList ++ generic container pair (lit "();".toList)

def newLine (container : Outline) (pair : Bool) : Outline := assignee ++ creation container pair

theorem fits_wordText (w : AsciiWord) : wordText.Fits w.1 := by
  obtain ⟨w, hne, hw⟩ := w
  cases w with
  | nil => exact absurd rfl hne
  | cons c w =>
    exact (fits_one alnum c (hw c (by simp))).append
      (fits_many alnum w fun d hd => hw d (by simp [hd]))

theorem fits_nameText (n : Identifier) : nameText.Fits n.text := by
  obtain ⟨c, rest, h, hc, hrest⟩ := n.form
  rw [h]
  exact (fits_one .lower c hc).append (fits_many alnum rest hrest)

theorem fits_elements (e : Elements) : (elements e.isPair).Fits e.text := by
  cases e with
  | one type => exact fits_wordText type
  | two key gap value =>
    exact (fits_wordText key).append
      ((fits_lit [',']).append ((fits_many .blank gap.1 gap.2).append (fits_wordText value)))

theorem fits_generic (o : Outline) (container : Line) (ho : o.Fits container) (e : Elements)
    (o' : Outline) (after : Line) (ho' : o'.Fits after) :
    (generic o e.isPair o').Fits (ContainerShape.generic container e.text after) := by
  have htext : ContainerShape.generic container e.text after =
      container ++ (['<'] ++ (e.text ++ (['>'] ++ after))) := rfl
  rw [htext]
  exact ho.append ((fits_lit ['<']).append ((fits_elements e).append ((fits_lit ['>']).append ho')))

theorem fits_field (f : Field) (o : Outline) (container : Line) (ho : o.Fits container)
    (e : Elements) :
    (field o e.isPair).Fits
      (ContainerShape.generic container e.text (' ' :: f.name ++ [';'])) := by
  have hend : (lit [' '] ++ (nameText ++ lit [';'])).Fits (' ' :: f.name ++ [';']) :=
    (fits_lit [' ']).append ((fits_nameText f.identifier).append (fits_lit [';']))
  exact fits_generic o container ho e _ _ hend

theorem fits_fieldLine (f : Field) (o : Outline) (container : Line) (ho : o.Fits container)
    (e : Elements) :
    (fieldLine f.modifier o e.isPair).Fits
      (JvsSharp.fieldLine f.opening container e.text f.name) := by
  rw [JvsSharp.fieldLine, Field.opening, List.append_assoc]
  exact (fits_many .blank f.indent.1 f.indent.2).append
    ((fits_lit f.modifier.toList).append (fits_field f o container ho e))

theorem fits_assignee (f : Field) (indent : Blanks) :
    assignee.Fits (indent.1 ++ ("this.".toList ++ (f.name ++ " = ".toList))) :=
  (fits_many .blank indent.1 indent.2).append
    ((fits_lit "this.".toList).append ((fits_nameText f.identifier).append (fits_lit " = ".toList)))

theorem fits_creation (o : Outline) (container : Line) (ho : o.Fits container) (e : Elements) :
    (creation o e.isPair).Fits (ContainerShape.creation container e.text [';']) :=
  (fits_lit "new ".toList).append (fits_generic o container ho e _ _ (fits_lit "();".toList))

theorem fits_newLine (f : Field) (indent : Blanks) (o : Outline) (container : Line)
    (ho : o.Fits container) (e : Elements) :
    (newLine o e.isPair).Fits (JvsSharp.newLine indent.1 f.name container e.text) := by
  have htext : JvsSharp.newLine indent.1 f.name container e.text =
      (indent.1 ++ ("this.".toList ++ (f.name ++ " = ".toList))) ++
        ContainerShape.creation container e.text [';'] := by
    simp only [JvsSharp.newLine, List.append_assoc]
  rw [htext]
  exact (fits_assignee f indent).append (fits_creation o container ho e)

end Outline

def sparedRules : List Rule :=
  [.enhancedFor, .scannerInput, .collectionUtilities, .mapMethods, .consoleOutput, .mainSignature,
   .typeNames, .methodNames, .callCasing, .publicFields, .namespaceHeader, .fileWriter,
   .patternMatcher, .standaloneCalls, .finalClass, .finalField, .override]

theorem fieldLine_spares : ∀ modifier ∈ ["", "private ", "protected "], ∀ pair : Bool,
    (Outline.fieldLine modifier wordText pair).spares
      ([.diamondInference, .collectionInstantiations, .imports] ++ sparedRules) = true := by
  decide +kernel

theorem newLine_spares : ∀ pair : Bool,
    (Outline.newLine wordText pair).spares sparedRules = true := by
  decide +kernel

/-- A declaration is found by the patterns of its own shape only. -/
theorem field_misses : ∀ c ∈ known, ∀ s ∈ known, s ≠ c →
    (Index.declaration s).misses none (field (lit c.source.toList) c.mapLike) [] = true ∧
      s.declared.pattern.misses none (field (lit c.source.toList) c.mapLike) [] = true ∧
      s.declared.pattern.misses none (field (lit c.target.toList) c.mapLike) [] = true := by
  decide +kernel

theorem fieldLine_not_elided : ∀ modifier ∈ ["", "private ", "protected "], ∀ pair : Bool,
    ∀ s ∈ known, s.elided.pattern.passes (Outline.fieldLine modifier wordText pair) = true := by
  decide +kernel

theorem newLine_not_elided : ∀ pair : Bool, ∀ s ∈ known,
    s.elided.pattern.passes (Outline.newLine wordText pair) = true := by
  decide +kernel

theorem newLine_passes : ∀ c ∈ known, ∀ s ∈ known, s.source ≠ c.target →
    s.declared.pattern.passes (Outline.newLine (lit c.target.toList) c.mapLike) = true ∧
      s.instantiated.pattern.passes (Outline.newLine (lit c.target.toList) c.mapLike) = true := by
  decide +kernel

theorem assignee_misses : ∀ c ∈ known,
    c.declared.pattern.misses none (assignee ++ lit "new ".toList)
        (generic (lit c.target.toList) c.mapLike (lit "();".toList)) = true ∧
      c.instantiated.pattern.misses none assignee
        (Outline.creation (lit c.target.toList) c.mapLike) = true := by
  decide +kernel

theorem importEdits_cut : Rules.importEdits = Rules.importEdits.take 3 ++ [Rules.otherImport] := rfl

theorem newLine_no_library : ∀ pair : Bool, ∀ e ∈ Rules.importEdits.take 3,
    e.pattern.passes (Outline.newLine wordText pair) = true := by
  decide +kernel

theorem newLine_no_import : ∀ pair : Bool,
    Rules.otherImport.pattern.misses none ([.many .blank] ++ lit "this.".toList)
        [.many (.except [])] = true ∧
      Rules.otherImport.pattern.misses none
        (lit " = ".toList ++ Outline.creation wordText pair) [] = true := by
  decide +kernel

/-- What is left of an assignment that is taken for an import sets off no later rule. -/
theorem stem_spares : stem.spares sparedRules = true := by
  decide +kernel

end JvsSharp
