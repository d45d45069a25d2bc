import JvsSharp.Conversion
import JvsSharp.Proofs.Outline

/-!
# Rules that have nothing to do

Every rule of the general mode is set off by the patterns it looks for. A line
in which none of them occurs passes the rule as it is, and a list of such
rules too. For lines of a given outline this is settled by evaluation.
-/

set_option autoImplicit false

namespace JvsSharp
open Pattern

/-- The patterns that set a rule off. The rules of the other mode alone are given the pattern
that occurs everywhere, so nothing is said about them. -/
def Rule.triggers : Rule → List Pattern
  | .diamondInference => [Rules.elidedAssignment]
  | .enhancedFor => [Rules.forEachHeader.pattern]
  | .inheritance => [wholeWord "extends", wholeWord "implements"]
  | .primitiveTypes => [Rules.primitiveWord.pattern]
  | .scannerInput => Rules.scannerEdits.map Edit.pattern
  | .collectionDeclarations =>
      (ContainerShape.known.flatMap fun s => [s.elided, s.declared]).map Edit.pattern
  | .collectionInstantiations =>
      (ContainerShape.known.map ContainerShape.instantiated).map Edit.pattern
  | .collectionUtilities => Rules.utilityEdits.map Edit.pattern
  | .mapMethods => Rules.mapEdits.map Edit.pattern
  | .imports => Rules.importEdits.map Edit.pattern
  | .consoleOutput => Rules.printCalls.map Edit.pattern
  | .mainSignature => [Rules.entryPoint.pattern]
  | .typeNames => Rules.typeNameEdits.map Edit.pattern
  | .methodNames => [Rules.methodHeader]
  | .callCasing => [Rules.memberCall.pattern]
  | .constants => [Rules.constantWord.pattern]
  | .publicFields => [Rules.publicField.pattern]
  | .namespaceHeader => [Rules.packageLine.pattern]
  | .fileWriter => [Rules.writerDeclaration.pattern]
  | .patternMatcher => Rules.regexDeclarations.map Edit.pattern
  | .standaloneCalls => [Rules.elseIf.pattern, Rules.bareCall.pattern]
  | .finalClass => [Rules.finalClassHeader.pattern]
  | .finalField => [Rules.finalFieldHeader.pattern]
  | .override => [Rules.overrideMarker, Rules.overridable.pattern]
  | .stripImports | .loggerDeclaration | .loggerPrint | .executeSignature
  | .domainSubstitutions | .trimTrailing => [.empty]

theorem not_absent_empty (line : Line) : ¬Pattern.empty.Absent line := by
  intro h
  cases line with
  | nil => simp [Absent, search, searchFrom, matchAt, matchK] at h
  | cons c line => simp [Absent, search, searchFrom, matchAt, matchK] at h

theorem applyAll_absent_of_map (es : List Edit) (line : Line)
    (h : ∀ p ∈ es.map Edit.pattern, p.Absent line) : Edit.applyAll es line = line :=
  Edit.applyAll_absent es line fun e he => h e.pattern (List.mem_map_of_mem he)

theorem Rule.apply_absent (index : Index) (r : Rule) (s : Progress)
    (h : ∀ p ∈ r.triggers, p.Absent s.line) : (r.apply index s).line = s.line := by
  have hedit : ∀ e : Edit, e.pattern ∈ r.triggers → e.apply s.line = s.line := fun e he =>
    e.apply_absent s.line (h e.pattern he)
  have hedits : ∀ es : List Edit, es.map Edit.pattern = r.triggers →
      Edit.applyAll es s.line = s.line := fun es hes =>
    applyAll_absent_of_map es s.line (hes ▸ h)
  cases r with
  | diamondInference => exact replaceAll_absent _ _ s.line (h _ (by simp [triggers]))
  | enhancedFor => exact hedit Rules.forEachHeader (by simp [triggers])
  | inheritance =>
    refine Edit.applyAll_absent _ s.line fun e he => ?_
    simp only [List.mem_cons, List.not_mem_nil, or_false] at he
    rcases he with rfl | rfl
    · exact h _ (by simp [triggers])
    · exact h _ (by simp [triggers])
  | primitiveTypes => exact hedit Rules.primitiveWord (by simp [triggers])
  | scannerInput =>
    simp only [apply, Progress.mapLine, Rules.scannerInput]
    exact hedits Rules.scannerEdits rfl
  | collectionDeclarations =>
    rw [triggers] at h
    simp only [apply, Progress.mapLine]
    rw [Rules.collectionDeclarations, applyAll_absent_of_map _ s.line h]
  | collectionInstantiations =>
    rw [triggers] at h
    simp only [apply, Progress.mapLine]
    rw [Rules.collectionInstantiations, applyAll_absent_of_map _ s.line h]
  | collectionUtilities =>
    simp only [apply, Progress.mapLine, Rules.collectionUtilities]
    exact hedits Rules.utilityEdits rfl
  | mapMethods =>
    simp only [apply, Progress.mapLine, Rules.mapMethods]
    exact hedits Rules.mapEdits rfl
  | imports =>
    simp only [apply, Progress.mapLine, Rules.imports]
    exact hedits Rules.importEdits rfl
  | consoleOutput =>
    simp only [apply, Progress.mapLine, Rules.consoleOutput]
    exact hedits Rules.printCalls rfl
  | mainSignature => exact hedit Rules.entryPoint (by simp [triggers])
  | typeNames =>
    simp only [apply, Progress.mapLine, Rules.typeNames]
    exact hedits Rules.typeNameEdits rfl
  | methodNames => exact replaceAll_absent _ _ s.line (h _ (by simp [triggers]))
  | callCasing => exact hedit Rules.memberCall (by simp [triggers])
  | constants => exact hedit Rules.constantWord (by simp [triggers])
  | publicFields => exact hedit Rules.publicField (by simp [triggers])
  | namespaceHeader => exact hedit Rules.packageLine (by simp [triggers])
  | fileWriter => exact hedit Rules.writerDeclaration (by simp [triggers])
  | patternMatcher =>
    simp only [apply, Progress.mapLine, Rules.patternMatcher]
    exact hedits Rules.regexDeclarations rfl
  | standaloneCalls =>
    have helse : Rules.elseIf.apply s.line = s.line := hedit Rules.elseIf (by simp [triggers])
    change Rules.standaloneCalls s.line = s.line
    rw [Rules.standaloneCalls, helse]
    exact replaceUnlessAfter_absent _ _ _ s.line (h _ (by simp [triggers]))
  | finalClass => exact hedit Rules.finalClassHeader (by simp [triggers])
  | finalField => exact replaceUnlessAfter_absent _ _ _ s.line (h _ (by simp [triggers]))
  | override =>
    have hmarker := occursIn_absent Rules.overrideMarker s.line (h _ (by simp [triggers]))
    change (Rules.trackOverride s).line = s.line
    rw [Rules.trackOverride, hmarker]
    cases s.state with
    | idle => rfl
    | pending => exact replaceFirst_absent _ _ s.line (h _ (by simp [triggers]))
  -- The rules of plugin scripts, of which nothing is claimed.
  | _ => exact absurd (h .empty (by simp [triggers])) (not_absent_empty s.line)

def Turns (index : Index) (rules : List Rule) (line line' : Line) : Prop :=
  ∀ state, (convertLine rules index ⟨line, state⟩).line = line'

namespace Turns

variable {index : Index} {rules : List Rule} {line line' line'' : Line}

theorem nil : Turns index [] line line := fun _ => rfl

theorem cons {r : Rule} (h : ∀ state, (r.apply index ⟨line, state⟩).line = line')
    (h' : Turns index rules line' line'') : Turns index (r :: rules) line line'' := by
  intro state
  have hrest := h' (r.apply index ⟨line, state⟩).state
  rwa [← h state] at hrest

theorem append {rules' : List Rule} (h : Turns index rules line line')
    (h' : Turns index rules' line' line'') : Turns index (rules ++ rules') line line'' := by
  intro state
  have hrest := h' (convertLine rules index ⟨line, state⟩).state
  rw [← h state] at hrest
  rw [convertLine, List.foldl_append]
  exact hrest

theorem absent (h : ∀ r ∈ rules, ∀ p ∈ r.triggers, p.Absent line) :
    Turns index rules line line := by
  induction rules with
  | nil => exact nil
  | cons r rules ih =>
    refine cons (fun state => r.apply_absent index ⟨line, state⟩ (h r (by simp))) (ih ?_)
    exact fun other hother => h other (by simp [hother])

theorem single {r : Rule} {f : Line → Line} (h : ∀ s, r.apply index s = s.mapLine f)
    (hf : f line = line') : Turns index [r] line line' := by
  refine cons (fun state => ?_) nil
  rw [h]
  exact hf

end Turns

def Outline.spares (o : Outline) (rules : List Rule) : Bool :=
  rules.all fun r => r.triggers.all fun p => p.passes o

theorem Outline.turns_of_spares (o : Outline) (rules : List Rule) (h : o.spares rules = true)
    (index : Index) (line : Line) (hf : o.Fits line) : Turns index rules line line := by
  refine .absent fun r hr p hp => absent_of_passes p o line ?_ hf
  rw [spares, List.all_eq_true] at h
  exact List.all_eq_true.1 (h r hr) p hp

end JvsSharp
