import JvsSharp.Proofs.FieldAssignment
import JvsSharp.Proofs.Locality

/-!
# A field and its assignments are given the same type

The type of a declared field comes to its line by the rules and to an
assignment by the index of the file. Both ways lead to one text, wherever in
the file the assignment stands. A name that ends in `import` is the exception:
its assignments break off within the name.
-/

set_option autoImplicit false

namespace JvsSharp
open ContainerShape

namespace Field

variable (f : Field)

def type : Line := f.shape.target.toList ++ '<' :: (f.types ++ ['>'])

theorem declared_eq : f.declared = f.opening ++ f.type ++ ' ' :: f.name ++ [';'] := by
  simp [declared, fieldLine, generic, type]

theorem assigned_eq (indent : Blanks) :
    f.assigned indent =
      indent.1 ++ "this.".toList ++ f.name ++ " = new ".toList ++ f.type ++ "();".toList := by
  simp [assigned, newLine, creation, generic, type]

end Field

theorem converted_of_turns (lines : List Line) (i : Nat) (line x : Line)
    (hi : lines[i]? = some line)
    (h : Turns (Index.build lines) Mode.general.rules line x) :
    (Locality.general lines)[i]?.map Progress.line = some x := by
  rw [Locality.general, Locality.convertLines_getElem?, hi]
  exact congrArg some (h _)

theorem mem_run (c : Conversion) (hmode : c.mode = .general) (lines : List Line) (i : Nat)
    (x : Line) (hi : (Locality.general lines)[i]?.map Progress.line = some x) (d : Char)
    (hd : d ∈ x) (hblank : Unicode.isBlank d = false) : x ∈ c.run lines := by
  have hbody : x ∈ c.body lines := by
    rw [Conversion.body, Conversion.rules, hmode, List.mem_filter]
    constructor
    · rw [← List.getElem?_map] at hi
      exact List.mem_of_getElem? hi
    · rw [Bool.not_eq_true', Text.isBlankLine, List.all_eq_false]
      exact ⟨d, hd, by simp [hblank]⟩
  rw [Conversion.run]
  exact List.mem_append_left _ (List.mem_append_right _ hbody)

/-- In the general mode the declaration of a field and every assignment that leaves the types
to be inferred are given the same type, unless the name ends in `import`. Then the assignment
breaks off before that. -/
theorem field_types_agree (f : Field) (before after : List Line)
    (hfree : (Index.build before).get? f.name = none) (c : Conversion)
    (hmode : c.mode = .general) :
    let lines := before ++ f.declaration :: after
    let converted := fun i => (Locality.general lines)[i]?.map Progress.line
    let declared := f.opening ++ f.type ++ ' ' :: f.name ++ [';']
    (converted before.length = some declared ∧ declared ∈ c.run lines) ∧
      ∀ (i : Nat) (indent : Blanks) (container : Word),
        lines[i]? = some (f.assignment indent container) →
        let this := indent.1 ++ "this.".toList
        let assigned := this ++ f.name ++ " = new ".toList ++ f.type ++ "();".toList
        (¬"import".toList <:+ f.name →
          converted i = some assigned ∧ assigned ∈ c.run lines) ∧
        ∀ stem, f.name = stem ++ "import".toList →
          converted i = some (this ++ stem) ∧ this ++ stem ∈ c.run lines := by
  intro lines converted declared
  have hindex := f.get?_index before after hfree
  constructor
  · have hline : lines[before.length]? = some f.declaration := by simp [lines]
    have hdeclared : converted before.length = some declared := by
      have h := converted_of_turns lines before.length _ _ hline (f.turns_declaration _)
      rwa [f.declared_eq] at h
    exact ⟨hdeclared, mem_run c hmode lines _ _ hdeclared ';' (by simp [declared]) (by decide)⟩
  · intro i indent container hi this assigned
    constructor
    · intro hname
      have hassigned : converted i = some assigned := by
        have h := converted_of_turns lines i _ _ hi
          (f.turns_assigned _ hindex indent container hname)
        rwa [f.assigned_eq] at h
      refine ⟨hassigned, mem_run c hmode lines i _ hassigned '.' ?_ (by decide)⟩
      simp [assigned, this]
    · intro stem hstem
      have hcut : converted i = some (this ++ stem) := by
        have h := converted_of_turns lines i _ _ hi
          (f.turns_cut _ hindex indent container stem hstem)
        rwa [← List.append_assoc] at h
      refine ⟨hcut, mem_run c hmode lines i _ hcut '.' ?_ (by decide)⟩
      simp [this]

def countsField : Field where
  indent := ⟨"  ".toList, by decide⟩
  modifier := "private "
  modifier_mem := by decide
  shape := ⟨"TreeMap", "SortedDictionary", true⟩
  shape_known := by decide
  elements := .two ⟨"String".toList, by decide⟩ ⟨"  ".toList, by decide⟩
    ⟨"Integer".toList, by decide⟩
  arity := rfl
  elements_free := by unfold IsReserved; decide
  name := "counts".toList
  name_form := ⟨'c', "ounts".toList, rfl, by decide, by decide⟩
  name_free := by unfold IsReserved; decide

/-- An assignment before the declaration is completed by it, whatever container it names. -/
theorem counts_agree :
    let line := "this.counts = new HashMap<>();".toList
    let lines := [line] ++ countsField.declaration :: []
    (Index.build [line]).get? countsField.name = none ∧
      (Locality.general lines)[1]?.map Progress.line =
        some "  private SortedDictionary<string, int> counts;".toList ∧
      (Locality.general lines)[0]?.map Progress.line =
        some "this.counts = new SortedDictionary<string, int>();".toList := by
  intro line lines
  have hfree : (Index.build [line]).get? countsField.name = none := by decide
  have hagree := field_types_agree countsField [line] [] hfree (.ofMode .general) rfl
  have hassignment := (hagree.2 0 ⟨[], blank_nil⟩
    ⟨"HashMap".toList, by decide, isWordText_of_all _ (by decide)⟩ (by decide)).1 (by decide)
  refine ⟨hfree, hagree.1.1.trans (by decide), hassignment.1.trans (by decide)⟩

/-- A field whose name ends in `import` loses its assignment. -/
theorem import_name_breaks_off :
    let lines := ["ArrayList<String> myimport;".toList,
      "  this.myimport = new ArrayList<>();".toList]
    (Conversion.ofMode .general).run lines =
        ["List<string> myimport;".toList, "  this.my".toList] ∧
      "  this.myimport = new List<string>();".toList ∉ (Conversion.ofMode .general).run lines := by
  intro lines
  have hrun : (Conversion.ofMode .general).run lines =
      ["List<string> myimport;".toList, "  this.my".toList] := by decide +kernel
  refine ⟨hrun, ?_⟩
  rw [hrun]
  decide

end JvsSharp
