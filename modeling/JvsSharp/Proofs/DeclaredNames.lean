import JvsSharp.Proofs.Lookup
import Mathlib.Data.Finset.Card

/-!
# The names of an index

Declarations are inserted one after the other, and one whose name is bound
already is dropped. So the names of an index are distinct, and they are the
names that the file declares. The index of two files, one behind the other, is
the union of their indexes, where the first one counts.
-/

set_option autoImplicit false

namespace JvsSharp.Index

def names (index : Index) : List Line := index.map Prod.fst

def declaredNames (lines : List Line) : List Line :=
  lines.flatMap fun line =>
    ContainerShape.known.flatMap fun s => ((declaration s).hits line).map fun h => h.group 3

theorem names_declarations (lines : List Line) :
    names (lines.flatMap declarations) = declaredNames lines := by
  simp only [names, declaredNames, declarations, declarationsOf, List.map_flatMap, List.map_map,
    Function.comp_def]

theorem get?_isSome_iff (index : Index) (name : Line) :
    (index.get? name).isSome ↔ name ∈ index.names := by
  rw [get?, List.lookup_isSome_iff, names, List.mem_map]
  simp only [beq_iff_eq, eq_comm (a := name)]

theorem names_insertNew (index : Index) (d : Line × Binding) :
    (insertNew index d).names =
      if d.1 ∈ index.names then index.names else index.names ++ [d.1] := by
  rw [insertNew]
  by_cases hbound : d.1 ∈ index.names
  · rw [if_pos ((get?_isSome_iff index d.1).2 hbound), if_pos hbound]
  · rw [if_neg fun h => hbound ((get?_isSome_iff index d.1).1 h), if_neg hbound]
    simp [names]

theorem nodup_insertNew (index : Index) (d : Line × Binding) (h : index.names.Nodup) :
    (insertNew index d).names.Nodup := by
  rw [names_insertNew]
  by_cases hbound : d.1 ∈ index.names
  · rwa [if_pos hbound]
  · rw [if_neg hbound, List.nodup_append]
    refine ⟨h, List.nodup_singleton _, fun a ha b hb => ?_⟩
    rintro rfl
    exact hbound (List.mem_singleton.1 hb ▸ ha)

theorem nodup_foldl (ds : List (Line × Binding)) (index : Index) (h : index.names.Nodup) :
    (names (ds.foldl insertNew index)).Nodup := by
  induction ds generalizing index with
  | nil => exact h
  | cons d ds ih => exact ih _ (nodup_insertNew index d h)

theorem mem_names_build (lines : List Line) (name : Line) :
    name ∈ (build lines).names ↔ name ∈ declaredNames lines := by
  rw [← get?_isSome_iff, get?_build, ← names_declarations, ← get?_isSome_iff]
  rfl

theorem length_build (lines : List Line) :
    (build lines).length = (declaredNames lines).toFinset.card := by
  have hnodup : (build lines).names.Nodup := nodup_foldl _ [] List.nodup_nil
  have hsame : (build lines).names.toFinset = (declaredNames lines).toFinset := by
    ext name
    rw [List.mem_toFinset, List.mem_toFinset, mem_names_build]
  rw [← hsame, List.toFinset_card_of_nodup hnodup, names, List.length_map]

/-- Indexes are united with preference for the first, so lines that are added at the end leave
every binding as it is; the names that are bound are those of the declarations, and the index
counts each of them once. -/
theorem index_left_biased_union (xs ys : List Line) :
    (∀ name, (build (xs ++ ys)).get? name = ((build xs).get? name).or ((build ys).get? name)) ∧
      (∀ name b, (build xs).get? name = some b → (build (xs ++ ys)).get? name = some b) ∧
      (∀ name, ((build xs).get? name).isSome ↔ name ∈ declaredNames xs) ∧
      (build xs).length = (declaredNames xs).toFinset.card := by
  refine ⟨get?_build_append xs ys, fun name b hb => ?_, fun name => ?_, length_build xs⟩
  · rw [get?_build_append, hb, Option.some_or]
  · rw [get?_isSome_iff, mem_names_build]

/-- A stack stays a stack when a set of the same name is declared behind it. -/
theorem second_declaration_ignored :
    let first := ["Stack<Integer> items; Queue<Long> jobs;".toList, "Vector<Byte> jobs;".toList]
    let second := ["HashSet<String> items;".toList]
    (build first).get? "items".toList = some ⟨"Stack", "int".toList⟩ ∧
      (build second).get? "items".toList = some ⟨"HashSet", "string".toList⟩ ∧
      (build (first ++ second)).get? "items".toList = some ⟨"Stack", "int".toList⟩ ∧
      (declaredNames first).length = 3 ∧ (build first).length = 2 := by
  intro first second
  have hfirst : (build first).get? "items".toList = some ⟨"Stack", "int".toList⟩ := by
    decide +kernel
  obtain ⟨-, hkept, -, hlength⟩ := index_left_biased_union first second
  refine ⟨hfirst, by decide +kernel, hkept _ _ hfirst, by decide +kernel, ?_⟩
  rw [hlength]
  decide +kernel

end JvsSharp.Index
