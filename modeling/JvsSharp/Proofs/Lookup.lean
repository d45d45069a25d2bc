import JvsSharp.Pattern.Ends
import JvsSharp.Rules.Elided

/-!
# Looking a name up in the index

The index is built by insertion, but what it says of a name is the first
declaration of that name in the file, so it can be read off the declarations
of the lines one after the other.
-/

set_option autoImplicit false

namespace JvsSharp.Index

theorem get?_insertNew (index : Index) (d : Line × Binding) (name : Line) :
    (insertNew index d).get? name = (index.get? name).or ([d].lookup name) := by
  obtain ⟨key, binding⟩ := d
  unfold insertNew
  split
  · next hbound =>
    cases hname : index.get? name with
    | some b => rfl
    | none =>
      have hne : name ≠ key := by
        intro heq
        rw [← heq, hname] at hbound
        exact nomatch hbound
      rw [List.lookup_cons, beq_false_of_ne hne]
      rfl
  · exact List.lookup_append

theorem get?_foldl (ds : List (Line × Binding)) (index : Index) (name : Line) :
    (ds.foldl insertNew index).get? name = (index.get? name).or (ds.lookup name) := by
  induction ds generalizing index with
  | nil => simp
  | cons d ds ih =>
    rw [List.foldl_cons, ih, get?_insertNew, Option.or_assoc, ← List.lookup_append,
      List.singleton_append]

theorem get?_build (lines : List Line) (name : Line) :
    (build lines).get? name = (lines.flatMap declarations).lookup name := by
  rw [build, get?_foldl]
  rfl

theorem get?_build_append (xs ys : List Line) (name : Line) :
    (build (xs ++ ys)).get? name = ((build xs).get? name).or ((build ys).get? name) := by
  rw [get?_build, get?_build, get?_build, List.flatMap_append, List.lookup_append]

theorem lookup_flatMap {α : Type} (g : α → List (Line × Binding)) (xs : List α) (name : Line) :
    (xs.flatMap g).lookup name = xs.findSome? fun x => (g x).lookup name := by
  simp only [List.lookup_eq_findSome?, Pattern.findSome?_flatMap]

/-- The shapes are asked in the order of the catalog for a declaration of the name. -/
theorem get?_build_line (line name : Line) :
    (build [line]).get? name =
      ContainerShape.known.findSome? fun s => (declarationsOf line s).lookup name := by
  rw [get?_build, List.flatMap_singleton, declarations, lookup_flatMap]

end JvsSharp.Index
