import JvsSharp.Proofs.EmptyContainers
import JvsSharp.Proofs.Shedding

/-!
# Containers that are left behind

A pass over a line renames the first container of a run of type text; the ones
nested in its arguments are not looked at again. So what is left of a container
stood behind another one of the same kind in the line, and without empty
containers all of these are left. The rule changes its own result if and only
if there is something left in it, because every replacement that is one takes
away a letter or a bracket that nothing brings back.
-/

set_option autoImplicit false

namespace JvsSharp
open Pattern ContainerShape

def isMarked (c : Char) : Bool := ['A', 'M', 'V', 'P', '<'].contains c

def weight (line : Line) : Nat := line.countP isMarked

theorem weight_append (xs ys : Line) : weight (xs ++ ys) = weight xs + weight ys :=
  List.countP_append

theorem weight_cons (c : Char) (xs : Line) : weight (c :: xs) = weight [c] + weight xs :=
  weight_append [c] xs

theorem weight_blanks (xs : Line) (h : ∀ c ∈ xs, Unicode.isBlank c = true) : weight xs = 0 := by
  rw [weight, List.countP_eq_zero]
  intro c hc hmarked
  have hall : ∀ c ∈ ['A', 'M', 'V', 'P', '<'], Unicode.isBlank c = false := by decide
  have hblank := hall c (by simpa [isMarked] using hmarked)
  rw [h c hc] at hblank
  exact absurd hblank.symm Bool.false_ne_true

namespace Edit

def Lightens (e : Edit) : Prop :=
  ∀ c h, e.pattern.matchAt c = some h → weight (e.render h) < weight h.text

/-- An edit that takes weight away leaves a line as it is only if it does not occur there. -/
theorem Lightens.apply_eq_iff {e : Edit} (he : e.Lightens) (hfilled : e.pattern.isFilled = true)
    (line : Line) : e.apply line = line ↔ e.pattern.occursIn line = false :=
  e.apply_eq_iff_of_lt he hfilled line

def IsLight (e : Edit) : Prop :=
  ∀ line, weight (e.apply line) < weight line ∨ e.apply line = line

theorem Lightens.isLight {e : Edit} (he : e.Lightens) : e.IsLight :=
  e.apply_sheds fun c h hm => .inl (he c h hm)

end Edit

namespace ContainerShape

theorem Respaced.weight_eq {args written : Line} (h : Respaced args written) :
    weight args = weight written := by
  rcases h with rfl | ⟨first, gap, second, rfl, rfl, hgap, -⟩
  · rfl
  · rw [weight_append, weight_append, weight_cons ',' (gap ++ second), weight_append,
      weight_blanks gap hgap, weight_cons ',' (' ' :: second), weight_cons ' ' second,
      weight_blanks [' '] (by decide)]

theorem weight_generic (title args : Line) :
    weight (generic title args []) = weight title + weight args + 1 := by
  have hsigns : weight ['<'] = 1 ∧ weight ['>'] = 0 := by decide
  rw [generic_cut, weight_append, weight_append, weight_append]
  omega

theorem declared_lightens (s : ContainerShape) (hs : s ∈ known) (hrenamed : s.isRenamed = true) :
    s.declared.Lightens := by
  have hall : ∀ s ∈ known, s.isRenamed = true →
      weight s.target.toList < weight s.source.toList := by decide
  intro c h hm
  obtain ⟨-, args, written, hh⟩ := declared_renames s hs c h hm
  rw [hh.text, hh.render, weight_generic, weight_generic, hh.respaced.weight_eq]
  have := hall s hs hrenamed
  omega

theorem elided_lightens (s : ContainerShape) (hs : s ∈ known) : s.elided.Lightens := by
  intro c h hm
  obtain ⟨-, gap, gap', -, -, htext⟩ := elided_text s hs c h hm
  have hbracket : weight ['<'] = 1 := by decide
  change 0 < weight h.text
  rw [htext, weight_append, weight_append, weight_cons '<']
  omega

theorem declared_apply_self (s : ContainerShape) (hs : s ∈ known) (hsame : s.isRenamed = false)
    (line : Line) : s.declared.apply line = line := by
  have hall : ∀ s ∈ known, s.isRenamed = false → s.source = s.target ∧ s.mapLike = false := by
    decide
  obtain ⟨htarget, hlist⟩ := hall s hs hsame
  refine replaceAll_eq_self _ _ line fun c h _ hm => ?_
  obtain ⟨-, args, written, hh⟩ := declared_renames s hs c h hm
  rw [hh.text, hh.render, htarget, hh.kept hlist]

end ContainerShape

namespace Rules

/-- The rule leaves a line as it is only if there is nothing in it to rename or to delete. -/
theorem collectionDeclarations_eq_self_iff (line : Line) :
    collectionDeclarations line = line ↔ ∀ s ∈ known, s.elided.pattern.occursIn line = false ∧
      (s.isRenamed = true → s.declared.pattern.occursIn line = false) := by
  have hlight : ∀ e ∈ known.flatMap (fun s => [s.elided, s.declared]), e.IsLight := by
    intro e he
    obtain ⟨s, hs, he⟩ := List.mem_flatMap.1 he
    rcases List.mem_cons.1 he with rfl | he
    · exact (elided_lightens s hs).isLight
    · rw [List.mem_singleton.1 he]
      cases hrenamed : s.isRenamed with
      | true => exact (declared_lightens s hs hrenamed).isLight
      | false => exact fun line => .inr (declared_apply_self s hs hrenamed line)
  have hshape : ∀ s ∈ known, (∀ e ∈ [s.elided, s.declared], e.apply line = line) ↔
      s.elided.pattern.occursIn line = false ∧
        (s.isRenamed = true → s.declared.pattern.occursIn line = false) := by
    intro s hs
    obtain ⟨hdeclared, helided⟩ := pattern_filled s hs
    rw [List.forall_mem_cons, List.forall_mem_singleton,
      (elided_lightens s hs).apply_eq_iff helided line]
    cases hrenamed : s.isRenamed with
    | true =>
      rw [(declared_lightens s hs hrenamed).apply_eq_iff hdeclared line]
      simp
    | false => simp [declared_apply_self s hs hrenamed line]
  rw [collectionDeclarations, Edit.applyAll_eq_iff _ hlight]
  constructor
  · intro h s hs
    exact (hshape s hs).1 fun e he => h e (List.mem_flatMap.2 ⟨s, hs, he⟩)
  · intro h e he
    obtain ⟨s, hs, he⟩ := List.mem_flatMap.1 he
    exact (hshape s hs).2 (h s hs) e he

def renameShapes : List ContainerShape → Line → Line
  | [], line => line
  | s :: shapes, line => renameShapes shapes (s.declared.apply (s.elided.apply line))

theorem renameShapes_append (first last : List ContainerShape) (line : Line) :
    renameShapes (first ++ last) line = renameShapes last (renameShapes first line) := by
  induction first generalizing line with
  | nil => rfl
  | cons q first ih => exact ih _

theorem collectionDeclarations_eq_renameShapes (line : Line) :
    collectionDeclarations line = renameShapes known line := by
  have hfold : ∀ (shapes : List ContainerShape) line,
      shapes.foldl (fun line s => s.declared.apply (s.elided.apply line)) line =
        renameShapes shapes line := by
    intro shapes
    induction shapes with
    | nil => exact fun _ => rfl
    | cons q shapes ih => exact fun _ => ih _
  rw [collectionDeclarations_eq, hfold]

def IsBare (line : Line) : Prop := ∀ s ∈ known, s.elided.pattern.occursIn line = false

theorem IsBare.declared {line : Line} (h : IsBare line) (q : ContainerShape) (hq : q ∈ known) :
    IsBare (q.declared.apply (q.elided.apply line)) := by
  intro s hs
  rw [q.elided.apply_of_not_occursIn line (h q hq)]
  cases hoccurs : s.elided.pattern.occursIn (q.declared.apply line) with
  | false => rfl
  | true =>
    have hline := elided_of_declared q s hq hs line hoccurs
    rw [h s hs] at hline
    exact absurd hline Bool.false_ne_true

theorem IsBare.renameShapes {line : Line} (h : IsBare line) (shapes : List ContainerShape)
    (hshapes : ∀ q ∈ shapes, q ∈ known) : IsBare (renameShapes shapes line) := by
  induction shapes generalizing line with
  | nil => exact h
  | cons q shapes ih =>
    exact ih (h.declared q (hshapes q (by simp))) fun r hr => hshapes r (by simp [hr])

section
variable (s : ContainerShape) (hs : s ∈ known) (hrenamed : s.isRenamed = true) (n : Nat)
include hs hrenamed

theorem metIn_of_renameShapes (shapes : List ContainerShape) (hshapes : ∀ q ∈ shapes, q ∈ known)
    (line : Line)
    (h : Need.MetIn s.source.toList (s.chainNeeds n) [] (renameShapes shapes line)) :
    Need.MetIn s.source.toList (s.chainNeeds n) [] line := by
  induction shapes generalizing line with
  | nil => exact h
  | cons q shapes ih =>
    have hq : q ∈ known := hshapes q (by simp)
    have hlater := ih (fun r hr => hshapes r (by simp [hr])) _ h
    exact metIn_of_elided q hq _ _ line
      (metIn_of_declared hq hs hrenamed _ (s.chainNeeds_steady n) _ hlater)

/-- Without empty containers, the other shapes leave a container with all its layers. -/
theorem metIn_renameShapes (shapes : List ContainerShape) (hshapes : ∀ q ∈ shapes, q ∈ known)
    (hother : s ∉ shapes) (line : Line) (hbare : IsBare line)
    (h : Need.MetIn s.source.toList (s.chainNeeds n) [] line) :
    Need.MetIn s.source.toList (s.chainNeeds n) [] (renameShapes shapes line) := by
  induction shapes generalizing line with
  | nil => exact h
  | cons q shapes ih =>
    have hq : q ∈ known := hshapes q (by simp)
    have hne : q ≠ s := fun heq => hother (by simp [heq])
    refine ih (fun r hr => hshapes r (by simp [hr])) (fun hmem => hother (by simp [hmem])) _
      (hbare.declared q hq) ?_
    rw [q.elided.apply_of_not_occursIn line (hbare q hq)]
    exact metIn_declared_other hq hs hrenamed _ (s.chainNeeds_steady n) hne line h

/-- What a pass over the line makes of a container, one layer after the other. -/
theorem nested_declared_iff (line : Line) :
    (s.nested n).occursIn (s.declared.apply line) = true ↔
      (s.nested (n + 1)).occursIn line = true := by
  rw [nested_occursIn_iff s hs, nested_occursIn_iff s hs]
  exact declared_takes_layer s hs hrenamed n (s.declared.replaced (pattern_filled s hs).1 line) []
    reads_none fun hne => absurd rfl hne

theorem nested_of_collectionDeclarations (line : Line)
    (h : (s.nested n).occursIn (collectionDeclarations line) = true) :
    (s.nested (n + 1)).occursIn line = true := by
  obtain ⟨first, last, hknown, -, -⟩ := known_split s hs
  have hfirst : ∀ q ∈ first, q ∈ known := fun q hq => by simp [hknown, hq]
  have hlast : ∀ q ∈ last, q ∈ known := fun q hq => by simp [hknown, hq]
  rw [collectionDeclarations_eq_renameShapes, hknown, renameShapes_append, renameShapes,
    nested_occursIn_iff s hs] at h
  have hown := metIn_of_renameShapes s hs hrenamed (n + 1) last hlast _ h
  rw [← nested_occursIn_iff s hs, nested_declared_iff s hs hrenamed,
    nested_occursIn_iff s hs] at hown
  rw [nested_occursIn_iff s hs]
  exact metIn_of_renameShapes s hs hrenamed (n + 2) first hfirst _ (metIn_of_elided s hs _ _ _ hown)

theorem nested_collectionDeclarations (line : Line) (hbare : IsBare line)
    (h : (s.nested (n + 1)).occursIn line = true) :
    (s.nested n).occursIn (collectionDeclarations line) = true := by
  obtain ⟨first, last, hknown, hfirst, hlast⟩ := known_split s hs
  have hfirst' : ∀ q ∈ first, q ∈ known := fun q hq => by simp [hknown, hq]
  have hlast' : ∀ q ∈ last, q ∈ known := fun q hq => by simp [hknown, hq]
  rw [nested_occursIn_iff s hs] at h
  have hbare' := hbare.renameShapes first hfirst'
  have hbefore := metIn_renameShapes s hs hrenamed (n + 2) first hfirst' hfirst line hbare h
  have hown : (s.nested n).occursIn (s.declared.apply (s.elided.apply (renameShapes first line))) =
      true := by
    rw [nested_declared_iff s hs hrenamed, nested_occursIn_iff s hs,
      s.elided.apply_of_not_occursIn _ (hbare' s hs)]
    exact hbefore
  rw [nested_occursIn_iff s hs] at hown
  rw [collectionDeclarations_eq_renameShapes, hknown, renameShapes_append, renameShapes,
    nested_occursIn_iff s hs]
  exact metIn_renameShapes s hs hrenamed (n + 1) last hlast' hlast _ (hbare'.declared s hs) hown

end

/-- Of a renamed container at most those are left that stood behind one of the same kind in a run
of type text, one layer less of them; the rule is idempotent on a line if nothing is left in its
result. Without empty containers it is exactly these that are left. -/
theorem containers_left_behind (line : Line) :
    (∀ s ∈ known, s.isRenamed = true → ∀ n,
      (s.nested n).occursIn (collectionDeclarations line) = true →
      (s.nested (n + 1)).occursIn line = true) ∧
    (collectionDeclarations (collectionDeclarations line) = collectionDeclarations line ↔
      ∀ s ∈ known, s.elided.pattern.occursIn (collectionDeclarations line) = false ∧
        (s.isRenamed = true →
          s.declared.pattern.occursIn (collectionDeclarations line) = false)) ∧
    (IsBare line →
      (∀ s ∈ known, s.isRenamed = true → ∀ n,
        (s.nested n).occursIn (collectionDeclarations line) = (s.nested (n + 1)).occursIn line) ∧
      (collectionDeclarations (collectionDeclarations line) = collectionDeclarations line ↔
        ∀ s ∈ known, s.isRenamed = true → (s.nested 1).occursIn line = false)) := by
  have hleft := fun s hs hrenamed n => nested_of_collectionDeclarations s hs hrenamed n line
  refine ⟨hleft, collectionDeclarations_eq_self_iff _, fun hbare => ?_⟩
  have hsame : ∀ s ∈ known, s.isRenamed = true → ∀ n,
      (s.nested n).occursIn (collectionDeclarations line) = (s.nested (n + 1)).occursIn line := by
    intro s hs hrenamed n
    rw [Bool.eq_iff_iff]
    exact ⟨hleft s hs hrenamed n, nested_collectionDeclarations s hs hrenamed n line hbare⟩
  have hresult : IsBare (collectionDeclarations line) := by
    rw [collectionDeclarations_eq_renameShapes]
    exact hbare.renameShapes known fun _ hq => hq
  refine ⟨hsame, (collectionDeclarations_eq_self_iff _).trans ⟨?_, ?_⟩⟩
  · intro h s hs hrenamed
    rw [← hsame s hs hrenamed 0]
    exact (h s hs).2 hrenamed
  · intro h s hs
    refine ⟨hresult s hs, fun hrenamed => ?_⟩
    rw [← nested_zero, hsame s hs hrenamed 0]
    exact h s hs hrenamed

/-- A list in a map is renamed with it; of a vector in a vector only the outer one is. -/
theorem map_renamed_vector_left :
    collectionDeclarations (collectionDeclarations "HashMap<K,ArrayList<V>> m;".toList) =
      collectionDeclarations "HashMap<K,ArrayList<V>> m;".toList ∧
    (nested ⟨"Vector", "List", false⟩ 0).occursIn
      (collectionDeclarations "Vector<Vector<int>> v;".toList) = true := by
  have hmap : IsBare "HashMap<K,ArrayList<V>> m;".toList := by
    unfold IsBare
    decide +kernel
  have hvector : IsBare "Vector<Vector<int>> v;".toList := by
    unfold IsBare
    decide +kernel
  refine ⟨((containers_left_behind _).2.2 hmap).2.2 (by decide +kernel), ?_⟩
  rw [((containers_left_behind _).2.2 hvector).1 _ (by decide) (by decide) 0]
  decide +kernel

/-- The inner list keeps its name, and is renamed when the rule is run again. The second
parameter of a method stands in the run of the first one and is left as well. -/
theorem inner_list_left :
    collectionDeclarations "ArrayList<ArrayList<int>> x;".toList =
      "List<ArrayList<int>> x;".toList ∧
    (declared ⟨"ArrayList", "List", false⟩).pattern.occursIn
      (collectionDeclarations "ArrayList<ArrayList<int>> x;".toList) = true ∧
    collectionDeclarations (collectionDeclarations "ArrayList<ArrayList<int>> x;".toList) ≠
      collectionDeclarations "ArrayList<ArrayList<int>> x;".toList ∧
    collectionDeclarations "f(ArrayList<int> a, ArrayList<int> b)".toList =
      "f(List<int> a, ArrayList<int> b)".toList := by
  decide +kernel

end Rules

end JvsSharp
