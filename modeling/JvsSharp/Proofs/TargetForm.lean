import JvsSharp.Proofs.ElidedAssignment
import JvsSharp.Proofs.FieldDeclaration

/-!
# Bindings in target form

A binding is made of pieces of a line: a name, the container of the target and
types that were trimmed and mapped. Mapping keeps the words of a text apart
from its other characters, so types that were mapped and joined are left as
they are by another mapping, and so is a type that was put into a line.
-/

set_option autoImplicit false

namespace JvsSharp

theorem mapWords_cut (f : Line → Line) (xs : Line) (c : Char) (rest : Line)
    (hc : Unicode.isWord c = false) :
    mapWords f (xs ++ c :: rest) = mapWords f xs ++ c :: mapWords f rest := by
  have hfrom : ∀ w, mapWordsFrom f w (xs ++ c :: rest) =
      mapWordsFrom f w xs ++ c :: mapWords f rest := by
    induction xs with
    | nil =>
      intro w
      rw [List.nil_append, mapWordsFrom_end f w _ (endsWord_cons c rest hc),
        mapWords_other f c rest hc]
      rfl
    | cons x xs ih =>
      intro w
      rw [List.cons_append, mapWordsFrom, mapWordsFrom]
      by_cases hx : Unicode.isWord x = true
      · rw [if_pos hx, if_pos hx, ih]
      · rw [if_neg hx, if_neg hx, ih, List.append_assoc, List.cons_append]
  exact hfrom []

theorem endsWord_mapWords (f : Line → Line) (rest : Line) (h : EndsWord rest) :
    EndsWord (mapWords f rest) := by
  cases rest with
  | nil => exact h
  | cons c rest =>
    rw [mapWords_other f c rest h]
    exact endsWord_cons c _ h

theorem mapWords_mapWords (f g h : Line → Line)
    (himage : ∀ w rest, w ≠ [] → IsWordText w → EndsWord rest →
      mapWords g (f w ++ rest) = h w ++ mapWords g rest) (line : Line) :
    mapWords g (mapWords f line) = mapWords h line := by
  induction hn : line.length using Nat.strongRecOn generalizing line with
  | ind n ih =>
    rcases line_cases line with rfl | ⟨c, rest, rfl, hc⟩ | ⟨w, rest, rfl, hne, hword, hr⟩
    · rfl
    · rw [mapWords_other f c rest hc, mapWords_other g c _ hc, mapWords_other h c rest hc,
        ih rest.length (by simp [← hn]) rest rfl]
    · have hlength : rest.length < n := by
        have := List.length_pos_iff.2 hne
        rw [← hn, List.length_append]
        omega
      rw [mapWords_run f w rest hword hr, mapWords_run h w rest hword hr, flush, flush,
        if_neg hne, if_neg hne, himage w _ hne hword (endsWord_mapWords f rest hr),
        ih rest.length hlength rest rfl]

theorem mapWords_twice (f : Line → Line) (hf : ∀ w, w ≠ [] → IsWordText w → f w ≠ [])
    (hw : ∀ w, IsWordText w → IsWordText (f w)) (hidem : ∀ w, f (f w) = f w) (line : Line) :
    mapWords f (mapWords f line) = mapWords f line := by
  refine mapWords_mapWords f f f (fun w rest hne hword hr => ?_) line
  rw [mapWords_run f (f w) rest (hw w hword) hr, flush, if_neg (hf w hne hword), hidem]

namespace Rules
open Pattern

theorem primitiveTypes_cut (xs : Line) (c : Char) (rest : Line) (hc : Unicode.isWord c = false) :
    primitiveTypes (xs ++ c :: rest) = primitiveTypes xs ++ c :: primitiveTypes rest := by
  rw [primitiveTypes_eq, primitiveTypes_eq, primitiveTypes_eq, mapWords_cut _ xs c rest hc]

theorem primitiveTypes_twice (line : Line) :
    primitiveTypes (primitiveTypes line) = primitiveTypes line := by
  have hkeywords : ∀ p ∈ primitives, p.2.toList ≠ [] := by decide
  have hne : ∀ w, w ≠ [] → IsWordText w → primitiveKeyword w ≠ [] := by
    intro w hw _
    rw [primitiveKeyword]
    split
    · next p hp => exact hkeywords p (List.mem_of_find?_eq_some hp)
    · exact hw
  rw [primitiveTypes_eq, primitiveTypes_eq,
    mapWords_twice _ hne primitiveKeyword_word Field.primitiveKeyword_idem]

theorem primitiveTypes_word (w : Line) (hw : IsWordText w) :
    primitiveTypes w = flush primitiveKeyword w := by
  have hrun := mapWords_run primitiveKeyword w [] hw rfl
  rwa [List.append_nil, mapWords_nil, List.append_nil, ← primitiveTypes_eq] at hrun

theorem typeText_primitiveTypes (line : Line) (h : ∀ c ∈ line, typeText.mem c = true) :
    ∀ c ∈ primitiveTypes line, typeText.mem c = true := by
  have hR : Piecewise fun xs ys => (∀ c ∈ xs, typeText.mem c = true) →
      ∀ c ∈ ys, typeText.mem c = true :=
    { nil := id
      char := fun _ => id
      append := fun {xs xs' ys ys'} hx hy hall c hc => by
        rcases List.mem_append.1 hc with hc | hc
        · exact hx (fun d hd => hall d (List.mem_append_left _ hd)) c hc
        · exact hy (fun d hd => hall d (List.mem_append_right _ hd)) c hc }
  refine replaceAll_piecewise hR (fun c hit hm _ d hd => ?_) line h
  have hword : IsWordText (hit.group 1) := group_mem .word 1 _ (by decide) c hit hm
  have hrender : primitiveWord.render hit = primitiveKeyword (hit.group 1) := by
    simp [Edit.render, primitiveWord, Part.render]
  rw [hrender] at hd
  exact ContainerShape.typeText_word d (primitiveKeyword_word _ hword d hd)

end Rules

theorem Text.mem_of_mem_trim (line : Line) (c : Char) (h : c ∈ trim line) : c ∈ line := by
  have hstart : ∀ xs : Line, c ∈ trimStart xs → c ∈ xs := fun xs hmem =>
    (List.dropWhile_suffix _).subset hmem
  rw [trim, trimEnd, List.mem_reverse] at h
  exact hstart line (List.mem_reverse.1 (hstart _ h))

namespace Index
open Pattern ContainerShape

theorem mem_foldl_insertNew (ds : List (Line × Binding)) (index : Index) (d : Line × Binding)
    (h : d ∈ ds.foldl insertNew index) : d ∈ index ∨ d ∈ ds := by
  induction ds generalizing index with
  | nil => exact .inl h
  | cons e ds ih =>
    rcases ih _ h with hmem | hmem
    · rw [insertNew] at hmem
      split at hmem
      · exact .inl hmem
      · rcases List.mem_append.1 hmem with hmem | hmem
        · exact .inl hmem
        · exact .inr (by simp [List.mem_singleton.1 hmem])
    · exact .inr (by simp [hmem])

theorem mem_build (lines : List Line) (d : Line × Binding) (h : d ∈ build lines) :
    ∃ s ∈ known, ∃ c hit, (declaration s).matchAt c = some hit ∧
      d = (hit.group 3, ⟨s.target, elementTypes s hit⟩) := by
  rcases mem_foldl_insertNew _ [] d h with hmem | hmem
  · exact absurd hmem List.not_mem_nil
  · obtain ⟨line, -, hmem⟩ := List.mem_flatMap.1 hmem
    obtain ⟨s, hs, hmem⟩ := List.mem_flatMap.1 hmem
    obtain ⟨hit, hhit, rfl⟩ := List.mem_map.1 hmem
    have hsegment := (mem_hits_iff _ line hit).1 hhit
    obtain ⟨c, -, hm⟩ := segmentsFrom_matchAt _ none 0 line hit hsegment
    exact ⟨s, hs, c, hit, hm, rfl⟩

structure InTargetForm (d : Line × Binding) : Prop where
  name_ne : d.1 ≠ []
  name_word : IsWordText d.1
  binding : d.2.InTargetForm

theorem declaration_groups (s : ContainerShape) (hs : s ∈ known) (c : Place) (h : Hit)
    (hm : (declaration s).matchAt c = some h) :
    (∀ x ∈ h.group 1, Rules.typeText.mem x = true) ∧
      (s.mapLike = true → ∀ x ∈ h.group 2, Rules.typeText.mem x = true) ∧
      h.group 3 ≠ [] ∧ IsWordText (h.group 3) := by
  have hknown : ∀ s ∈ known, (declaration s).sets (takes Rules.typeText) 1 = true ∧
      (s.mapLike = true → (declaration s).sets (takes Rules.typeText) 2 = true) ∧
      (declaration s).sets isFilled 3 = true ∧ (declaration s).sets (takes .word) 3 = true := by
    decide
  obtain ⟨h1, h2, h3, h3'⟩ := hknown s hs
  exact ⟨group_mem _ 1 _ h1 c h hm, fun hmap => group_mem _ 2 _ (h2 hmap) c h hm,
    group_ne_nil 3 _ h3 c h hm, group_mem .word 3 _ h3' c h hm⟩

theorem elementTypes_inTargetForm (s : ContainerShape) (hs : s ∈ known) (c : Place) (h : Hit)
    (hm : (declaration s).matchAt c = some h) :
    (∀ x ∈ elementTypes s h, Rules.typeText.mem x = true) ∧
      Rules.primitiveTypes (elementTypes s h) = elementTypes s h := by
  obtain ⟨h1, h2, -⟩ := declaration_groups s hs c h hm
  have htype : ∀ i, (∀ x ∈ h.group i, Rules.typeText.mem x = true) →
      ∀ x ∈ Rules.primitiveTypes (Text.trim (h.group i)), Rules.typeText.mem x = true :=
    fun i hi => Rules.typeText_primitiveTypes _ fun x hx => hi x (Text.mem_of_mem_trim _ x hx)
  have htwice := fun i => Rules.primitiveTypes_twice (Text.trim (h.group i))
  by_cases hmap : s.mapLike = true
  · rw [elementTypes, if_pos hmap]
    refine ⟨fun x hx => ?_, ?_⟩
    · simp only [List.mem_append] at hx
      rcases hx with (hx | hx) | hx
      · exact htype 1 h1 x hx
      · exact (by decide : ∀ c ∈ ", ".toList, Rules.typeText.mem c = true) x hx
      · exact htype 2 (h2 hmap) x hx
    · have hcomma : ∀ xs ys : Line, (xs ++ ", ".toList) ++ ys = xs ++ ',' :: ([] ++ ' ' :: ys) := by
        simp
      rw [hcomma, Rules.primitiveTypes_cut _ ',' _ (by decide),
        Rules.primitiveTypes_cut _ ' ' _ (by decide), htwice 1, htwice 2]
      rfl
  · rw [elementTypes, if_neg hmap]
    exact ⟨htype 1 h1, htwice 1⟩

theorem inTargetForm_of_mem (lines : List Line) (d : Line × Binding) (h : d ∈ build lines) :
    InTargetForm d := by
  obtain ⟨s, hs, c, hit, hm, rfl⟩ := mem_build lines d h
  obtain ⟨-, -, hne, hword⟩ := declaration_groups s hs c hit hm
  obtain ⟨htext, hmapped⟩ := elementTypes_inTargetForm s hs c hit hm
  exact ⟨hne, hword, ⟨s, hs, rfl⟩, htext, hmapped⟩

theorem inTargetForm_of_get? (lines : List Line) (name : Line) (b : Binding)
    (h : (build lines).get? name = some b) : b.InTargetForm := by
  obtain ⟨before, after, hindex, -⟩ := List.lookup_eq_some_iff.1 h
  exact (inTargetForm_of_mem lines (name, b) (by rw [hindex]; simp)).binding

end Index

/-- A type of the target keeps its words between characters that belong to no word. -/
theorem Binding.InTargetForm.primitiveTypes_typeText {b : Binding} (hb : b.InTargetForm)
    (left right : Line) (c d : Char) (hc : Unicode.isWord c = false)
    (hd : Unicode.isWord d = false) :
    Rules.primitiveTypes ((left ++ [c]) ++ (b.typeText ++ d :: right)) =
      Rules.primitiveTypes (left ++ [c]) ++ (b.typeText ++ Rules.primitiveTypes (d :: right)) := by
  obtain ⟨s, hs, hcontainer⟩ := hb.container
  obtain ⟨-, hne, hword⟩ := Field.container_word s hs
  have hname : Rules.primitiveTypes b.container.toList = b.container.toList := by
    rw [hcontainer, Rules.primitiveTypes_word _ hword, flush, if_neg hne,
      (Field.primitiveKeyword_container s hs).2]
  have htype : Rules.primitiveTypes b.typeText = b.typeText := by
    rw [typeText, Rules.primitiveTypes_cut _ '<' _ (by decide), hname,
      Rules.primitiveTypes_cut b.elementTypes '>' [] (by decide), hb.types_mapped]
    rfl
  have hright : Rules.primitiveTypes (d :: right) = d :: Rules.primitiveTypes right :=
    Rules.primitiveTypes_cut [] d right hd
  rw [← List.append_cons, Rules.primitiveTypes_cut left c _ hc,
    Rules.primitiveTypes_cut left c [] hc, Rules.primitiveTypes_cut b.typeText d right hd, htype,
    hright]
  simp [Rules.primitiveTypes_eq, mapWords_nil]

namespace Rules
open Pattern

theorem diamondInference_at (index : Index) (line : Line) (before after : List Segment) (h : Hit)
    (hcut : elidedAssignment.segments line = before ++ .hit h :: after) :
    diamondInference index line =
      before.flatMap (Segment.replace (completed index)) ++
        (completed index h ++ after.flatMap (Segment.replace (completed index))) := by
  rw [diamondInference_eq, replaceAll_eq, replaceFrom, ← segments, hcut, List.flatMap_append,
    List.flatMap_cons]
  rfl

end Rules

open Rules in
/-- Every entry of an index has a word for its name and a binding in target form. So a line is
completed once and for all, and where a type was put in, the mapping of types that comes later
changes the texts on both sides of it but not the type. -/
theorem Index.bindings_in_target_form (lines : List Line) :
    (∀ d ∈ build lines, InTargetForm d) ∧
      (∀ line, diamondInference (build lines) (diamondInference (build lines) line) =
        diamondInference (build lines) line) ∧
      ∀ line before h after b, elidedAssignment.segments line = before ++ .hit h :: after →
        (build lines).get? (h.group 1) = some b →
        let left := before.flatMap (Segment.replace (completed (build lines))) ++
          ("this.".toList ++ (h.group 1 ++ " = new ".toList))
        let right := "()".toList ++ after.flatMap (Segment.replace (completed (build lines)))
        diamondInference (build lines) line = left ++ (b.typeText ++ right) ∧
          primitiveTypes (diamondInference (build lines) line) =
            primitiveTypes left ++ (b.typeText ++ primitiveTypes right) := by
  refine ⟨inTargetForm_of_mem lines, diamondInference_twice _ (inTargetForm_of_get? lines),
    fun line before h after b hcut hb => ?_⟩
  intro left right
  have hresult : diamondInference (build lines) line = left ++ (b.typeText ++ right) := by
    rw [diamondInference_at _ line before after h hcut, completed, hb]
    simp [left, right, Binding.assignment]
  have hleft : left = (before.flatMap (Segment.replace (completed (build lines))) ++
      ("this.".toList ++ (h.group 1 ++ " = new".toList))) ++ [' '] := by
    simp [left]
  refine ⟨hresult, ?_⟩
  rw [hresult, hleft]
  exact (inTargetForm_of_get? lines _ b hb).primitiveTypes_typeText _ _ ' ' '(' (by decide)
    (by decide)

/-- A map is completed once, between two types that are mapped later. -/
theorem Index.map_completed_once :
    let index := build ["HashMap<String,Vector<Integer>> rows;".toList]
    let line := "Boolean ok; this.rows = new HashMap < > ( ); Long n;".toList
    let result := "Boolean ok; this.rows = new Dictionary<string, Vector<int>>(); Long n;".toList
    let type := "Dictionary<string, Vector<int>>".toList
    index.get? "rows".toList = some ⟨"Dictionary", "string, Vector<int>".toList⟩ ∧
      Rules.diamondInference index line = result ∧
      Rules.diamondInference index result = result ∧
      Rules.primitiveTypes result =
        "bool ok; this.rows = new Dictionary<string, Vector<int>>(); long n;".toList ∧
      ∃ left right, result = left ++ (type ++ right) ∧
        Rules.primitiveTypes result =
          Rules.primitiveTypes left ++ (type ++ Rules.primitiveTypes right) := by
  intro index line result type
  have hget : index.get? "rows".toList = some ⟨"Dictionary", "string, Vector<int>".toList⟩ := by
    decide +kernel
  have hline : Rules.diamondInference index line = result := by decide +kernel
  have hnames : (Rules.elidedAssignment.hits line).map (fun h => h.group 1) = ["rows".toList] := by
    decide +kernel
  obtain ⟨h, rest, hhits, hname, -⟩ := List.map_eq_cons_iff.1 hnames
  have hmem := (Pattern.mem_hits_iff _ line h).1 (by rw [hhits]; simp)
  obtain ⟨before, after, hcut⟩ := List.append_of_mem hmem
  obtain ⟨-, htwice, htype⟩ :=
    bindings_in_target_form ["HashMap<String,Vector<Integer>> rows;".toList]
  have hstays := htwice line
  have hresult := htype line before h after _ hcut (by rw [hname]; exact hget)
  rw [hline] at hstays hresult
  exact ⟨hget, hline, hstays, by decide +kernel, _, _, hresult⟩

end JvsSharp
