import JvsSharp.Proofs.GroupContents
import JvsSharp.Proofs.PairNesting
import JvsSharp.Rules.Call

/-!
# Nesting of calls that become indexers

A call that is turned into an indexer gets square brackets for its
parentheses, and its arguments are cut at the first comma or at the first
closing parenthesis. Where this is not the end of the argument, the brackets
cross. The other calls on a map keep their parentheses or lose an empty pair.
-/

set_option autoImplicit false

namespace JvsSharp

theorem not_same_closing (due due' : List Char) (c : Char) :
    ¬((')' :: due).head? = some c ∧ (']' :: due').head? = some c) := by
  rintro ⟨hround, hsquare⟩
  exact absurd (hround.trans hsquare.symm) (by simp)

theorem keepsHeight_square (xs : Line) :
    KeepsHeight ('(' :: (xs ++ [')'])) ('[' :: (xs ++ [']'])) := by
  intro due due' e e' h h'
  change openAfter ([] ++ ')' :: due) (xs ++ [')']) = some e at h
  change openAfter ([] ++ ']' :: due') (xs ++ [']']) = some e' at h'
  rw [openAfter_append, Option.bind_eq_some_iff] at h h'
  obtain ⟨a, ha, hclose⟩ := h
  obtain ⟨a', ha', hclose'⟩ := h'
  obtain ⟨u, u', hu, hu', rfl, rfl, -⟩ := openAfter_above rfl
    (fun c _ => not_same_closing due due' c) ha ha'
  rw [openAfter_single] at hclose hclose'
  obtain ⟨w, hw, he, hheight⟩ := pairStep_lowered (by decide) hclose
  obtain ⟨w', hw', he', hheight'⟩ := pairStep_lowered (by decide) hclose'
  refine ⟨w, w', ?_, ?_, he, he', ?_⟩
  · rw [← hw, ← openAfter_single]
    exact openAfter_pass (openAfter_frame [')'] hu) [')']
  · rw [← hw', ← openAfter_single]
    exact openAfter_pass (openAfter_frame [']'] hu') [']']
  · rw [hheight, hheight', Option.some.inj (hu.symm.trans hu')]

theorem keepsHeight_key (xs ys : Line) (hy : ')' ∉ ys) :
    KeepsHeight ('(' :: (xs ++ (ys ++ [')']))) ('[' :: (xs ++ (']' :: ys))) := by
  intro due due' e e' h h'
  change openAfter ([] ++ ')' :: due) (xs ++ (ys ++ [')'])) = some e at h
  change openAfter ([] ++ ']' :: due') (xs ++ (']' :: ys)) = some e' at h'
  rw [openAfter_append, Option.bind_eq_some_iff] at h h'
  obtain ⟨a, ha, h⟩ := h
  obtain ⟨a', ha', h'⟩ := h'
  rw [openAfter_append, Option.bind_eq_some_iff] at h
  rw [openAfter_cons, Option.bind_eq_some_iff] at h'
  obtain ⟨d, hd, hclose⟩ := h
  obtain ⟨d', hclose', hd'⟩ := h'
  -- The key closes neither of the brackets before it, since they are of two kinds.
  obtain ⟨u, u', hu, hu', rfl, rfl, -⟩ := openAfter_above rfl
    (fun c _ => not_same_closing due due' c) ha ha'
  obtain rfl : u = u' := Option.some.inj (hu.symm.trans hu')
  obtain ⟨s, hs, rfl, hheight'⟩ := pairStep_lowered (by decide) hclose'
  -- The value does not close the parenthesis, and in the new form it starts from the same height.
  have hbase : ∀ c ∈ ys, ¬((')' :: due).head? = some c ∧ due'.head? = some c) := by
    rintro c hc ⟨hhead, -⟩
    exact hy (Option.some.inj hhead ▸ hc)
  obtain ⟨v, v', hv, hv', rfl, rfl, hvalue⟩ := openAfter_above hheight'.symm hbase hd hd'
  rw [openAfter_single] at hclose
  obtain ⟨w, hw, he, hheight⟩ := pairStep_lowered (by decide) hclose
  refine ⟨w, v', ?_, ?_, he, rfl, hheight.trans hvalue⟩
  · calc openAfter ([] ++ [')']) (xs ++ (ys ++ [')']))
      _ = openAfter (u ++ [')']) (ys ++ [')']) := openAfter_pass (openAfter_frame [')'] hu) _
      _ = openAfter (v ++ [')']) [')'] := openAfter_pass (openAfter_frame [')'] hv) _
      _ = some w := (openAfter_single _ _).trans hw
  · calc openAfter ([] ++ [']']) (xs ++ (']' :: ys))
      _ = openAfter (u ++ [']']) (']' :: ys) := openAfter_pass (openAfter_frame [']'] hu) _
      _ = openAfter s ys := by rw [openAfter_cons, hs, Option.bind_some]
      _ = some v' := hv'

/-- A key without parentheses can be put in square brackets, and no other one can. -/
theorem leavesSame_square (xs : Line) (hx : ')' ∉ xs) {due e : List Char}
    (h : openAfter due ('(' :: (xs ++ [')'])) = some e) :
    LeavesSame ('(' :: (xs ++ [')'])) ('[' :: (xs ++ [']'])) ↔ '(' ∉ xs := by
  change openAfter ([] ++ ')' :: due) (xs ++ [')']) = some e at h
  rw [openAfter_append, Option.bind_eq_some_iff] at h
  obtain ⟨a, ha, hclose⟩ := h
  have hbase : ∀ c ∈ xs, ¬((')' :: due).head? = some c ∧ (')' :: due).head? = some c) := by
    rintro c hc ⟨hhead, -⟩
    exact hx (Option.some.inj hhead ▸ hc)
  obtain ⟨u, -, hu, -, rfl, -⟩ := openAfter_above rfl hbase ha ha
  have hround : openAfter [] ('(' :: (xs ++ [')'])) = pairStep (u ++ [')']) ')' :=
    (openAfter_pass (openAfter_frame [')'] hu) _).trans (openAfter_single _ _)
  have hsquare : openAfter [] ('[' :: (xs ++ [']'])) = pairStep (u ++ [']']) ']' :=
    (openAfter_pass (openAfter_frame [']'] hu) _).trans (openAfter_single _ _)
  have hcount := openAfter_count hu
  rw [List.count_nil, List.count_eq_zero.2 hx] at hcount
  have hopen : u = [] ↔ '(' ∉ xs := by
    constructor
    · rintro rfl
      rw [← List.count_eq_zero]
      simpa using hcount
    · intro hmem
      rw [List.count_eq_zero.2 hmem, eq_comm] at hcount
      rw [openAfter_single, pairStep_closes (by decide)] at hclose
      cases u with
      | nil => rfl
      | cons d u =>
        rw [List.cons_append, List.cons.injEq] at hclose
        rw [hclose.1] at hcount
        simp at hcount
  rw [← hopen, LeavesSame, hround, hsquare]
  constructor
  · rintro ⟨hsome, hsame⟩
    obtain ⟨v, hv⟩ := Option.isSome_iff_exists.1 hsome
    rw [hv] at hsame
    rw [pairStep_closes (by decide)] at hv hsame
    cases u with
    | nil => rfl
    | cons d u =>
      have hd := (List.cons.inj hv).1
      have hd' := (List.cons.inj hsame).1
      exact absurd (hd.symm.trans hd') (by decide)
  · rintro rfl
    exact ⟨rfl, rfl⟩

theorem eq_replicate_of_rotated (c : Char) (xs : List Char) (h : xs ++ [c] = c :: xs) :
    xs = List.replicate xs.length c := by
  induction xs with
  | nil => rfl
  | cons d xs ih =>
    rw [List.cons_append, List.cons.injEq] at h
    rw [List.length_cons, List.replicate_succ, ← ih (h.2.trans (by rw [h.1])), h.1]

/-- Behind a nested key, a value may leave parentheses open and nothing else. -/
theorem leavesSame_key (xs ys : Line) (hx : WellNested xs) :
    LeavesSame ('(' :: (xs ++ (ys ++ [')']))) ('[' :: (xs ++ (']' :: ys))) ↔
      ∃ n, openAfter [] ys = some (List.replicate n ')') := by
  have hsquare : openAfter [] ('[' :: (xs ++ (']' :: ys))) = openAfter [] ys :=
    openAfter_pass (openAfter_frame [']'] hx) (']' :: ys)
  have hround : ∀ v, openAfter [] ys = some v →
      openAfter [] ('(' :: (xs ++ (ys ++ [')']))) = pairStep (v ++ [')']) ')' := by
    intro v hv
    calc openAfter ([] ++ [')']) (xs ++ (ys ++ [')']))
      _ = openAfter ([] ++ [')']) (ys ++ [')']) := openAfter_pass (openAfter_frame [')'] hx) _
      _ = openAfter (v ++ [')']) [')'] := openAfter_pass (openAfter_frame [')'] hv) _
      _ = pairStep (v ++ [')']) ')' := openAfter_single _ _
  rw [LeavesSame, hsquare]
  constructor
  · rintro ⟨hsome, hsame⟩
    obtain ⟨v, hv⟩ := Option.isSome_iff_exists.1 hsome
    rw [hv] at hsame
    rw [hround v hsame, pairStep_closes (by decide)] at hv
    exact ⟨v.length, by rw [hsame, ← eq_replicate_of_rotated ')' v hv]⟩
  · rintro ⟨n, hn⟩
    have hclose : pairStep (List.replicate n ')' ++ [')']) ')' = some (List.replicate n ')') := by
      rw [pairStep_closes (by decide), ← List.replicate_succ', List.replicate_succ]
    rw [hround _ hn, hclose, hn]
    exact ⟨rfl, rfl⟩

namespace Rules
open Pattern

theorem mapEdits_cut : mapEdits = [putEdit, getEdit] ++ mapEdits.drop 2 := rfl

theorem keepsCall_mapEdits : ∀ e ∈ mapEdits.drop 2, e.KeepsCall := by
  have hatoms : ∀ e ∈ mapEdits.drop 2, e.pattern.atoms = some e.templateAtoms ∨
      e.pattern.atoms = some (e.templateAtoms ++ [.sign '(', .sign ')']) := by
    decide +kernel
  have hparts : ∀ e ∈ mapEdits.drop 2, ∀ part ∈ e.template, part.KeepsSkeleton := by
    simp [mapEdits, Part.KeepsSkeleton]
  exact fun e he => ⟨hatoms e he, hparts e he⟩

theorem wellNested_mapMethods (line : Line) :
    WellNested (mapMethods line) ↔ WellNested (getEdit.apply (putEdit.apply line)) := by
  rw [mapMethods, mapEdits_cut, Edit.applyAll_append,
    Edit.wellNested_applyAll _ keepsCall_mapEdits]
  rfl

section
variable (e : Edit) (as bs : List Atom) (hpattern : e.pattern.atoms = some (.group 1 :: as))
  (htemplate : e.templateAtoms = .group 1 :: bs) (hword : e.pattern.sets (takes .word) 1 = true)
  (hparts : ∀ part ∈ e.template, part.KeepsSkeleton)
include hpattern htemplate hword hparts

theorem skeleton_behind_receiver (c : Place) (h : Hit) (hm : e.pattern.matchAt c = some h) :
    skeleton h.text = Atom.skeletonOf h.marks as ∧
      skeleton (e.render h) = Atom.skeletonOf h.marks bs := by
  have hreceiver : (Atom.group 1).skeleton h.marks = [] := by
    have hmem := group_mem .word 1 _ hword c h hm
    exact skeleton_eq_nil _ fun x hx => CharClass.not_isDelimiter .word (by decide) x (hmem x hx)
  have htext := matchAt_atoms _ _ hpattern c h hm
  have hrender := e.render_skeleton hparts h
  rw [htemplate] at hrender
  rw [Atom.skeletonOf_cons, hreceiver, List.nil_append] at htext hrender
  exact ⟨htext, hrender⟩

end

theorem putEdit_effect (c : Place) (h : Hit) (hm : putEdit.pattern.matchAt c = some h) :
    SameEffect h.text ('(' :: (h.group 3 ++ (h.group 4 ++ [')']))) ∧
      SameEffect (putEdit.render h) ('[' :: (h.group 3 ++ (']' :: h.group 4))) := by
  obtain ⟨htext, hrender⟩ := skeleton_behind_receiver putEdit
    [.sign '(', .group 3, .group 4, .sign ')'] [.sign '[', .group 3, .sign ']', .group 4]
    (by decide +kernel) (by decide +kernel) (by decide +kernel)
    (by simp [putEdit, Part.KeepsSkeleton]) c h hm
  refine ⟨sameEffect_of_skeleton ?_, sameEffect_of_skeleton ?_⟩
  · change '(' :: skeleton (h.group 3 ++ (h.group 4 ++ [')'])) = _
    rw [htext, skeleton_append, skeleton_append]
    rfl
  · change '[' :: skeleton (h.group 3 ++ (']' :: h.group 4)) = _
    rw [hrender, skeleton_append]
    simp [Atom.skeletonOf, Atom.skeleton, Hit.group_eq]
    rfl

theorem getEdit_effect (c : Place) (h : Hit) (hm : getEdit.pattern.matchAt c = some h) :
    SameEffect h.text ('(' :: (h.group 3 ++ [')'])) ∧
      SameEffect (getEdit.render h) ('[' :: (h.group 3 ++ [']'])) := by
  obtain ⟨htext, hrender⟩ := skeleton_behind_receiver getEdit
    [.sign '(', .group 3, .sign ')'] [.sign '[', .group 3, .sign ']']
    (by decide +kernel) (by decide +kernel) (by decide +kernel)
    (by simp [getEdit, Part.KeepsSkeleton]) c h hm
  refine ⟨sameEffect_of_skeleton ?_, sameEffect_of_skeleton ?_⟩
  · change '(' :: skeleton (h.group 3 ++ [')']) = _
    rw [htext, skeleton_append]
    rfl
  · change '[' :: skeleton (h.group 3 ++ [']']) = _
    rw [hrender, skeleton_append]
    rfl

theorem putEdit_keepsHeight (c : Place) (h : Hit) (hm : putEdit.pattern.matchAt c = some h) :
    KeepsHeight h.text (putEdit.render h) := by
  obtain ⟨htext, hrender⟩ := putEdit_effect c h hm
  have hvalue := group_mem (.except [')']) 4 _ (by decide +kernel) c h hm
  exact (keepsHeight_key _ _ fun hmem => absurd (hvalue _ hmem) (by decide)).congr htext hrender

theorem getEdit_keepsHeight (c : Place) (h : Hit) (hm : getEdit.pattern.matchAt c = some h) :
    KeepsHeight h.text (getEdit.render h) := by
  obtain ⟨htext, hrender⟩ := getEdit_effect c h hm
  exact (keepsHeight_square _).congr htext hrender

theorem getEdit_leavesSame (line : Line) (hline : WellNested line) (h : Hit)
    (hh : h ∈ getEdit.pattern.hits line) :
    LeavesSame h.text (getEdit.render h) ↔ '(' ∉ h.group 3 := by
  obtain ⟨c, due, e, hm, hread⟩ := openAfter_hit _ line hline h hh
  obtain ⟨htext, hrender⟩ := getEdit_effect c h hm
  have hkey := group_mem (.except [')']) 3 _ (by decide +kernel) c h hm
  rw [leavesSame_congr htext hrender]
  rw [← htext] at hread
  exact leavesSame_square _ (fun hmem => absurd (hkey _ hmem) (by decide)) hread

/-- The stores of a nested line become indexers one by one, and it stays nested if and only if
each of them leaves the same characters due; behind a nested key this means that the value
leaves parentheses open and nothing else. Of the calls that come after the stores only the
look-ups matter: they keep a nested line nested if and only if no key has a parenthesis. -/
theorem map_calls_keep_nesting_iff (line : Line) (hline : WellNested line) :
    (WellNested (putEdit.apply line) ↔
        ∀ h ∈ putEdit.pattern.hits line, LeavesSame h.text (putEdit.render h)) ∧
      (∀ h ∈ putEdit.pattern.hits line, WellNested (h.group 3) →
        (LeavesSame h.text (putEdit.render h) ↔
          ∃ n, openAfter [] (h.group 4) = some (List.replicate n ')'))) ∧
      (WellNested (mapMethods line) ↔ WellNested (getEdit.apply (putEdit.apply line))) ∧
      (WellNested (putEdit.apply line) →
        (WellNested (mapMethods line) ↔
          ∀ h ∈ getEdit.pattern.hits (putEdit.apply line), '(' ∉ h.group 3)) := by
  refine ⟨putEdit.wellNested_apply_iff putEdit_keepsHeight line hline, fun h hh hkey => ?_,
    wellNested_mapMethods line, fun hput => ?_⟩
  · obtain ⟨c, -, -, hm, -⟩ := openAfter_hit _ line hline h hh
    obtain ⟨htext, hrender⟩ := putEdit_effect c h hm
    rw [leavesSame_congr htext hrender, leavesSame_key _ _ hkey]
  · rw [wellNested_mapMethods, getEdit.wellNested_apply_iff getEdit_keepsHeight _ hput]
    exact forall₂_congr fun h hh => getEdit_leavesSame _ hput h hh

/-- A store of a call and look-ups of an index stay nested. -/
theorem stored_call_keeps_nesting :
    let line := "n.put(a, f(b)); x = m.get(k) + m.get(g[i]);".toList
    let result := "n[a] = f(b); x = m[k] + m[g[i]];".toList
    WellNested line ∧ mapMethods line = result ∧
      (∀ h ∈ putEdit.pattern.hits line, LeavesSame h.text (putEdit.render h)) ∧
      (∀ h ∈ getEdit.pattern.hits (putEdit.apply line), '(' ∉ h.group 3) ∧
      WellNested result := by
  intro line result
  have hline : WellNested line := by decide +kernel
  have hresult : mapMethods line = result := by decide +kernel
  have hstores : ∀ h ∈ putEdit.pattern.hits line, LeavesSame h.text (putEdit.render h) := by
    decide +kernel
  have hkeys : ∀ h ∈ getEdit.pattern.hits (putEdit.apply line), '(' ∉ h.group 3 := by
    decide +kernel
  obtain ⟨hput, -, -, hget⟩ := map_calls_keep_nesting_iff line hline
  refine ⟨hline, hresult, hstores, hkeys, ?_⟩
  rw [← hresult]
  exact (hget (hput.2 hstores)).2 hkeys

/-- The key of a look-up and the key of a store, each cut within a call. -/
theorem brackets_cross :
    (WellNested "m.get(f(x))".toList ∧ mapMethods "m.get(f(x))".toList = "m[f(x])".toList ∧
      ¬WellNested "m[f(x])".toList) ∧
    (WellNested "m.put(f(a, b), c)".toList ∧
      mapMethods "m.put(f(a, b), c)".toList = "m[f(a] = b, c)".toList ∧
      ¬WellNested "m[f(a] = b, c)".toList) := by
  decide +kernel

end Rules

end JvsSharp
