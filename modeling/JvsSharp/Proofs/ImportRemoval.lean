import JvsSharp.Proofs.RenamingPasses

/-!
# No import is left

The last of the edits for imports removes all up to the last semicolon of the
line. What it joins is followed by no semicolon on that line, so it cannot be
read as an import again. An import of a well-known library is an import like
any other, so a second run finds nothing to do.
-/

set_option autoImplicit false

namespace JvsSharp

namespace Pattern

variable {α : Type}

/-- Where a run ends, and that its continuation fails wherever it could have gone on to. -/
theorem runK_some (k : CharClass) (f : Place → Option α) (b : Option Char) (line : Line) (r : α)
    (h : runK k f b line = some r) :
    ∃ xs rest, line = xs ++ rest ∧ (∀ x ∈ xs, k.mem x = true) ∧
      f ⟨behind b xs, rest⟩ = some r ∧
      ∀ us vs, us ≠ [] → (∀ u ∈ us, k.mem u = true) → rest = us ++ vs →
        f ⟨behind (behind b xs) us, vs⟩ = none := by
  induction line generalizing b with
  | nil =>
    refine ⟨[], [], rfl, by simp, h, fun us vs hus _ hrest => ?_⟩
    exact absurd (List.append_eq_nil_iff.1 hrest.symm).1 hus
  | cons x line ih =>
    rw [runK] at h
    by_cases hx : k.mem x = true
    · rw [if_pos hx] at h
      cases hlater : runK k f (some x) line with
      | some r' =>
        rw [hlater, Option.some_or] at h
        -- A longer run succeeds and is preferred.
        obtain ⟨xs, rest, hline, hmem, hf, hlonger⟩ := ih (some x) (hlater.trans h)
        exact ⟨x :: xs, rest, congrArg (x :: ·) hline, List.forall_mem_cons.2 ⟨hx, hmem⟩, hf,
          hlonger⟩
      | none =>
        rw [hlater, Option.none_or] at h
        -- All longer runs fail.
        rw [runK_eq, List.findSome?_eq_none_iff] at hlater
        refine ⟨[], x :: line, rfl, by simp, h, fun us vs hus hmem hrest => ?_⟩
        cases us with
        | nil => exact absurd rfl hus
        | cons u us =>
          rw [List.cons_append, List.cons.injEq] at hrest
          rw [← hrest.1]
          refine hlater _ ?_
          rw [hrest.2]
          exact mem_runEnds k (some x) us vs fun y hy => hmem y (by simp [hy])
    · rw [if_neg hx] at h
      refine ⟨[], x :: line, rfl, by simp, h, fun us vs hus hmem hrest => ?_⟩
      cases us with
      | nil => exact absurd rfl hus
      | cons u us =>
        rw [List.cons_append, List.cons.injEq] at hrest
        exact absurd (hrest.1 ▸ hmem u (by simp)) hx

end Pattern

open Pattern

def BeginsImport (text : Line) : Prop :=
  ∃ mid rest, text = "import ".toList ++ (mid ++ ';' :: rest) ∧ mid ≠ [] ∧ '\n' ∉ mid

def HoldsImport (text : Line) : Prop := ∃ xs rest, text = xs ++ rest ∧ BeginsImport rest

theorem inLine_iff (xs : Line) : (∀ x ∈ xs, CharClass.inLine.mem x = true) ↔ '\n' ∉ xs := by
  constructor
  · intro h hmem
    exact absurd (h '\n' hmem) (by decide)
  · intro h x hx
    have hne : x ≠ '\n' := fun heq => h (heq ▸ hx)
    simpa [CharClass.mem] using hne

namespace Rules

theorem begins_of_ends (s : Line) (ps : List Pattern) (hs : '\n' ∉ s)
    (hps : (all ps).takes .inLine = true) (hne : s ≠ [] ∨ (all ps).isFilled = true) (c : Place)
    (m : List Mark) (r : Place × List Mark)
    (h : r ∈ (all (.text ("import ".toList ++ s) :: (ps ++ [lit ";"]))).ends c m) :
    BeginsImport c.rest := by
  rw [mem_ends_all_cons] at h
  obtain ⟨a, ha, h⟩ := h
  obtain ⟨d, hd, h⟩ := (mem_ends_all_append ps _ _ _ _).1 h
  have hfirst := (mem_ends_text _ c m a ha).1
  have hlast := (mem_ends_text _ d.1 d.2 r ((mem_ends_all_single _ _ _ _).1 h)).1
  obtain ⟨xs, hxs, hmem⟩ := ends_takes .inLine _ hps a.1 a.2 d hd
  refine ⟨s ++ xs, r.1.rest, ?_, fun hnil => ?_, fun hmem' => ?_⟩
  · rw [hfirst, hxs.1, hlast]
    simp
  · obtain ⟨hsnil, rfl⟩ := List.append_eq_nil_iff.1 hnil
    have hfilled := ends_isFilled _ (hne.resolve_left fun hs => hs hsnil) a.1 a.2 d hd
    rw [hxs.1, List.nil_append] at hfilled
    exact Nat.lt_irrefl _ hfilled
  · exact (List.mem_append.1 hmem').elim hs ((inLine_iff xs).1 hmem)

theorem begins_of_importEdits (e : Edit) (he : e ∈ importEdits) (c : Place) (m : List Mark)
    (r : Place × List Mark) (h : r ∈ e.pattern.ends c m) : BeginsImport c.rest := by
  have hform : ∃ s ps, e.pattern = all (.text ("import ".toList ++ s) :: (ps ++ [lit ";"])) ∧
      '\n' ∉ s ∧ (all ps).takes .inLine = true ∧ (s ≠ [] ∨ (all ps).isFilled = true) := by
    simp only [importEdits, List.mem_cons, List.not_mem_nil, or_false] at he
    rcases he with rfl | rfl | rfl | rfl
    · exact ⟨"java.".toList, [anyOf ["util", "time", "math", "lang"], ".", .run .inLine],
        by decide, by decide, by decide, by decide⟩
    · exact ⟨"java.io.".toList, [.run .inLine], by decide, by decide, by decide, by decide⟩
    · exact ⟨"java.sql.".toList, [.run .inLine], by decide, by decide, by decide, by decide⟩
    · exact ⟨[], [stretch .inLine], by decide, by decide, by decide, by decide⟩
  obtain ⟨s, ps, hpattern, hs, hps, hne⟩ := hform
  rw [hpattern] at h
  exact begins_of_ends s ps hs hps hne c m r h

theorem importEdits_absent (text : Line) (h : ¬HoldsImport text) :
    ∀ e ∈ importEdits, e.pattern.Absent text := by
  intro e he
  refine absent_of_forall _ text fun pre rest htext => matchAt_eq_none _ _ fun r hr => ?_
  exact h ⟨pre, rest, htext, begins_of_importEdits e he _ _ r hr⟩

theorem otherImport_of_begins (b : Option Char) (text : Line) (h : BeginsImport text) :
    otherImport.pattern.matchAt ⟨b, text⟩ ≠ none := by
  obtain ⟨mid, rest, rfl, hne, hmid⟩ := h
  cases mid with
  | nil => exact absurd rfl hne
  | cons x xs =>
    have hmem := (inLine_iff (x :: xs)).2 hmid
    have hrun := mem_runEnds .inLine (some x) xs (';' :: rest) fun y hy => hmem y (by simp [hy])
    have hx : CharClass.inLine.mem x = true := hmem x (by simp)
    intro hnone
    rw [matchAt_eq, Option.map_eq_none_iff, List.head?_eq_none_iff,
      List.eq_nil_iff_forall_not_mem] at hnone
    obtain ⟨m, hfirst⟩ := (chooses_text "import ".toList).any _ (by simp)
      ⟨b, "import ".toList ++ (x :: xs ++ ';' :: rest)⟩ ⟨behind b "import ".toList, _⟩ [] ⟨rfl, rfl⟩
    have hstretch : (⟨behind (some x) xs, ';' :: rest⟩, m) ∈
        (stretch .inLine).ends ⟨behind b "import ".toList, x :: xs ++ ';' :: rest⟩ m := by
      rw [stretch, ends, List.mem_flatMap]
      refine ⟨(⟨some x, xs ++ ';' :: rest⟩, m), by simp [ends, hx], ?_⟩
      rw [ends, List.mem_map]
      exact ⟨_, hrun, rfl⟩
    refine hnone (⟨some ';', rest⟩, m) ?_
    rw [otherImport, mem_ends_all_cons]
    refine ⟨_, hfirst, (mem_ends_all_cons _ _ _ _ _).2 ⟨_, hstretch, ?_⟩⟩
    rw [mem_ends_all_single]
    simp [lit, ends, Place.skip?]

/-- The removed text goes on to the last semicolon of the line. -/
theorem otherImport_last (b : Option Char) (text : Line) (h : Hit)
    (hm : otherImport.pattern.matchAt ⟨b, text⟩ = some h) (xs rest : Line)
    (hafter : h.after = xs ++ ';' :: rest) : '\n' ∈ xs := by
  let final : Place → List Mark → Option Hit := fun c m =>
    some ⟨b, textBetween text c.rest, m, c.rest⟩
  have hclose : ∀ b' v, (all [lit ";"]).matchK ⟨b', ';' :: v⟩ [] final = final ⟨some ';', v⟩ [] :=
    fun b' v => matchK_char ';' b' v [] _
  rw [matchAt, otherImport, matchK_all_cons, lit, matchK] at hm
  obtain ⟨c, -, hm⟩ := Option.bind_eq_some_iff.1 hm
  rw [matchK_all_cons, stretch, matchK, matchK] at hm
  cases hc : c.rest with
  | nil => simp [hc] at hm
  | cons x line =>
    simp only [hc] at hm
    split at hm
    · rw [matchK] at hm
      obtain ⟨us, last, -, -, hf, hlonger⟩ := runK_some .inLine _ _ _ _ hm
      cases last with
      | nil => exact absurd hf (by simp [all, lit, matchK, Place.skip?])
      | cons d last =>
        by_cases hd : d = ';'
        · subst hd
          rw [hclose] at hf
          have hlast : last = xs ++ ';' :: rest := by
            rw [← hafter, ← Option.some.inj hf]
          -- Otherwise the run could have gone on to the later semicolon.
          by_contra hnot
          have hmem : ∀ u ∈ ';' :: xs, CharClass.inLine.mem u = true :=
            List.forall_mem_cons.2 ⟨by decide, (inLine_iff xs).2 hnot⟩
          have hnone := hlonger (';' :: xs) (';' :: rest) (by simp) hmem (by rw [hlast]; rfl)
          rw [hclose] at hnone
          exact absurd hnone (by simp [final])
        · exact absurd hf (by simp [all, lit, matchK, Place.skip?, hd])
    · exact absurd hm (by simp)

/-- A semicolon that is left on the first line has the same text before it as it had. -/
theorem semicolon_left (b : Option Char) (line line' : Line)
    (h : otherImport.pattern.Replaced otherImport.render b line line') (xs rest : Line)
    (hxs : '\n' ∉ xs) (hline : line' = xs ++ ';' :: rest) : ∃ rest', line = xs ++ ';' :: rest' := by
  induction h generalizing xs with
  | nil b => exact absurd hline (by simp)
  | keep hm hrest ih =>
    cases xs with
    | nil =>
      rw [List.nil_append, List.cons.injEq] at hline
      exact ⟨_, by rw [hline.1, List.nil_append]⟩
    | cons x xs =>
      rw [List.cons_append, List.cons.injEq] at hline
      obtain ⟨rest', hrest'⟩ := ih xs (fun hmem => hxs (by simp [hmem])) hline.2
      exact ⟨rest', by rw [hline.1, hrest', List.cons_append]⟩
  | hit hm hrest ih =>
    -- Behind a removed import no semicolon is left before the end of the line.
    obtain ⟨rest', hafter⟩ := ih xs hxs hline
    exact absurd (otherImport_last _ _ _ hm xs rest' hafter) hxs

theorem otherImport_leaves_none (text : Line) : ¬HoldsImport (otherImport.apply text) := by
  have hreplaced := otherImport.replaced (by decide) text
  generalize otherImport.apply text = text' at hreplaced
  generalize none = b at hreplaced
  induction hreplaced with
  | nil b =>
    rintro ⟨xs, rest, htext, mid, post, rfl, -, -⟩
    simp at htext
  | hit _ _ ih => exact ih
  | keep hm hrest ih =>
    rintro ⟨xs, rest, htext, hbegins⟩
    cases xs with
    | cons x xs =>
      rw [List.cons_append, List.cons.injEq] at htext
      exact ih ⟨xs, rest, htext.2, hbegins⟩
    | nil =>
      obtain ⟨mid, post, hrest', hne, hmid⟩ := hbegins
      rw [List.nil_append, hrest', ← List.append_assoc] at htext
      have hnewline : '\n' ∉ "import ".toList ++ mid := by
        rw [List.mem_append, not_or]
        exact ⟨by decide, hmid⟩
      obtain ⟨post', hline⟩ := semicolon_left _ _ _ (.keep hm hrest) _ post hnewline htext
      rw [List.append_assoc] at hline
      exact otherImport_of_begins _ _ ⟨mid, post', hline, hne, hmid⟩ hm

/-- The result holds no import, so another run leaves it as it is; and a text is left as it is
only if it holds none. -/
theorem imports_complete_and_stable (text : Line) :
    ¬HoldsImport (imports text) ∧ imports (imports text) = imports text ∧
      (imports text = text ↔ ¬HoldsImport text) := by
  have hnone : ¬HoldsImport (imports text) := by
    rw [imports, importEdits_cut, Edit.applyAll_append, Edit.applyAll_singleton]
    exact otherImport_leaves_none _
  have hkeep : ∀ line, ¬HoldsImport line → imports line = line := fun line hline =>
    Edit.applyAll_absent _ line (importEdits_absent line hline)
  exact ⟨hnone, hkeep _ hnone, fun heq => heq ▸ hnone, hkeep text⟩

end Rules

end JvsSharp
