import JvsSharp.Proofs.KeywordParts

/-!
# Separators of bases, run by run

The words `extends` and `implements` are replaced where they are runs of their
own, and the second one becomes a comma if the line extends a class as well.
For that choice the two words are looked for anywhere in the line. So the
choice goes by the runs if and only if no line with `implements` holds the
other word as a part of longer runs only.
-/

set_option autoImplicit false

namespace JvsSharp
open Pattern

theorem flatMap_eq_iff {α β : Type} (f g : α → List β) (xs : List α)
    (hlength : ∀ x ∈ xs, (f x).length = (g x).length) :
    xs.flatMap f = xs.flatMap g ↔ ∀ x ∈ xs, f x = g x := by
  induction xs with
  | nil => simp
  | cons x xs ih =>
    have hrest := ih fun y hy => hlength y (by simp [hy])
    rw [List.flatMap_cons, List.flatMap_cons, List.forall_mem_cons, ← hrest]
    constructor
    · exact fun heq => List.append_inj heq (hlength x (by simp))
    · rintro ⟨hx, hxs⟩
      rw [hx, hxs]

theorem infix_of_mem_runsOf (run line : Line) (h : run ∈ runsOf line) : run <:+: line := by
  obtain ⟨before, after, hcut⟩ := List.append_of_mem h
  refine ⟨before.flatten, after.flatten, ?_⟩
  have hline : (runsOf line).flatten = line := List.flatten_splitBy sameSide line
  rw [hcut, List.flatten_append, List.flatten_cons] at hline
  rw [← hline, List.append_assoc]

theorem occursIn_lit_iff (s : String) (line : Line) :
    (lit s).occursIn line = true ↔ s.toList <:+: line := by
  rw [occursIn_iff]
  constructor
  · rintro ⟨pre, rest, rfl, hsome⟩
    obtain ⟨r, hr⟩ := (matchAt_isSome_iff _ _).1 hsome
    exact infix_of_leads pre rest _ _ r.1 (mem_ends_text _ _ _ r hr)
  · rintro ⟨pre, rest, rfl⟩
    refine ⟨pre, s.toList ++ rest, List.append_assoc _ _ _, ?_⟩
    rw [matchAt, lit, matchK_text]
    rfl

namespace Rules

def separatorIf (both : Prop) [Decidable both] : Line := if both then [','] else [':']

def baseRun (separator run : Line) : Line :=
  if run = "extends".toList then [':']
  else if run = "implements".toList then separator
  else run

theorem implementsSeparator_eq (line : Line) : implementsSeparator line =
    separatorIf ("extends".toList <:+: line ∧ "implements".toList <:+: line) := by
  rw [implementsSeparator, separatorIf]
  simp only [Bool.and_eq_true, occursIn_lit_iff]

theorem length_separatorIf (both : Prop) [Decidable both] : (separatorIf both).length = 1 := by
  rw [separatorIf]
  split
  · rfl
  · rfl

theorem separatorIf_eq_iff (p q : Prop) [Decidable p] [Decidable q] :
    separatorIf p = separatorIf q ↔ (p ↔ q) := by
  rw [separatorIf, separatorIf]
  by_cases hp : p
  · by_cases hq : q
    · simp [hp, hq]
    · simp [hp, hq]
  · by_cases hq : q
    · simp [hp, hq]
    · simp [hp, hq]

theorem wholeWord_apply (w : String) (sign : Line) (hw : AreWords [w.toList]) (line : Line) :
    (⟨wholeWord w, [.text sign]⟩ : Edit).apply line =
      mapWords (fun v => if v = w.toList then sign else v) line := by
  have hrender : ∀ c h, (wholeWord w).matchAt c = some h →
      (⟨wholeWord w, [.text sign]⟩ : Edit).render h = sign := fun _ _ _ => List.append_nil _
  refine (replaceAll_words (chooses_text w.toList) hw _ (fun _ => sign) hrender line).trans ?_
  simp only [List.mem_singleton]

theorem inheritance_eq (line : Line) :
    inheritance line = mapWords (baseRun (implementsSeparator line)) line := by
  let separator := implementsSeparator line
  have hfirst := wholeWord_apply "extends" [':'] (areWords_of_all _ (by decide)) line
  have hsecond := wholeWord_apply "implements" separator (areWords_of_all _ (by decide))
  change (⟨wholeWord "implements", [.text separator]⟩ : Edit).apply
    ((⟨wholeWord "extends", [.text [':']]⟩ : Edit).apply line) = _
  rw [hsecond, hfirst]
  refine mapWords_mapWords _ _ _ (fun w rest hne hword hr => ?_) line
  by_cases hextends : w = "extends".toList
  · rw [if_pos hextends, baseRun, if_pos hextends]
    exact mapWords_other _ ':' rest (by decide)
  · rw [if_neg hextends, baseRun, if_neg hextends, mapWords_run _ w rest hword hr, flush,
      if_neg hne]

theorem baseRun_other (separator run : Line) (h : ∀ c ∈ run, Unicode.isWord c = false) :
    baseRun separator run = run := by
  have hwords : ∀ w ∈ ["extends".toList, "implements".toList], w.any Unicode.isWord = true := by
    decide
  have hne : ∀ w ∈ ["extends".toList, "implements".toList], run ≠ w := by
    rintro w hw rfl
    obtain ⟨c, hc, hword⟩ := List.any_eq_true.1 (hwords run hw)
    exact Bool.false_ne_true ((h c hc).symm.trans hword)
  rw [baseRun, if_neg (hne _ (by simp)), if_neg (hne _ (by simp))]

theorem length_baseRun (p q : Prop) [Decidable p] [Decidable q] (run : Line) :
    (baseRun (separatorIf p) run).length = (baseRun (separatorIf q) run).length := by
  rw [baseRun, baseRun]
  split
  · rfl
  · split
    · rw [length_separatorIf, length_separatorIf]
    · rfl

/-- The two separators are the same, or they are written for no run. -/
theorem baseRuns_eq_iff (p q : Prop) [Decidable p] [Decidable q] (runs : List Line) :
    runs.flatMap (baseRun (separatorIf p)) = runs.flatMap (baseRun (separatorIf q)) ↔
      ("implements".toList ∈ runs → (p ↔ q)) := by
  have himplements : ∀ separator, baseRun separator "implements".toList = separator := fun _ => rfl
  rw [flatMap_eq_iff _ _ _ fun run _ => length_baseRun p q run]
  constructor
  · intro h hmem
    have hsame := h _ hmem
    rwa [himplements, himplements, separatorIf_eq_iff] at hsame
  · intro h run hrun
    by_cases heq : run = "implements".toList
    · rw [heq, himplements, himplements, separatorIf_eq_iff]
      exact h (heq ▸ hrun)
    · rw [baseRun, baseRun, if_neg heq, if_neg heq]

/-- Every run that is a word of inheritance is replaced, with a separator that is chosen by the
text of the line. The choice goes by the runs of the line if and only if the line does not hold
`implements` as a run and `extends` as a part of longer runs only. -/
theorem inheritance_run_by_run_iff (line : Line) :
    let extending := "extends".toList
    let implementing := "implements".toList
    inheritance line = (runsOf line).flatMap
        (baseRun (separatorIf (extending <:+: line ∧ implementing <:+: line))) ∧
      (inheritance line = (runsOf line).flatMap
          (baseRun (separatorIf (extending ∈ runsOf line ∧ implementing ∈ runsOf line))) ↔
        ¬(implementing ∈ runsOf line ∧ extending <:+: line ∧ extending ∉ runsOf line)) := by
  intro extending implementing
  have hruns : inheritance line = (runsOf line).flatMap
      (baseRun (separatorIf (extending <:+: line ∧ implementing <:+: line))) := by
    rw [inheritance_eq, mapWords_eq_flatMap_runsOf _ (baseRun_other _), implementsSeparator_eq]
  refine ⟨hruns, ?_⟩
  have hextends : extending ∈ runsOf line → extending <:+: line := infix_of_mem_runsOf _ line
  have himplements : implementing ∈ runsOf line → implementing <:+: line :=
    infix_of_mem_runsOf _ line
  rw [hruns, baseRuns_eq_iff]
  constructor
  · rintro h ⟨hmem, hpart, hnot⟩
    exact hnot ((h hmem).1 ⟨hpart, himplements hmem⟩).1
  · intro h hmem
    have hwhole : extending <:+: line → extending ∈ runsOf line := fun hpart => by
      by_contra hnot
      exact h ⟨hmem, hpart, hnot⟩
    exact ⟨fun hboth => ⟨hwhole hboth.1, hmem⟩, fun hboth => ⟨hextends hboth.1, himplements hmem⟩⟩

/-- A name that opens with `extends` makes a comma of a lone `implements`. -/
theorem part_of_name_chooses_comma :
    let line := "class Dog implements Pet \x7b boolean extendsPet;".toList
    let extending := "extends".toList
    let implementing := "implements".toList
    inheritance line = "class Dog , Pet \x7b boolean extendsPet;".toList ∧
      (runsOf line).flatMap
          (baseRun (separatorIf (extending ∈ runsOf line ∧ implementing ∈ runsOf line))) =
        "class Dog : Pet \x7b boolean extendsPet;".toList ∧
      "class Dog , Pet \x7b boolean extendsPet;" ≠ "class Dog : Pet \x7b boolean extendsPet;" := by
  decide

end Rules

end JvsSharp
