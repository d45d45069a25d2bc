import JvsSharp.Proofs.CallNames
import JvsSharp.Proofs.Initials

/-!
# Arguments of log calls

The arguments of a log call are joined without regard to where one of them
ends: every comma up to the closing parenthesis becomes a plus sign. Between
two arguments that is the sign to replace. A comma within a quoted text is
replaced as well, and then another text is logged.
-/

set_option autoImplicit false

namespace JvsSharp
open Pattern

inductive LogArgument where
  | name (w : { w : Line // w ≠ [] ∧ IsNameText w })
  | quoted (t : { t : Line // ∀ c ∈ t, c ∉ ['"', '\\', '(', ')'] })

def LogArgument.text : LogArgument → Line
  | .name w => w.1
  | .quoted t => '"' :: (t.1 ++ ['"'])

def logStatement (method separator : String) (arguments : List Line) : Line :=
  "m_INCStandard".toList ++
    (method.toList ++ '(' :: (separator.toList.intercalate arguments ++ ')' :: [';']))

theorem logStatement_eq_iff (method separator : String) (xs ys : List Line) :
    logStatement method separator xs = logStatement method separator ys ↔
      separator.toList.intercalate xs = separator.toList.intercalate ys := by
  unfold logStatement
  rw [List.append_right_inj, List.append_right_inj, List.cons_inj_right, List.append_left_inj]

theorem map_intercalate (f : Char → Char) (separator : Line) (pieces : List Line) :
    (separator.intercalate pieces).map f =
      (separator.map f).intercalate (pieces.map (List.map f)) := by
  induction pieces with
  | nil => rfl
  | cons piece pieces ih =>
    by_cases hnil : pieces = []
    · simp [hnil, List.intercalate]
    · have hmap : pieces.map (List.map f) ≠ [] := by simpa using hnil
      rw [List.intercalate_cons_of_ne_nil hnil, List.map_cons,
        List.intercalate_cons_of_ne_nil hmap, List.map_append, List.map_append, ih]

theorem mem_intercalate_iff (c : Char) (separator : Line) (hc : c ∉ separator)
    (pieces : List Line) : c ∈ separator.intercalate pieces ↔ ∃ piece ∈ pieces, c ∈ piece := by
  induction pieces with
  | nil => simp [List.intercalate]
  | cons piece pieces ih =>
    by_cases hnil : pieces = []
    · simp [hnil, List.intercalate]
    · rw [List.intercalate_cons_of_ne_nil hnil, List.mem_append, List.mem_append, ih]
      simp [hc]

namespace LogArgument

theorem text_plain (a : LogArgument) : ')' ∉ a.text := by
  cases a with
  | name w => exact fun hmem => absurd (w.2.2 ')' hmem) (by decide)
  | quoted t =>
    intro hmem
    have hinside : ')' ∈ t.1 := by simpa [text] using hmem
    exact absurd (t.2 ')' hinside) (by decide)

theorem comma_mem_text_iff (a : LogArgument) :
    ',' ∈ a.text ↔ ∃ t, a = .quoted t ∧ ',' ∈ t.1 := by
  cases a with
  | name w =>
    have hno : ',' ∉ w.1 := fun hmem => absurd (w.2.2 ',' hmem) (by decide)
    simpa [text] using hno
  | quoted t => simp [text]

end LogArgument

namespace Rules

theorem joinArguments_eq_self_iff (arguments : Line) :
    joinArguments arguments = arguments ↔ ',' ∉ arguments := by
  have hpointwise : joinArguments arguments = arguments ↔
      ∀ c ∈ arguments, (if c == ',' then '+' else c) = c := by
    rw [joinArguments]
    nth_rewrite 2 [← List.map_id arguments]
    exact List.map_inj_left
  rw [hpointwise]
  constructor
  · intro h hmem
    exact absurd (h ',' hmem) (by decide)
  · intro h c hc
    have hne : c ≠ ',' := fun heq => h (heq ▸ hc)
    exact if_neg (by simpa using hne)

theorem joinArguments_intercalate (separator : Line) (pieces : List Line) :
    joinArguments (separator.intercalate pieces) =
      (joinArguments separator).intercalate (pieces.map joinArguments) :=
  map_intercalate _ separator pieces

theorem printCall_hit (b : Option Char) (arguments post : Line) (hb : b.any Unicode.isWord = false)
    (harguments : ')' ∉ arguments) :
    ∃ h, printCall.pattern.matchAt
        ⟨b, "m_INCStandard".toList ++ (".Print".toList ++ '(' :: (arguments ++ ')' :: post))⟩ =
          some h ∧
      h.text = "m_INCStandard".toList ++ (".Print".toList ++ '(' :: (arguments ++ [')'])) ∧
      h.group 1 = "m_INCStandard".toList ∧ h.group 2 = arguments := by
  let inner : Line := arguments ++ ')' :: post
  let tail : Line := ".Print".toList ++ '(' :: inner
  let call : Line := "m_INCStandard".toList ++ (".Print".toList ++ '(' :: (arguments ++ [')']))
  refine ⟨⟨b, call, [⟨2, inner, ')' :: post⟩, ⟨1, "m_INCStandard".toList ++ tail, tail⟩], post⟩,
    ?_, rfl, textBetween_left _ tail, textBetween_left arguments (')' :: post)⟩
  have hedge : (⟨b, "m_INCStandard".toList ++ tail⟩ : Place).atEdge = true :=
    Place.atEdge_word b _ tail hb (by decide) (isWordText_of_all _ (by decide))
  have hinside : ∀ c ∈ arguments, (CharClass.except [')']).mem c = true := by
    intro c hc
    have hne : c ≠ ')' := fun heq => harguments (heq ▸ hc)
    simpa [CharClass.mem] using hne
  have hcall : "m_INCStandard".toList ++ tail = call ++ post := by simp [call, tail, inner]
  rw [matchAt, printCall, matchK_all_cons, matchK_edge _ _ _ hedge, matchK_all_cons, matchK, lit,
    matchK_text, matchK_all_cons, lit, matchK_text, matchK_all_cons, gap,
    matchK_span_none .blank _ _ _ _ (stops_cons .blank '(' _ (by decide)), matchK_all_cons]
  refine (matchK_char '(' _ _ _ _).trans ?_
  rw [matchK_all_cons, matchK, argumentList,
    matchK_span (.except [')']) _ arguments _ _ _ hinside (stops_cons _ ')' _ (by decide)),
    matchK_all_cons]
  refine (matchK_char ')' _ _ _ _).trans ?_
  rw [matchK_all_nil, hcall, textBetween_left]

theorem loggerPrint_statement (arguments : List Line) (h : ∀ a ∈ arguments, ')' ∉ a) :
    loggerPrint (logStatement ".Print" ", " arguments) =
      logStatement ".Info" "+ " (arguments.map joinArguments) := by
  let joined : Line := ", ".toList.intercalate arguments
  have hjoined : ')' ∉ joined := by
    rw [mem_intercalate_iff ')' _ (by decide)]
    rintro ⟨a, ha, hmem⟩
    exact h a ha hmem
  obtain ⟨hit, hm, htext, hfirst, hsecond⟩ := printCall_hit none joined [';'] rfl hjoined
  have hline : logStatement ".Print" ", " arguments = hit.text ++ [';'] := by
    rw [htext, List.append_assoc, List.append_assoc, List.cons_append, List.append_assoc]
    rfl
  have hne : hit.text ≠ [] := by
    rw [htext]
    exact List.append_ne_nil_of_left_ne_nil (by decide) _
  have hlast : behind none hit.text = some ')' := by
    rw [htext, ← List.cons_append, ← List.append_assoc, ← List.append_assoc]
    exact behind_concat none _ ')'
  have hpost : Quiet printCall.pattern (some ')') [';'] [] := ⟨by decide +kernel, trivial⟩
  have hplace : printCall.pattern.matchAt ⟨none, hit.text ++ [';']⟩ = some hit := by
    rw [← hline]
    exact hm
  have happly := printCall.apply_start hit.text [';'] hit hplace rfl hne (hlast ▸ hpost)
  have hrender : printCall.render hit =
      "m_INCStandard".toList ++ (".Info(".toList ++ (joinArguments joined ++ [')'])) := by
    simp only [Edit.render, printCall, List.flatMap_cons, List.flatMap_nil, Part.render, hfirst,
      hsecond]
    rfl
  rw [hline, loggerPrint, happly, hrender, joinArguments_intercalate, List.append_assoc,
    List.append_assoc, List.append_assoc]
  rfl

/-- The arguments are joined by plus signs, and every comma within one of them becomes a plus sign
too. So they are logged as they stand if and only if no quoted text holds a comma. -/
theorem log_arguments_kept_iff (arguments : List LogArgument) :
    let joined := loggerPrint (logStatement ".Print" ", " (arguments.map LogArgument.text))
    joined = logStatement ".Info" "+ " (arguments.map fun a => joinArguments a.text) ∧
      (joined = logStatement ".Info" "+ " (arguments.map LogArgument.text) ↔
        ∀ t, .quoted t ∈ arguments → ',' ∉ t.1) := by
  intro joined
  have hjoined : joined =
      logStatement ".Info" "+ " (arguments.map fun a => joinArguments a.text) := by
    refine (loggerPrint_statement _ ?_).trans (by rw [List.map_map]; rfl)
    rintro text htext
    obtain ⟨a, -, rfl⟩ := List.mem_map.1 htext
    exact a.text_plain
  refine ⟨hjoined, ?_⟩
  let written : Line := "+ ".toList.intercalate (arguments.map LogArgument.text)
  have hwritten : "+ ".toList.intercalate (arguments.map fun a => joinArguments a.text) =
      joinArguments written := by
    rw [joinArguments_intercalate, List.map_map]
    rfl
  -- The separators that are written hold no comma, so one must come from a quoted text.
  have hcomma : ',' ∈ written ↔ ∃ t, .quoted t ∈ arguments ∧ ',' ∈ t.1 := by
    rw [mem_intercalate_iff ',' _ (by decide)]
    constructor
    · rintro ⟨text, htext, hmem⟩
      obtain ⟨a, ha, rfl⟩ := List.mem_map.1 htext
      obtain ⟨t, rfl, ht⟩ := a.comma_mem_text_iff.1 hmem
      exact ⟨t, ha, ht⟩
    · rintro ⟨t, ha, ht⟩
      exact ⟨_, List.mem_map_of_mem ha, (LogArgument.comma_mem_text_iff _).2 ⟨t, rfl, ht⟩⟩
  calc joined = logStatement ".Info" "+ " (arguments.map LogArgument.text)
      ↔ joinArguments written = written := by
        rw [hjoined, logStatement_eq_iff, hwritten]
    _ ↔ ',' ∉ written := joinArguments_eq_self_iff written
    _ ↔ ∀ t, .quoted t ∈ arguments → ',' ∉ t.1 := by
        rw [hcomma]
        simp only [not_exists, not_and]

/-- A comma of the logged text itself is lost. -/
theorem comma_in_text_replaced :
    let rows : LogArgument := .quoted ⟨"loaded, rows: ".toList, by decide⟩
    let count : LogArgument := .name ⟨"count".toList, by decide, by unfold IsNameText; decide⟩
    let texts := [rows.text, count.text]
    loggerPrint (logStatement ".Print" ", " texts) =
        "m_INCStandard.Info(\"loaded+ rows: \"+ count);".toList ∧
      logStatement ".Info" "+ " texts =
        "m_INCStandard.Info(\"loaded, rows: \"+ count);".toList ∧
      loggerPrint (logStatement ".Print" ", " texts) ≠ logStatement ".Info" "+ " texts := by
  decide +kernel

end Rules

end JvsSharp
