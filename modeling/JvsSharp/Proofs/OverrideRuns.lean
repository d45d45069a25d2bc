import JvsSharp.Proofs.BareCalls
import JvsSharp.Proofs.RenamingPasses

/-!
# The override tracker over a file

What a line leaves to the next one is decided by its own text: whether a
marker stands in it. So the tracker is known at every line of a file from that
line and the one before it. A marker line loses its markers with the white
space behind them, the header of a method below a marker line is given the
keyword, and any other line stays.
-/

set_option autoImplicit false

namespace JvsSharp
open Pattern

abbrev Spaces := { g : Line // g ≠ [] ∧ ∀ c ∈ g, Unicode.isBlank c = true }

def markerText (gap : Blanks) : Line := '@' :: (gap.1 ++ "Override".toList)

def HoldsMarker (line : Line) : Prop :=
  ∃ (pre : Line) (gap : Blanks) (rest : Line), line = pre ++ (markerText gap ++ rest)

inductive Stripped : Line → Line → Prop
  | none {line : Line} : ¬HoldsMarker line → Stripped line line
  | cut {pre : Line} (gap after : Blanks) {rest rest' : Line} : ¬HoldsMarker pre →
      Stops .blank rest → Stripped rest rest' →
      Stripped (pre ++ (markerText gap ++ (after.1 ++ rest))) (pre ++ rest')

structure VoidHeader where
  indent : Blanks
  first : Spaces
  second : Spaces
  name : Word
  gap : Blanks
  rest : Line

namespace VoidHeader

def keywords (v : VoidHeader) : Line :=
  "public".toList ++ (v.first.1 ++ ("void".toList ++ (v.second.1 ++
    (v.name.1 ++ (v.gap.1 ++ '(' :: v.rest)))))

def text (v : VoidHeader) : Line := v.indent.1 ++ v.keywords

def overriding (v : VoidHeader) : Line :=
  v.indent.1 ++ ("public override void ".toList ++ (v.name.1 ++ '(' :: v.rest))

end VoidHeader

theorem sign_not_mem_marker (gap : Blanks) : '@' ∉ gap.1 ++ "Override".toList := by
  rw [List.mem_append, not_or]
  exact ⟨fun hmem => absurd (gap.2 '@' hmem) (by decide), by decide⟩

/-- A marker that begins in a text before another marker ends in that text. -/
theorem holdsMarker_of_begins (gap gap' : Blanks) (xs rest rest' : Line) (hne : xs ≠ [])
    (h : xs ++ (markerText gap' ++ rest') = markerText gap ++ rest) : HoldsMarker xs := by
  rcases List.append_eq_append_iff.1 h with ⟨ys, hxs, hys⟩ | ⟨ys, hxs, -⟩
  · cases ys with
    | nil => exact ⟨[], gap, [], by rw [List.append_nil] at hxs; simp [hxs]⟩
    | cons y ys =>
      -- The sign of the second marker would stand within the first.
      rw [markerText, List.cons_append, List.cons_append, List.cons.injEq] at hys
      cases xs with
      | nil => exact absurd rfl hne
      | cons x xs =>
        rw [markerText, List.cons_append, List.cons.injEq] at hxs
        refine absurd ?_ (sign_not_mem_marker gap)
        rw [hxs.2, hys.1]
        simp
  · exact ⟨[], gap, ys, hxs⟩

theorem mem_ends_gap (c : Place) (m : List Mark) (r : Place × List Mark)
    (h : r ∈ gap.ends c m) : ∃ g : Blanks, c.rest = g.1 ++ r.1.rest := by
  rw [gap, ends, List.mem_singleton] at h
  obtain ⟨xs, hxs, hblank⟩ := skipWhile_passes .blank c.before c.rest
  subst h
  exact ⟨⟨xs, hblank⟩, hxs.1⟩

theorem mem_ends_name (k : CharClass) (hk : k.inWord = true) (c : Place) (m : List Mark)
    (r : Place × List Mark) (h : r ∈ (all [.one k, .span .word]).ends c m) :
    ∃ name, c.Leads name r.1 ∧ name.head?.any k.mem = true ∧ IsWordText name := by
  simp only [mem_ends_all_cons] at h
  obtain ⟨s, hs, t, ht, hr⟩ := h
  obtain ⟨d, rest, hrest, hd, rfl⟩ := mem_ends_one k c m s hs
  rw [ends, List.mem_singleton] at ht
  obtain ⟨more, hmore, hword⟩ := skipWhile_passes .word (some d) rest
  have hfirst : c.Leads [d] ⟨some d, rest⟩ := ⟨hrest, rfl⟩
  have hname : IsWordText (d :: more) :=
    List.forall_mem_cons.2 ⟨CharClass.isWord_of_inWord k hk d hd, hword⟩
  rw [List.mem_singleton.1 hr, ht]
  exact ⟨d :: more, hfirst.trans hmore, hd, hname⟩

namespace Rules

theorem marker_ends (ps : List Pattern) (c : Place) (m : List Mark) (r : Place × List Mark)
    (h : r ∈ (all ("@" :: gap :: "Override" :: ps)).ends c m) :
    ∃ (gap : Blanks) (s : Place × List Mark), c.rest = markerText gap ++ s.1.rest ∧
      r ∈ (all ps).ends s.1 s.2 := by
  rw [mem_ends_all_cons] at h
  obtain ⟨a, ha, h⟩ := h
  rw [mem_ends_all_cons] at h
  obtain ⟨d, hd, h⟩ := h
  rw [mem_ends_all_cons] at h
  obtain ⟨s, hs, h⟩ := h
  obtain ⟨gap, hgap⟩ := mem_ends_gap a.1 a.2 d hd
  refine ⟨gap, s, ?_, h⟩
  rw [(mem_ends_text _ _ _ _ ha).1, hgap, (mem_ends_text _ _ _ _ hs).1]
  simp [markerText]

theorem matchK_marker {α : Type} (ps : List Pattern) (b : Option Char) (gap : Blanks) (rest : Line)
    (m : List Mark) (f : Place → List Mark → Option α) :
    (all ("@" :: Pattern.gap :: "Override" :: ps)).matchK ⟨b, markerText gap ++ rest⟩ m f =
      (all ps).matchK ⟨some 'e', rest⟩ m f := by
  have hstops : Stops .blank ("Override".toList ++ rest) := by
    rw [show "Override".toList = 'O' :: "verride".toList by decide]
    exact stops_cons .blank 'O' _ (by decide)
  have hbehind : ∀ b, behind b "Override".toList = some 'e' := fun _ => rfl
  rw [markerText, List.cons_append, List.append_assoc, matchK_all_cons]
  refine (matchK_char '@' _ _ _ _).trans ?_
  rw [matchK_all_cons]
  refine (matchK_span .blank _ gap.1 _ _ _ gap.2 hstops).trans ?_
  rw [matchK_all_cons, lit, matchK_text, hbehind]

theorem markerRemoval_matchAt (b : Option Char) (gap after : Blanks) (rest : Line)
    (hrest : Stops .blank rest) :
    markerRemoval.pattern.matchAt ⟨b, markerText gap ++ (after.1 ++ rest)⟩ =
      some ⟨b, markerText gap ++ after.1, [], rest⟩ := by
  have htext : textBetween (markerText gap ++ (after.1 ++ rest)) rest =
      markerText gap ++ after.1 := by
    rw [← List.append_assoc, textBetween_left]
  rw [matchAt, markerRemoval, matchK_marker, matchK_all_cons]
  refine (matchK_span .blank _ after.1 rest _ _ after.2 hrest).trans ?_
  rw [matchK_all_nil, htext]

theorem occursIn_overrideMarker_iff (line : Line) :
    overrideMarker.occursIn line = true ↔ HoldsMarker line := by
  rw [occursIn_iff]
  constructor
  · rintro ⟨pre, rest, hline, hsome⟩
    obtain ⟨r, hr⟩ := (matchAt_isSome_iff _ _).1 hsome
    obtain ⟨gap, s, hrest, -⟩ := marker_ends [] _ _ r hr
    exact ⟨pre, gap, s.1.rest, by rw [hline, ← hrest]⟩
  · rintro ⟨pre, gap, rest, hline⟩
    refine ⟨pre, _, hline, ?_⟩
    rw [matchAt, overrideMarker, matchK_marker]
    rfl

theorem markerRemoval_none (b : Option Char) (line : Line)
    (h : ∀ gap rest, line ≠ markerText gap ++ rest) :
    markerRemoval.pattern.matchAt ⟨b, line⟩ = none := by
  refine matchAt_eq_none _ _ fun r hr => ?_
  obtain ⟨gap, s, hrest, -⟩ := marker_ends [Pattern.gap] _ _ r hr
  exact h gap _ hrest

theorem markerRemoval_quiet (b : Option Char) (xs rest : Line)
    (h : ∀ ys gap rest', ys ≠ [] → ys <:+ xs → ys ++ rest ≠ markerText gap ++ rest') :
    Quiet markerRemoval.pattern b xs rest := by
  induction xs generalizing b with
  | nil => trivial
  | cons c xs ih =>
    constructor
    · exact markerRemoval_none b _ fun gap rest' =>
        h (c :: xs) gap rest' (by simp) (List.suffix_refl _)
    · exact ih (some c) fun ys gap rest' hne hys =>
        h ys gap rest' hne (hys.trans (List.suffix_cons c xs))

theorem holdsMarker_of_suffix {xs ys : Line} (h : ys <:+ xs) (hys : HoldsMarker ys) :
    HoldsMarker xs := by
  obtain ⟨zs, rfl⟩ := h
  obtain ⟨pre, gap, rest, rfl⟩ := hys
  exact ⟨zs ++ pre, gap, rest, (List.append_assoc ..).symm⟩

theorem markerRemoval_of_stripped (line out : Line) (h : Stripped line out) (b : Option Char) :
    markerRemoval.pattern.replaceFrom markerRemoval.render b line = out := by
  induction h generalizing b with
  | none hnone =>
    refine replaceFrom_all_quiet _ _ b _ (markerRemoval_quiet b _ [] ?_)
    intro ys gap rest' _ hys heq
    rw [List.append_nil] at heq
    exact hnone (holdsMarker_of_suffix hys ⟨[], gap, rest', heq⟩)
  | @cut pre gap after rest rest' hpre hrest _ ih =>
    have hquiet : Quiet markerRemoval.pattern b pre (markerText gap ++ (after.1 ++ rest)) := by
      refine markerRemoval_quiet b pre _ fun ys gap' last hne hys heq => ?_
      exact hpre (holdsMarker_of_suffix hys (holdsMarker_of_begins gap' gap ys last _ hne heq))
    have hne : markerText gap ++ after.1 ≠ [] := by simp [markerText]
    have hhit := replaceFrom_hit markerRemoval.pattern markerRemoval.render (behind b pre)
      (markerText gap ++ after.1) rest _
      (by rw [List.append_assoc]; exact markerRemoval_matchAt _ gap after rest hrest) rfl hne
    rw [replaceFrom_quiet _ _ b pre _ hquiet, ← List.append_assoc (markerText gap), hhit, ih]
    simp [Edit.render, markerRemoval]

theorem markerRemoval_begins (b : Option Char) (gap : Blanks) (rest : Line) :
    ∃ (after : Blanks) (last : Line), rest = after.1 ++ last ∧ Stops .blank last ∧
      markerRemoval.pattern.matchAt ⟨b, markerText gap ++ rest⟩ =
        some ⟨b, markerText gap ++ after.1, [], last⟩ := by
  let after : Blanks := ⟨rest.takeWhile Unicode.isBlank, List.all_eq_true.1 List.all_takeWhile⟩
  have hcut : rest = after.1 ++ rest.dropWhile Unicode.isBlank :=
    List.takeWhile_append_dropWhile.symm
  have hstops : Stops .blank (rest.dropWhile Unicode.isBlank) := stops_dropWhile .blank rest
  refine ⟨after, _, hcut, hstops, ?_⟩
  rw [← markerRemoval_matchAt b gap after _ hstops, ← hcut]

/-- What the removal makes of a line is the line stripped of its markers. -/
theorem stripped_markerRemoval (line : Line) : Stripped line (markerRemoval.apply line) := by
  have hempty : ¬HoldsMarker [] := by
    rintro ⟨pre, gap, rest, hnil⟩
    simp [markerText] at hnil
  have hreplaced := markerRemoval.replaced (by decide) line
  generalize markerRemoval.apply line = line' at hreplaced
  generalize (none : Option Char) = b at hreplaced
  induction hreplaced with
  | nil b => exact .none hempty
  | @keep b c rest rest' hm _ ih =>
    have hcons : ∀ xs last, rest = xs ++ last → ¬HoldsMarker xs → ¬HoldsMarker (c :: xs) := by
      rintro xs last hrest hnone ⟨pre, gap, more, heq⟩
      cases pre with
      | nil =>
        obtain ⟨after, _, -, -, hmatch⟩ := markerRemoval_begins b gap (more ++ last)
        rw [← List.append_assoc, ← List.nil_append (markerText gap ++ more), ← heq,
          List.cons_append, ← hrest, hm] at hmatch
        exact absurd hmatch (by simp)
      | cons d pre =>
        rw [List.cons_append, List.cons.injEq] at heq
        exact hnone ⟨pre, gap, more, heq.2⟩
    cases ih with
    | none hnone => exact .none (hcons rest [] (List.append_nil rest).symm hnone)
    | cut gap after hpre hstops hrest => exact .cut gap after (hcons _ _ rfl hpre) hstops hrest
  | @hit b h rest' hm _ ih =>
    obtain ⟨r, hr⟩ := (matchAt_isSome_iff _ _).1 (Option.isSome_iff_exists.2 ⟨h, hm⟩)
    obtain ⟨gap, s, hrest, -⟩ := marker_ends [Pattern.gap] _ _ r hr
    obtain ⟨after, last, -, hstops, hmatch⟩ := markerRemoval_begins b gap s.1.rest
    have hh : h = ⟨b, markerText gap ++ after.1, [], last⟩ := by
      rw [← hrest] at hmatch
      exact Option.some.inj (hm.symm.trans hmatch)
    subst hh
    rw [List.append_assoc]
    exact .cut gap after hempty hstops ih

theorem overridable_matchAt (v : VoidHeader) :
    overridable.pattern.matchAt ⟨none, v.text⟩ =
      some ⟨none, textBetween v.text v.rest,
        [⟨2, v.name.1 ++ (v.gap.1 ++ '(' :: v.rest), v.gap.1 ++ '(' :: v.rest⟩,
          ⟨1, v.text, v.keywords⟩], v.rest⟩ := by
  have hvoid : Stops .blank ("void".toList ++ (v.second.1 ++ (v.name.1 ++
      (v.gap.1 ++ '(' :: v.rest)))) := stops_cons .blank 'v' _ (by decide)
  have hname : Stops .blank (v.name.1 ++ (v.gap.1 ++ '(' :: v.rest)) :=
    ContainerShape.stops_blank_word v.name.1 _ v.name.2.1 v.name.2.2
  have hgap : Stops .word (v.gap.1 ++ '(' :: v.rest) :=
    TypeExpr.endsWord_blanks v.gap _ (endsWord_cons '(' v.rest (by decide))
  have hopen : Stops .blank ('(' :: v.rest) := stops_cons .blank '(' v.rest (by decide)
  rw [matchAt, overridable, matchK_all_cons, matchK, Option.isNone_none, if_pos rfl,
    matchK_all_cons, matchK]
  refine (matchK_span .blank _ v.indent.1 v.keywords _ _ v.indent.2
    (stops_cons .blank 'p' _ (by decide))).trans ?_
  delta VoidHeader.keywords
  rw [matchK_all_cons, lit, matchK_text, matchK_all_cons]
  refine (matchK_chars .blank _ v.first.1 _ _ _ v.first.2.1 v.first.2.2 hvoid).trans ?_
  rw [matchK_all_cons, lit, matchK_text, matchK_all_cons]
  refine (matchK_chars .blank _ v.second.1 _ _ _ v.second.2.1 v.second.2.2 hname).trans ?_
  rw [matchK_all_cons, matchK]
  refine (matchK_chars .word _ v.name.1 _ _ _ v.name.2.1 v.name.2.2 hgap).trans ?_
  rw [matchK_all_cons]
  refine (matchK_span .blank _ v.gap.1 _ _ _ v.gap.2 hopen).trans ?_
  rw [matchK_all_cons]
  refine (matchK_char '(' _ v.rest _ _).trans ?_
  rw [matchK_all_nil]

theorem overridable_header (v : VoidHeader) :
    overridable.pattern.replaceFirst overridable.render v.text = v.overriding := by
  have hsearch := searchFrom_quiet overridable.pattern none [] v.text _ trivial
    (overridable_matchAt v)
  have hname : textBetween (v.name.1 ++ (v.gap.1 ++ '(' :: v.rest)) (v.gap.1 ++ '(' :: v.rest) =
      v.name.1 := textBetween_left _ _
  have hindent : textBetween v.text v.keywords = v.indent.1 := textBetween_left _ _
  rw [replaceFirst, search, ← List.nil_append v.text, hsearch]
  simp [Edit.render, overridable, Part.render, Hit.group, Mark.text, hname, hindent,
    VoidHeader.overriding]

/-- Nothing but the header of a method is found. -/
theorem overridable_absent (line : Line) (h : ∀ v : VoidHeader, line ≠ v.text) :
    overridable.pattern.Absent line := by
  refine absent_of_forall _ line fun pre rest hline => matchAt_eq_none _ _ fun r hr => ?_
  simp only [overridable, mem_ends_all_cons] at hr
  obtain ⟨a, ha, b, hb, d, hd, e, he, f, hf, i, hi, j, hj, k, hk, l, hl, -⟩ := hr
  obtain ⟨hstart, rfl⟩ := mem_ends_start _ _ a ha
  have hpre : pre = [] := by
    rcases List.eq_nil_or_concat pre with rfl | ⟨pre, c, rfl⟩
    · rfl
    · rw [List.concat_eq_append, behind_concat] at hstart
      exact absurd hstart (by simp)
  rw [ends, List.mem_map] at hb hj
  obtain ⟨b, hb, rfl⟩ := hb
  obtain ⟨j, hj, rfl⟩ := hj
  obtain ⟨indent, hindent⟩ := mem_ends_gap _ _ b hb
  obtain ⟨first, hfirst, hfirstNe, hfirstBlank⟩ := mem_ends_space _ _ e he
  obtain ⟨second, hsecond, hsecondNe, hsecondBlank⟩ := mem_ends_space _ _ i hi
  obtain ⟨name, hnameNe, hnameWord, hname, -⟩ := mem_ends_chars .word _ _ j hj
  obtain ⟨gap, hgap⟩ := mem_ends_gap _ _ k hk
  have hpublic := mem_ends_text _ _ _ d hd
  have hvoid := mem_ends_text _ _ _ f hf
  have hopen := mem_ends_text _ _ _ l hl
  refine h ⟨indent, ⟨first, hfirstNe, hfirstBlank⟩, ⟨second, hsecondNe, hsecondBlank⟩,
    ⟨name, hnameNe, hnameWord⟩, gap, l.1.rest⟩ ?_
  rw [hline, hpre, List.nil_append]
  refine hindent.trans ?_
  rw [hpublic.1, hfirst.1, hvoid.1, hsecond.1, hname.1, hgap, hopen.1]
  rfl

end Rules

structure Tracked (previous : Option Line) (line : Line) (s : Progress) : Prop where
  state : s.state = .pending ↔ HoldsMarker line
  stripped : HoldsMarker line → ∀ out, Stripped line out ↔ out = s.line
  header : ¬HoldsMarker line → (∃ p ∈ previous, HoldsMarker p) →
    ∀ v : VoidHeader, line = v.text → s.line = v.overriding
  kept : ¬HoldsMarker line → (∀ p ∈ previous, ¬HoldsMarker p) ∨ (∀ v : VoidHeader, line ≠ v.text) →
    s.line = line

namespace Tracked

/-- The state in which a line is read tells whether there is a marker in the line before it. -/
theorem step (previous : Option Line) (line : Line) (state : OverrideState)
    (h : state = .pending ↔ ∃ p ∈ previous, HoldsMarker p) :
    Tracked previous line (Rules.trackOverride ⟨line, state⟩) := by
  by_cases hmarker : HoldsMarker line
  · have htrack : Rules.trackOverride ⟨line, state⟩ = ⟨Rules.markerRemoval.apply line, .pending⟩ :=
      if_pos ((Rules.occursIn_overrideMarker_iff line).2 hmarker)
    rw [htrack]
    refine ⟨iff_of_true rfl hmarker, fun _ out => ⟨fun hout => ?_, fun hout => ?_⟩,
      absurd hmarker, absurd hmarker⟩
    · exact (Rules.markerRemoval_of_stripped line out hout none).symm.trans
        (replaceAll_eq _ _ line).symm
    · exact hout ▸ Rules.stripped_markerRemoval line
  · have hnone : ¬Rules.overrideMarker.occursIn line = true := fun hoccurs =>
      hmarker ((Rules.occursIn_overrideMarker_iff line).1 hoccurs)
    cases state with
    | pending =>
      have htrack : Rules.trackOverride ⟨line, .pending⟩ =
          ⟨Rules.overridable.pattern.replaceFirst Rules.overridable.render line, .idle⟩ :=
        if_neg hnone
      rw [htrack]
      refine ⟨iff_of_false (by simp) hmarker, fun hm => absurd hm hmarker, fun _ _ v hv => ?_,
        fun _ hother => ?_⟩
      · rw [hv, Rules.overridable_header]
      · obtain ⟨p, hp, hpmarker⟩ := h.1 rfl
        have hheader := hother.resolve_left fun hplain => hplain p hp hpmarker
        exact replaceFirst_absent _ _ line (Rules.overridable_absent line hheader)
    | idle =>
      have htrack : Rules.trackOverride ⟨line, .idle⟩ = ⟨line, .idle⟩ := if_neg hnone
      rw [htrack]
      exact ⟨iff_of_false (by simp) hmarker, fun hm => absurd hm hmarker,
        fun _ hp => absurd (h.2 hp) (by simp), fun _ _ => rfl⟩

theorem run (index : Index) (before : List Line) (line : Line) (after : List Line)
    (previous : Option Line) (state : OverrideState)
    (h : state = .pending ↔ ∃ p ∈ previous, HoldsMarker p) :
    ∃ s, (convertLines [.override] index state (before ++ line :: after))[before.length]? = some s ∧
      Tracked (before.getLast?.or previous) line s := by
  induction before generalizing previous state with
  | nil => exact ⟨_, rfl, step previous line state h⟩
  | cons first before ih =>
    have hfirst := step previous first state h
    have hstate : (Rules.trackOverride ⟨first, state⟩).state = .pending ↔
        ∃ p ∈ some first, HoldsMarker p := by simpa using hfirst.state
    obtain ⟨s, hs, htracked⟩ := ih (some first) _ hstate
    refine ⟨s, hs, ?_⟩
    rw [List.getLast?_cons]
    cases hlast : before.getLast? with
    | none => simpa [hlast] using htracked
    | some last => simpa [hlast] using htracked

end Tracked

theorem length_convertLines (rules : List Rule) (index : Index) (state : OverrideState)
    (lines : List Line) : (convertLines rules index state lines).length = lines.length := by
  induction lines generalizing state with
  | nil => rfl
  | cons line lines ih => exact congrArg (· + 1) (ih _)

/-- Every line of a file is tracked by its own text and the line before it alone. -/
theorem override_tracked_at_every_line (index : Index) (before : List Line) (line : Line)
    (after : List Line) :
    (convertLines [.override] index .idle (before ++ line :: after)).length =
        (before ++ line :: after).length ∧
      ∃ s, (convertLines [.override] index .idle (before ++ line :: after))[before.length]? =
          some s ∧ Tracked before.getLast? line s := by
  have hidle : OverrideState.idle = .pending ↔ ∃ p ∈ (none : Option Line), HoldsMarker p := by simp
  have hrun := Tracked.run index before line after none .idle hidle
  rw [Option.or_none] at hrun
  exact ⟨length_convertLines _ _ _ _, hrun⟩

example :
    (convertLines [.override] (Index.build []) .idle
      (["@Override @ Override", " public  void run (int n)", "public void stop()"].map
        String.toList)).map Progress.line =
      ["", " public override void run(int n)", "public void stop()"].map String.toList := by
  decide

end JvsSharp
