import JvsSharp.Proofs.RenamingPasses

/-!
# Containers with empty brackets

An empty container is found by going through a line once: behind its name
blanks may follow, then the opening bracket, blanks again and the closing
bracket. Renaming a container with arguments never makes an empty one, since
what stands right behind the opening bracket is kept.
-/

set_option autoImplicit false

namespace JvsSharp

inductive Stage where
  | idle
  | named
  | opened
  | found
  deriving DecidableEq, Repr

namespace Stage

section
variable (name : Line)

def next (w : Line) (c : Char) : Stage → Stage
  | found => found
  | stage =>
      if Unicode.isWord c then idle
      else if Unicode.isBlank c then if w = name then named else stage
      else if c = '<' then if w = name ∨ stage = named then opened else idle
      else if c = '>' ∧ stage = opened then found
      else idle

def after : Stage → Line → Line → Stage
  | stage, _, [] => stage
  | stage, w, c :: rest => after (next name w c stage) (wordBehind w c) rest

end

variable {name : Line}

theorem after_append (stage : Stage) (w xs ys : Line) :
    after name stage w (xs ++ ys) = after name (after name stage w xs) (wordAfter w xs) ys := by
  induction xs generalizing stage w with
  | nil => rfl
  | cons c xs ih => exact ih _ _

def Below (a b : Stage) : Prop := a = b ∨ a = idle ∨ b = found

theorem next_idle_below (w : Line) (c : Char) (b : Stage) :
    Below (next name w c idle) (next name w c b) := by
  cases b with
  | found => exact .inr (.inr rfl)
  | idle => exact .inl rfl
  | named =>
    simp only [Below, next]
    split_ifs <;> simp_all
  | opened =>
    simp only [Below, next]
    split_ifs <;> simp_all

theorem next_below (w : Line) (c : Char) {a b : Stage} (h : Below a b) :
    Below (next name w c a) (next name w c b) := by
  rcases h with rfl | rfl | rfl
  · exact .inl rfl
  · exact next_idle_below w c b
  · exact .inr (.inr rfl)

theorem after_below (w line : Line) {a b : Stage} (h : Below a b) :
    Below (after name a w line) (after name b w line) := by
  induction line generalizing a b w with
  | nil => exact h
  | cons c rest ih => exact ih _ (next_below w c h)

theorem eq_found {b : Stage} (h : Below found b) : b = found := by
  rcases h with h | h | h
  · exact h.symm
  · exact absurd h (by decide)
  · exact h

theorem Below.trans {a b c : Stage} (h : Below a b) (h' : Below b c) : Below a c := by
  rcases h with rfl | rfl | rfl
  · exact h'
  · exact .inr (.inl rfl)
  · exact .inr (.inr (eq_found h'))

theorem after_found (w line : Line) : after name found w line = found := by
  induction line generalizing w with
  | nil => rfl
  | cons c rest ih => exact ih _

theorem after_word (stage : Stage) (hstage : stage ≠ found) (w title : Line) (hne : title ≠ [])
    (htitle : IsWordText title) : after name stage w title = idle := by
  have hnext : ∀ w c (stage : Stage), stage ≠ found → Unicode.isWord c = true →
      next name w c stage = idle := by
    intro w c stage hstage hc
    cases stage with
    | found => exact absurd rfl hstage
    | _ => simp [next, hc]
  cases title with
  | nil => exact absurd rfl hne
  | cons c title =>
    rw [after, hnext w c stage hstage (htitle c (by simp))]
    generalize wordBehind w c = w'
    have htail : IsWordText title := fun d hd => htitle d (by simp [hd])
    clear htitle hne
    induction title generalizing w' with
    | nil => rfl
    | cons d title ih =>
      rw [after, hnext w' d idle (by decide) (htail d (by simp))]
      exact ih _ fun e he => htail e (by simp [he])

theorem after_blanks (hname : name ≠ []) (stage : Stage) (gap : Line)
    (hgap : ∀ c ∈ gap, Unicode.isBlank c = true) : after name stage [] gap = stage := by
  induction gap with
  | nil => rfl
  | cons c gap ih =>
    have hblank := hgap c (by simp)
    have hword : Unicode.isWord c = false := Unicode.isWord_of_isBlank c hblank
    have hnext : next name [] c stage = stage := by
      cases stage with
      | found => rfl
      | _ => simp [next, hblank, hword, Ne.symm hname]
    rw [after, hnext, wordBehind_other _ c hword]
    exact ih fun d hd => hgap d (by simp [hd])

theorem after_opening (stage : Stage) (hstage : stage ≠ found) (w title : Line)
    (hne : title ≠ []) (htitle : IsWordText title) :
    after name stage w (title ++ ['<']) = if w ++ title = name then opened else idle := by
  rw [after_append, after_word stage hstage w title hne htitle, wordAfter_word w title htitle]
  have hsign : Unicode.isWord '<' = false ∧ Unicode.isBlank '<' = false := by decide
  simp [after, next, hsign]

theorem after_generic (stage : Stage) (title args : Line) :
    after name stage [] (ContainerShape.generic title args []) =
      after name (after name stage [] (title ++ ['<'])) [] (args ++ ['>']) := by
  rw [ContainerShape.generic_cut, after_append, wordAfter_concat _ _ '<' (by decide)]

def Reached (name line : Line) : Stage → Prop
  | idle => True
  | named => ∃ xs gap, line = xs ++ (name ++ gap) ∧ wordAfter [] xs = [] ∧
      ∀ c ∈ gap, Unicode.isBlank c = true
  | opened => ∃ xs gap gap', line = xs ++ (name ++ (gap ++ '<' :: gap')) ∧
      wordAfter [] xs = [] ∧ (∀ c ∈ gap, Unicode.isBlank c = true) ∧
      ∀ c ∈ gap', Unicode.isBlank c = true
  | found => ∃ xs gap gap' rest, line = xs ++ (name ++ (gap ++ '<' :: (gap' ++ '>' :: rest))) ∧
      wordAfter [] xs = [] ∧ (∀ c ∈ gap, Unicode.isBlank c = true) ∧
      ∀ c ∈ gap', Unicode.isBlank c = true

theorem blank_concat (gap : Line) (c : Char) (hgap : ∀ x ∈ gap, Unicode.isBlank x = true)
    (hc : Unicode.isBlank c = true) : ∀ x ∈ gap ++ [c], Unicode.isBlank x = true :=
  List.forall_mem_append.2 ⟨hgap, List.forall_mem_singleton.2 hc⟩

/-- A blank leaves the reading where it is, or stands behind the name. -/
theorem reached_blank (line : Line) (c : Char) (hc : Unicode.isBlank c = true) (stage : Stage)
    (hstage : stage ≠ found) (h : Reached name line stage) : Reached name (line ++ [c]) stage := by
  cases stage with
  | idle => trivial
  | named =>
    obtain ⟨xs, gap, hline, hout, hgap⟩ := h
    exact ⟨xs, gap ++ [c], by simp [hline], hout, blank_concat gap c hgap hc⟩
  | opened =>
    obtain ⟨xs, gap, gap', hline, hout, hgap, hgap'⟩ := h
    exact ⟨xs, gap, gap' ++ [c], by simp [hline], hout, hgap, blank_concat gap' c hgap' hc⟩
  | found => exact absurd rfl hstage

theorem reached_next (line : Line) (c : Char) (stage : Stage) (h : Reached name line stage) :
    Reached name (line ++ [c]) (next name (wordAfter [] line) c stage) := by
  by_cases hfound : stage = found
  · subst hfound
    obtain ⟨xs, gap, gap', rest, hline, hrest⟩ := h
    exact ⟨xs, gap, gap', rest ++ [c], by simp [hline], hrest⟩
  obtain ⟨before, hbefore, hout, -⟩ := wordAfter_split line
  rw [next]
  · split_ifs with hword hblank hname hopen hmet hclose
    · trivial
    · exact ⟨before, [c], by rw [← List.append_assoc, ← hname, ← hbefore], hout,
        by simpa using hblank⟩
    · exact reached_blank line c hblank stage hfound h
    · subst hopen
      rcases hmet with hname | rfl
      · refine ⟨before, [], [], ?_, hout, by simp, by simp⟩
        rw [List.nil_append, ← List.append_assoc, ← hname, ← hbefore]
      · obtain ⟨xs, gap, hline, hout, hgap⟩ := h
        exact ⟨xs, gap, [], by simp [hline], hout, hgap, by simp⟩
    · trivial
    · obtain ⟨rfl, rfl⟩ := hclose
      obtain ⟨xs, gap, gap', hline, hrest⟩ := h
      exact ⟨xs, gap, gap', [], by simp [hline], hrest⟩
    · trivial
  · exact hfound

theorem reached_after (line : Line) : Reached name line (after name idle [] line) := by
  induction line using List.reverseRecOn with
  | nil => exact trivial
  | append_singleton line c ih =>
    rw [after_append]
    exact reached_next line c _ ih

theorem after_empty (hne : name ≠ []) (hname : IsWordText name) (gap gap' rest : Line)
    (hgap : ∀ c ∈ gap, Unicode.isBlank c = true) (hgap' : ∀ c ∈ gap', Unicode.isBlank c = true) :
    after name idle [] (name ++ (gap ++ '<' :: (gap' ++ '>' :: rest))) = found := by
  have hsign : Unicode.isWord '<' = false ∧ Unicode.isBlank '<' = false := by decide
  have hsign' : Unicode.isWord '>' = false ∧ Unicode.isBlank '>' = false := by decide
  have hopened : ∀ rest, after name idle name (gap ++ '<' :: rest) = after name opened [] rest := by
    intro rest
    cases gap with
    | nil => simp [after, next, hsign, wordBehind]
    | cons c gap =>
      have hblank := hgap c (by simp)
      have hword : Unicode.isWord c = false := Unicode.isWord_of_isBlank c hblank
      have hrest : ∀ d ∈ gap, Unicode.isBlank d = true := fun d hd => hgap d (by simp [hd])
      rw [List.cons_append, after, wordBehind_other _ c hword, after_append,
        after_blanks hne _ gap hrest, wordAfter_blanks gap hrest]
      simp [after, next, hsign, hword, hblank, wordBehind]
  rw [after_append, after_word idle (by decide) [] name hne hname, wordAfter_word [] name hname,
    List.nil_append, hopened, after_append, after_blanks hne opened gap' hgap',
    wordAfter_blanks gap' hgap']
  simp [after, next, hsign', after_found]

theorem after_swaps {D : Line → Line → Prop}
    (hD : ∀ xs ys, D xs ys → wordAfter [] xs = [] ∧ wordAfter [] ys = [] ∧
      ∀ stage, Below (after name stage [] ys) (after name stage [] xs)) {w line line' : Line}
    (h : Swaps D w line line') {a b : Stage} (hab : Below a b) :
    Below (after name a w line') (after name b w line) := by
  induction h generalizing a b with
  | nil w => exact hab
  | char c _ ih => exact ih (next_below _ c hab)
  | @piece xs ys zs zs' hpiece _ ih =>
    obtain ⟨hx, hy, hbelow⟩ := hD xs ys hpiece
    rw [after_append, after_append, hx, hy]
    exact ih ((hbelow a).trans (after_below [] xs hab))

end Stage

namespace ContainerShape
open Pattern Stage

theorem Respaced.after_eq {args written : Line} (h : Respaced args written) (name : Line)
    (hname : name ≠ []) (stage : Stage) (w : Line) :
    after name stage w (args ++ ['>']) = after name stage w (written ++ ['>']) := by
  rcases h with rfl | ⟨first, gap, second, rfl, rfl, hgap, -⟩
  · rfl
  · have hblanks : ∀ (stage : Stage) (gap : Line), (∀ c ∈ gap, Unicode.isBlank c = true) →
        after name stage [] (gap ++ (second ++ ['>'])) = after name stage [] (second ++ ['>']) := by
      intro stage gap hgap
      rw [after_append, after_blanks hname stage gap hgap, wordAfter_blanks gap hgap]
    rw [List.append_assoc, List.append_assoc, after_append, after_append stage w first]
    change after name _ [] (gap ++ second ++ ['>']) = after name _ [] ([' '] ++ (second ++ ['>']))
    rw [List.append_assoc, hblanks _ gap hgap, hblanks _ [' '] (by decide)]

/-- Renaming a container with arguments makes no empty one. -/
theorem Renames.stage_below {q r : ContainerShape} (hq : q ∈ known) (hr : r ∈ known) {h : Hit}
    {args written : Line} (hh : Renames q h args written) (stage : Stage) :
    Stage.Below (after r.source.toList stage [] (q.declared.render h))
      (after r.source.toList stage [] h.text) := by
  have hsame : ∀ q ∈ known, ∀ r ∈ known, q.target.toList = r.source.toList →
      q.source.toList = r.source.toList := by decide
  obtain ⟨⟨hne, hword⟩, hne', hword'⟩ := Field.container_word q hq
  obtain ⟨hname, -⟩ := source_word r hr
  by_cases hfound : stage = found
  · rw [hfound, after_found, after_found]
    exact .inl rfl
  · rw [hh.text, hh.render, after_generic, after_generic, hh.respaced.after_eq _ hname]
    refine after_below [] _ ?_
    rw [after_opening stage hfound [] _ hne hword, after_opening stage hfound [] _ hne' hword']
    by_cases htarget : q.target.toList = r.source.toList
    · rw [List.nil_append, List.nil_append, if_pos htarget, if_pos (hsame q hq r hr htarget)]
      exact .inl rfl
    · rw [List.nil_append, if_neg htarget]
      exact .inr (.inl rfl)

theorem elided_begins (r : ContainerShape) (hr : r ∈ known) (b : Option Char)
    (hb : b.any Unicode.isWord = false) (gap gap' rest : Line)
    (hgap : ∀ c ∈ gap, Unicode.isBlank c = true) (hgap' : ∀ c ∈ gap', Unicode.isBlank c = true) :
    (r.elided.pattern.matchAt
      ⟨b, r.source.toList ++ (gap ++ '<' :: (gap' ++ '>' :: rest))⟩).isSome = true := by
  obtain ⟨hne, hword⟩ := source_word r hr
  rw [matchAt, elided, matchK_all_cons, matchK_edge _ _ _ (Place.atEdge_word b _ _ hb hne hword),
    matchK_all_cons, lit, matchK_text, matchK_all_cons, Pattern.gap,
    matchK_span .blank _ gap _ _ _ hgap (stops_cons _ '<' _ (by decide)), matchK_all_cons]
  refine (congrArg Option.isSome (matchK_char '<' _ _ _ _)).trans ?_
  rw [matchK_all_cons, matchK_span .blank _ gap' _ _ _ hgap' (stops_cons _ '>' _ (by decide)),
    matchK_all_cons]
  exact congrArg Option.isSome (matchK_char '>' _ _ _ _)

theorem elided_occursIn_iff (r : ContainerShape) (hr : r ∈ known) (line : Line) :
    r.elided.pattern.occursIn line = true ↔ after r.source.toList idle [] line = found := by
  obtain ⟨hne, hword⟩ := source_word r hr
  rw [occursIn_iff]
  constructor
  · rintro ⟨xs, rest, rfl, hm⟩
    rw [matchAt_isSome_iff] at hm
    obtain ⟨e, he⟩ := hm
    obtain ⟨hout, gap, gap', hgap, hgap', hrest⟩ := elided_ends r hr _ e he
    have hread : wordAfter [] xs = [] := (reads_none.behind xs).eq_nil_iff.2 hout
    have hfound := after_empty hne hword gap gap' e.1.rest hgap hgap'
    rw [← hrest] at hfound
    have hbelow : Stage.Below (after r.source.toList idle [] rest)
        (after r.source.toList (after r.source.toList idle [] xs) [] rest) :=
      after_below [] rest (.inr (.inl rfl))
    rw [after_append, hread]
    rw [hfound] at hbelow
    exact eq_found hbelow
  · intro h
    have hreached : Reached r.source.toList line (after r.source.toList idle [] line) :=
      reached_after line
    rw [h] at hreached
    obtain ⟨xs, gap, gap', rest, hline, hread, hgap, hgap'⟩ := hreached
    refine ⟨xs, _, hline, elided_begins r hr _ ?_ gap gap' rest hgap hgap'⟩
    exact (reads_none.behind xs).eq_nil_iff.1 hread

theorem elided_of_declared (q r : ContainerShape) (hq : q ∈ known) (hr : r ∈ known) (line : Line)
    (h : r.elided.pattern.occursIn (q.declared.apply line) = true) :
    r.elided.pattern.occursIn line = true := by
  rw [elided_occursIn_iff r hr] at h ⊢
  have hswaps : Swaps (fun xs ys => ∃ h args written, Renames q h args written ∧ xs = h.text ∧
      ys = q.declared.render h) [] line (q.declared.apply line) := by
    refine (q.declared.replaced (pattern_filled q hq).1 line).swaps (fun c h hm => ?_) [] reads_none
    obtain ⟨hout, args, written, hh⟩ := declared_renames q hq c h hm
    exact ⟨hout, ⟨h, args, written, hh, rfl, rfl⟩, hh.text ▸ generic_ends _ _⟩
  have hbelow : Stage.Below (after r.source.toList idle [] (q.declared.apply line))
      (after r.source.toList idle [] line) := by
    refine after_swaps ?_ hswaps (.inl rfl)
    rintro xs ys ⟨h, args, written, hh, rfl, rfl⟩
    exact ⟨hh.text ▸ generic_ends _ _, hh.render ▸ generic_ends _ _, hh.stage_below hq hr⟩
  rw [h] at hbelow
  exact eq_found hbelow

end ContainerShape

end JvsSharp
