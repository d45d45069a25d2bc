import JvsSharp.Proofs.FieldDeclaration
import JvsSharp.Proofs.NestedContainers

/-!
# One pass of renaming

A pass goes through a line from left to right and replaces what it matches.
Deleting an empty container or renaming another one brings in nothing that a
container needs. A pass that renames the container itself takes the first one
of every run and leaves the others as they are, so it takes exactly one layer
of nested containers away.
-/

set_option autoImplicit false

namespace JvsSharp

namespace Pattern

inductive Replaced (p : Pattern) (f : Hit → Line) : Option Char → Line → Line → Prop
  | nil (b : Option Char) : Replaced p f b [] []
  | keep {b : Option Char} {c : Char} {rest rest' : Line} :
      p.matchAt ⟨b, c :: rest⟩ = none → Replaced p f (some c) rest rest' →
      Replaced p f b (c :: rest) (c :: rest')
  | hit {b : Option Char} {h : Hit} {rest' : Line} :
      p.matchAt ⟨b, h.text ++ h.after⟩ = some h → Replaced p f (behind b h.text) h.after rest' →
      Replaced p f b (h.text ++ h.after) (f h ++ rest')

theorem text_ne_nil (p : Pattern) (hp : p.isFilled = true) (c : Place) (h : Hit)
    (hm : p.matchAt c = some h) : h.text ≠ [] := by
  rw [matchAt_eq, Option.map_eq_some_iff] at hm
  obtain ⟨r, hr, rfl⟩ := hm
  have hlength := ends_isFilled p hp c [] r (List.mem_of_mem_head? hr)
  obtain ⟨xs, hxs⟩ := ends_suffix p c [] r (List.mem_of_mem_head? hr)
  rw [← hxs, List.length_append] at hlength
  change textBetween c.rest r.1.rest ≠ []
  rw [← hxs, textBetween_left]
  exact List.length_pos_iff.1 (by omega)

theorem replaced_replaceFrom (p : Pattern) (hp : p.isFilled = true) (f : Hit → Line)
    (b : Option Char) (line : Line) : p.Replaced f b line (p.replaceFrom f b line) := by
  induction hn : line.length using Nat.strongRecOn generalizing b line with
  | _ n ih =>
    cases line with
    | nil =>
      rw [replaceFrom_nil]
      exact .nil b
    | cons c rest =>
      cases hm : p.matchAt ⟨b, c :: rest⟩ with
      | none =>
        have hstep : p.replaceFrom f b (c :: rest) = c :: p.replaceFrom f (some c) rest :=
          replaceFrom_quiet p f b [c] rest ⟨hm, trivial⟩
        rw [hstep]
        exact .keep hm (ih rest.length (by simp [← hn]) (some c) rest rfl)
      | some h =>
        have hne := text_ne_nil p hp _ h hm
        have htext : h.text ++ h.after = c :: rest := matchAt_text p _ h hm
        have hshorter : h.after.length < n := by
          have hpos := List.length_pos_iff.2 hne
          rw [← hn, ← htext, List.length_append]
          omega
        rw [← htext] at hm ⊢
        rw [replaceFrom_hit p f b h.text h.after h hm rfl hne]
        exact .hit hm (ih _ hshorter _ h.after rfl)

end Pattern

theorem Edit.replaced (e : Edit) (he : e.pattern.isFilled = true) (line : Line) :
    e.pattern.Replaced e.render none line (e.apply line) := by
  rw [Edit.apply, Pattern.replaceAll_eq]
  exact Pattern.replaced_replaceFrom e.pattern he e.render none line

/-- Two texts, both behind the word `w`, one of which has other pieces in some places; no word
goes on into such a piece. -/
inductive Swaps (D : Line → Line → Prop) : Line → Line → Line → Prop
  | nil (w : Line) : Swaps D w [] []
  | char {w : Line} (c : Char) {xs ys : Line} :
      Swaps D (wordBehind w c) xs ys → Swaps D w (c :: xs) (c :: ys)
  | piece {xs ys zs zs' : Line} : D xs ys → Swaps D [] zs zs' → Swaps D [] (xs ++ zs) (ys ++ zs')

theorem Swaps.symm {D E : Line → Line → Prop} (hD : ∀ xs ys, D xs ys → E ys xs) {w xs ys : Line}
    (h : Swaps D w xs ys) : Swaps E w ys xs := by
  induction h with
  | nil w => exact .nil w
  | char c _ ih => exact .char c ih
  | piece hpiece _ ih => exact .piece (hD _ _ hpiece) ih

theorem Pattern.Replaced.swaps {p : Pattern} {f : Hit → Line} {b : Option Char}
    {line line' : Line} (h : p.Replaced f b line line') {D : Line → Line → Prop}
    (hD : ∀ c h, p.matchAt c = some h → c.before.any Unicode.isWord = false ∧ D h.text (f h) ∧
      wordAfter [] h.text = []) (w : Line) (hw : Reads w b) : Swaps D w line line' := by
  induction h generalizing w with
  | nil b => exact .nil w
  | keep _ _ ih => exact .char _ (ih _ (reads_next w _))
  | hit hm _ ih =>
    obtain ⟨hout, hpiece, hend⟩ := hD _ _ hm
    have hnone : w = [] := hw.eq_nil_iff.2 hout
    subst hnone
    exact .piece hpiece (ih [] (hend ▸ hw.behind _))

namespace Need

/-- The second text meets no more of the needs than the first one. -/
structure Below (name : Line) (full : List Need) (xs ys : Line) : Prop where
  type : ∀ x ∈ xs, Rules.typeText.mem x = true
  type' : ∀ x ∈ ys, Rules.typeText.mem x = true
  ends : wordAfter [] xs = []
  ends' : wordAfter [] ys = []
  left : ∀ ns, ns <:+ full → left name ns [] xs <:+ left name ns [] ys

variable {name : Line} {full : List Need}

theorem areMet_of_swaps {w line line' : Line} (h : Swaps (Below name full) w line line')
    (ns : List Need) (hns : ns <:+ full) (hmet : areMet name ns w line' = true) :
    areMet name ns w line = true := by
  induction h generalizing ns with
  | nil w => exact hmet
  | char c _ ih =>
    cases ns with
    | nil => exact areMet_nil _ _
    | cons n ns =>
      rw [areMet_cons, Bool.and_eq_true] at hmet ⊢
      exact ⟨hmet.1, ih _ ((after_suffix _ c _).trans hns) hmet.2⟩
  | piece hpiece _ ih =>
    rw [areMet_append ns [] _ _ hpiece.type', hpiece.ends'] at hmet
    rw [areMet_append ns [] _ _ hpiece.type, hpiece.ends]
    refine areMet_mono _ _ (hpiece.left ns hns) [] _ (ih _ ?_ hmet)
    exact (left_suffix ns [] _).trans hns

theorem metIn_of_swaps {w line line' : Line} (h : Swaps (Below name full) w line line')
    (hmet : MetIn name full w line') : MetIn name full w line := by
  induction h with
  | nil w => exact hmet
  | char c hrest ih =>
    rw [metIn_cons] at hmet ⊢
    exact hmet.imp (areMet_of_swaps (.char c hrest) full (List.suffix_refl _)) ih
  | piece hpiece hrest ih =>
    rw [metIn_append full [] _ _ hpiece.type', hpiece.ends'] at hmet
    rw [metIn_append full [] _ _ hpiece.type, hpiece.ends]
    exact hmet.imp (areMet_of_swaps (.piece hpiece hrest) full (List.suffix_refl _)) ih

end Need

namespace ContainerShape
open Pattern Need

def isRenamed (s : ContainerShape) : Bool := s.source != s.target

theorem target_ne_source (q s : ContainerShape) (hq : q ∈ known) (hs : s ∈ known)
    (hrenamed : s.isRenamed = true) : q.target.toList ≠ s.source.toList := by
  have hall : ∀ q ∈ known, ∀ s ∈ known, s.isRenamed = true →
      q.target.toList ≠ s.source.toList := by decide
  exact hall q hq s hs hrenamed

theorem source_ne_source (q s : ContainerShape) (hq : q ∈ known) (hs : s ∈ known) (hne : q ≠ s) :
    q.source.toList ≠ s.source.toList := by
  have hall : ∀ q ∈ known, ∀ s ∈ known, q ≠ s → q.source.toList ≠ s.source.toList := by decide
  exact hall q hq s hs hne

theorem pattern_filled (s : ContainerShape) (hs : s ∈ known) :
    s.declared.pattern.isFilled = true ∧ s.elided.pattern.isFilled = true := by
  have hall : ∀ s ∈ known, s.declared.pattern.isFilled = true ∧
      s.elided.pattern.isFilled = true := by decide
  exact hall s hs

theorem Respaced.type {args written : Line} (h : Respaced args written)
    (htype : ∀ x ∈ args, Rules.typeText.mem x = true) :
    ∀ x ∈ written, Rules.typeText.mem x = true := by
  rcases h with rfl | ⟨first, gap, second, rfl, rfl, -, -⟩
  · exact htype
  · refine List.forall_mem_append.2 ⟨fun x hx => htype x (by simp [hx]), ?_⟩
    refine List.forall_mem_cons.2 ⟨by decide, List.forall_mem_cons.2 ⟨by decide, ?_⟩⟩
    exact fun x hx => htype x (by simp [hx])

theorem Respaced.left_eq {args written : Line} (h : Respaced args written) (name : Line)
    (ns : List Need) (hns : areSteady ns = true) (w : Line) :
    left name ns w (args ++ ['>']) = left name ns w (written ++ ['>']) := by
  rcases h with rfl | ⟨first, gap, second, rfl, rfl, hgap, hne⟩
  · rfl
  · have hspaced : left name ns w _ = left name ns w _ :=
      left_respaced ns hns w first gap second hgap hne
    simpa using hspaced

theorem generic_cut (title args : Line) :
    generic title args [] = (title ++ ['<']) ++ (args ++ ['>']) := by
  simp [generic]

theorem generic_type (title args : Line) (htitle : IsWordText title)
    (hargs : ∀ x ∈ args, Rules.typeText.mem x = true) :
    ∀ x ∈ generic title args [], Rules.typeText.mem x = true := by
  rw [generic_cut]
  intro x hx
  simp only [List.mem_append, List.mem_singleton] at hx
  rcases hx with (hx | rfl) | hx | rfl
  · exact typeText_word x (htitle x hx)
  · decide
  · exact hargs x hx
  · decide

theorem generic_ends (title args : Line) : wordAfter [] (generic title args []) = [] := by
  rw [generic_cut, ← List.append_assoc]
  exact wordAfter_concat _ _ '>' (by decide)

section
variable {name : Line} {ns : List Need} (hns : areSteady ns = true) {title args written : Line}
  (hne : title ≠ []) (htitle : IsWordText title)
include hns hne htitle

theorem left_generic_suffix : left name ns [] (generic title args []) <:+
    left name (withoutAny ns) [] (args ++ ['>']) := by
  rw [generic_cut, left_append, wordAfter_concat _ _ '<' (by decide)]
  refine left_mono _ _ ?_ _ _
  rw [left_append, left_plain [] title ns hns hne fun c hc => .inl (htitle c hc)]
  exact left_suffix _ _ _

theorem left_generic_other (hother : title ≠ name) :
    left name ns [] (generic title args []) = left name (withoutAny ns) [] (args ++ ['>']) := by
  rw [generic_cut, left_append, wordAfter_concat _ _ '<' (by decide),
    left_other_opening ns hns title hne htitle hother]

end

section
variable {q s : ContainerShape} (hq : q ∈ known) (hs : s ∈ known) (hrenamed : s.isRenamed = true)
  {h : Hit} {args written : Line} (hh : Renames q h args written) (full : List Need)
  (hfull : areSteady full = true)
include hq hs hrenamed hh hfull

/-- Renaming a container brings in nothing that a renamed container needs. -/
theorem Renames.below : Below s.source.toList full h.text (q.declared.render h) := by
  obtain ⟨⟨hne, hword⟩, hne', hword'⟩ := Field.container_word q hq
  rw [hh.text, hh.render]
  refine ⟨generic_type _ _ hword hh.type, generic_type _ _ hword' (hh.respaced.type hh.type),
    generic_ends _ _, generic_ends _ _, fun ns hsub => ?_⟩
  have hns := areSteady_suffix ns full hsub hfull
  rw [left_generic_other hns hne' hword' (target_ne_source q s hq hs hrenamed),
    ← hh.respaced.left_eq _ _ (areSteady_withoutAny ns hns)]
  exact left_generic_suffix hns hne hword

/-- Renaming another container takes nothing away either. -/
theorem Renames.above (hother : q ≠ s) :
    Below s.source.toList full (q.declared.render h) h.text := by
  obtain ⟨⟨hne, hword⟩, hne', hword'⟩ := Field.container_word q hq
  rw [hh.text, hh.render]
  refine ⟨generic_type _ _ hword' (hh.respaced.type hh.type), generic_type _ _ hword hh.type,
    generic_ends _ _, generic_ends _ _, fun ns hsub => ?_⟩
  have hns := areSteady_suffix ns full hsub hfull
  have hsame : left s.source.toList ns [] (generic q.target.toList written []) =
      left s.source.toList ns [] (generic q.source.toList args []) := by
    rw [left_generic_other hns hne' hword' (target_ne_source q s hq hs hrenamed),
      left_generic_other hns hne hword (source_ne_source q s hq hs hother),
      hh.respaced.left_eq _ _ (areSteady_withoutAny ns hns)]
  exact hsame ▸ List.suffix_refl _

end

theorem elided_ends (s : ContainerShape) (hs : s ∈ known) (c : Place) (r : Place × List Mark)
    (h : r ∈ s.elided.pattern.ends c []) :
    c.before.any Unicode.isWord = false ∧ ∃ gap gap', (∀ x ∈ gap, Unicode.isBlank x = true) ∧
      (∀ x ∈ gap', Unicode.isBlank x = true) ∧
      c.rest = s.source.toList ++ (gap ++ '<' :: (gap' ++ '>' :: r.1.rest)) := by
  obtain ⟨hout, rest, hrest, h⟩ := (mem_ends_opening s hs c [] _ r).1 h
  obtain ⟨c₁, h₁, h⟩ := (mem_ends_all_cons _ _ _ [] r).1 h
  obtain ⟨c₂, h₂, h⟩ := (mem_ends_all_cons _ _ _ _ r).1 h
  obtain ⟨c₃, h₃, h⟩ := (mem_ends_all_cons _ _ _ _ r).1 h
  obtain ⟨gap, hgap, hblank⟩ := ends_takes .blank Pattern.gap (by decide) _ _ c₁ h₁
  obtain ⟨hopen, -⟩ := mem_ends_text ['<'] _ _ c₂ h₂
  obtain ⟨gap', hgap', hblank'⟩ := ends_takes .blank Pattern.gap (by decide) _ _ c₃ h₃
  obtain ⟨hclose, -⟩ := mem_ends_text ['>'] _ _ r ((mem_ends_all_single _ _ _ r).1 h)
  have hbehind : rest = gap ++ c₁.1.rest := hgap.1
  refine ⟨hout, gap, gap', hblank, hblank', ?_⟩
  rw [hrest, hbehind, hopen, hgap'.1, hclose]
  rfl

theorem elided_text (s : ContainerShape) (hs : s ∈ known) (c : Place) (h : Hit)
    (hm : s.elided.pattern.matchAt c = some h) :
    c.before.any Unicode.isWord = false ∧ ∃ gap gap', (∀ x ∈ gap, Unicode.isBlank x = true) ∧
      (∀ x ∈ gap', Unicode.isBlank x = true) ∧
      h.text = s.source.toList ++ (gap ++ '<' :: (gap' ++ ['>'])) := by
  have hends := hm
  rw [matchAt_eq, Option.map_eq_some_iff] at hends
  obtain ⟨r, hr, rfl⟩ := hends
  obtain ⟨hout, gap, gap', hgap, hgap', hrest⟩ := elided_ends s hs c r (List.mem_of_mem_head? hr)
  refine ⟨hout, gap, gap', hgap, hgap', ?_⟩
  have hcut : s.source.toList ++ (gap ++ '<' :: (gap' ++ '>' :: r.1.rest)) =
      (s.source.toList ++ (gap ++ '<' :: (gap' ++ ['>']))) ++ r.1.rest := by simp
  change textBetween c.rest r.1.rest = _
  rw [hrest, hcut, textBetween_left]

theorem elided_below (q : ContainerShape) (hq : q ∈ known) (c : Place) (h : Hit)
    (hm : q.elided.pattern.matchAt c = some h) (name : Line) (full : List Need) :
    c.before.any Unicode.isWord = false ∧ Below name full h.text (q.elided.render h) ∧
      wordAfter [] h.text = [] := by
  obtain ⟨hout, gap, gap', hgap, hgap', htext⟩ := elided_text q hq c h hm
  have hends : wordAfter [] h.text = [] := by
    have hcut : h.text = (q.source.toList ++ (gap ++ '<' :: gap')) ++ ['>'] := by simp [htext]
    rw [hcut, wordAfter_concat _ _ '>' (by decide)]
  have htype : ∀ x ∈ h.text, Rules.typeText.mem x = true := by
    intro x hx
    simp only [htext, List.mem_append, List.mem_cons, List.not_mem_nil, or_false] at hx
    rcases hx with hx | hx | rfl | hx | rfl
    · exact typeText_word x ((source_word q hq).2 x hx)
    · exact typeText_blank x (hgap x hx)
    · decide
    · exact typeText_blank x (hgap' x hx)
    · decide
  refine ⟨hout, ⟨htype, ?_, hends, rfl, fun ns _ => left_suffix ns [] _⟩, hends⟩
  exact fun x hx => absurd hx List.not_mem_nil

section
variable {q s : ContainerShape} (hq : q ∈ known) (hs : s ∈ known) (hrenamed : s.isRenamed = true)
  (full : List Need) (hfull : areSteady full = true)
include hq hs hrenamed hfull

theorem declared_replaced_swaps {b : Option Char} {line line' : Line}
    (h : q.declared.pattern.Replaced q.declared.render b line line') (w : Line) (hw : Reads w b) :
    Swaps (Below s.source.toList full) w line line' := by
  refine h.swaps (fun c h hm => ?_) w hw
  obtain ⟨hout, args, written, hh⟩ := declared_renames q hq c h hm
  exact ⟨hout, hh.below hq hs hrenamed full hfull, hh.text ▸ generic_ends _ _⟩

theorem metIn_of_declared (line : Line)
    (h : MetIn s.source.toList full [] (q.declared.apply line)) :
    MetIn s.source.toList full [] line :=
  metIn_of_swaps (declared_replaced_swaps hq hs hrenamed full hfull
    (q.declared.replaced (pattern_filled q hq).1 line) [] reads_none) h

theorem metIn_declared_other (hother : q ≠ s) (line : Line)
    (h : MetIn s.source.toList full [] line) :
    MetIn s.source.toList full [] (q.declared.apply line) := by
  have hswaps : Swaps (fun xs ys => Below s.source.toList full ys xs) [] line
      (q.declared.apply line) := by
    refine (q.declared.replaced (pattern_filled q hq).1 line).swaps (fun c h hm => ?_) [] reads_none
    obtain ⟨hout, args, written, hh⟩ := declared_renames q hq c h hm
    exact ⟨hout, hh.above hq hs hrenamed full hfull hother, hh.text ▸ generic_ends _ _⟩
  exact metIn_of_swaps (hswaps.symm fun _ _ hpiece => hpiece) h

end

theorem metIn_of_elided (q : ContainerShape) (hq : q ∈ known) (name : Line) (full : List Need)
    (line : Line) (h : MetIn name full [] (q.elided.apply line)) : MetIn name full [] line :=
  metIn_of_swaps ((q.elided.replaced (pattern_filled q hq).2 line).swaps
    (fun c h hm => elided_below q hq c h hm name full) [] reads_none) h

/-- If no bracket is left behind a text, its needs have to be met within it. -/
theorem areMet_closed (name : Line) (ns : List Need) (hns : [sign '>'] <:+ ns) (xs rest : Line)
    (hx : ∀ x ∈ xs, Rules.typeText.mem x = true) (hend : wordAfter [] xs = [])
    (hrest : areMet name [sign '>'] [] rest = false) :
    areMet name ns [] (xs ++ rest) = (left name ns [] xs).isEmpty := by
  rw [areMet_append ns [] xs rest hx, hend]
  cases hleft : left name ns [] xs with
  | nil => exact areMet_nil [] rest
  | cons m ms =>
    have hsub : left name ns [] xs <:+ ns := left_suffix ns [] xs
    rw [hleft] at hsub
    have hlast : [sign '>'] <:+ m :: ms := List.suffix_of_suffix_length_le hns hsub (by simp)
    cases hmet : areMet name (m :: ms) [] rest with
    | false => rfl
    | true =>
      rw [areMet_mono _ _ hlast [] rest hmet] at hrest
      exact absurd hrest.symm Bool.false_ne_true

theorem closing_chain (s : ContainerShape) (n : Nat) : [sign '>'] <:+ s.chainNeeds n :=
  s.closing_needed.trans (s.needs_suffix n)

theorem not_metIn_nil (name : Line) (ns : List Need) (w : Line) :
    ¬MetIn name (Need.opening :: ns) w [] := by
  rintro ⟨xs, rest, hsplit, hmet⟩
  rw [(List.append_eq_nil_iff.1 hsplit.symm).2] at hmet
  exact absurd hmet Bool.false_ne_true

/-- A place where no match begins does not count, if the word before it is no start of a match
either. -/
theorem metIn_keep (name : Line) (ms ns : List Need) (hsub : ms <:+ ns) (w : Line) (c : Char)
    (rest : Line) (hrefused : w = name → c = '<' → areMet name ms [] rest = false) :
    MetIn name (Need.opening :: ns) w (c :: rest) ↔
      MetIn name (Need.opening :: ns) (wordBehind w c) rest := by
  rw [metIn_cons]
  refine ⟨?_, .inr⟩
  rintro (hmet | hmet)
  · rw [areMet_cons, Bool.and_eq_true, after] at hmet
    by_cases hopen : isMet name w c Need.opening = true
    · rw [if_pos hopen] at hmet
      rw [isMet, Bool.and_eq_true, beq_iff_eq, beq_iff_eq] at hopen
      have hnone := hrefused hopen.1 hopen.2
      have hword : wordBehind w c = [] := wordBehind_other w c (by rw [hopen.2]; decide)
      rw [hword] at hmet
      rw [areMet_mono _ _ hsub [] rest hmet.2] at hnone
      exact absurd hnone.symm Bool.false_ne_true
    · rw [if_neg hopen] at hmet
      exact metIn_of_areMet hmet.2
  · exact hmet

section
variable (s : ContainerShape) (hs : s ∈ known) (hrenamed : s.isRenamed = true) (n : Nat)
include hs hrenamed

def Refused (s : ContainerShape) (w line : Line) : Prop :=
  w ≠ [] → ∀ t, w ++ line = s.source.toList ++ '<' :: t →
    areMet s.source.toList s.needs [] t = false

omit hrenamed in
theorem refused_next {b : Option Char} {c : Char} {w rest : Line} (hw : Reads w b)
    (hm : s.declared.pattern.matchAt ⟨b, c :: rest⟩ = none) (h : s.Refused w (c :: rest)) :
    s.Refused (wordBehind w c) rest := by
  intro hne t ht
  cases hc : Unicode.isWord c with
  | false => exact absurd (wordBehind_other w c hc) hne
  | true =>
    rw [wordBehind, if_pos hc, List.append_assoc, List.singleton_append] at ht
    by_cases hstart : w = []
    · cases hmet : areMet s.source.toList s.needs [] t with
      | false => rfl
      | true =>
        obtain ⟨h', _, _, hsome, -⟩ :=
          exists_declared_hit s hs b (hw.eq_nil_iff.1 hstart) t hmet
        rw [hstart, List.nil_append] at ht
        rw [← ht, hm] at hsome
        exact absurd hsome.symm (Option.some_ne_none h')
    · exact h hstart t ht

/-- A pass that renames a container takes one layer of it away. -/
theorem declared_takes_layer {b : Option Char} {line line' : Line}
    (h : s.declared.pattern.Replaced s.declared.render b line line') (w : Line) (hw : Reads w b)
    (hrefused : s.Refused w line) :
    MetIn s.source.toList (s.chainNeeds (n + 1)) w line' ↔
      MetIn s.source.toList (s.chainNeeds (n + 2)) w line := by
  -- What the result meets in a run, the line meets there as well.
  have hbelow : ∀ {b : Option Char} {rest rest' : Line} (full : List Need),
      s.declared.pattern.Replaced s.declared.render b rest rest' → Reads [] b →
      areSteady full = true → areMet s.source.toList full [] rest = false →
      areMet s.source.toList full [] rest' = false := by
    intro b rest rest' full hrest hb hfull hnone
    have hswaps := declared_replaced_swaps hs hs hrenamed full hfull hrest [] hb
    cases hmet : areMet s.source.toList full [] rest' with
    | false => rfl
    | true =>
      rw [areMet_of_swaps hswaps full (List.suffix_refl _) hmet] at hnone
      exact absurd hnone.symm Bool.false_ne_true
  induction h generalizing w with
  | nil b => exact iff_of_false (not_metIn_nil _ _ w) (not_metIn_nil _ _ w)
  | @keep b c rest rest' hm hrest ih =>
    have hline : w = s.source.toList → c = '<' →
        areMet s.source.toList s.needs [] rest = false := by
      intro hname hopen
      refine hrefused (hname ▸ (source_word s hs).1) rest ?_
      rw [hname, hopen]
    have hline' : w = s.source.toList → c = '<' →
        areMet s.source.toList s.needs [] rest' = false := fun hname hopen =>
      hbelow s.needs hrest (hopen ▸ reads_other '<' (by decide)) s.needs_steady (hline hname hopen)
    rw [chainNeeds_succ, chainNeeds_succ s (n + 1),
      metIn_keep _ _ _ (s.needs_suffix n) w c rest' hline',
      metIn_keep _ _ _ (s.needs_suffix (n + 1)) w c rest hline]
    exact ih _ (reads_next w c) (refused_next s hs hw hm hrefused)
  | @hit b h rest' hm hrest ih =>
    obtain ⟨hout, args, written, hh⟩ := declared_renames s hs _ h hm
    have hnone : w = [] := hw.eq_nil_iff.2 hout
    subst hnone
    have hpiece := hh.below hs hs hrenamed _ (s.chainNeeds_steady (n + 1))
    have hbehind : Reads [] (behind b h.text) := hpiece.ends ▸ hw.behind h.text
    have hlater : MetIn _ _ [] rest' ↔ MetIn _ _ [] h.after :=
      ih [] hbehind fun hne => absurd rfl hne
    have hleft : left s.source.toList (s.chainNeeds (n + 2)) [] h.text =
        left s.source.toList (s.chainNeeds (n + 1)) [] (s.declared.render h) := by
      obtain ⟨⟨hne, hword⟩, hne', hword'⟩ := Field.container_word s hs
      rw [hh.text, hh.render, left_generic_other (s.chainNeeds_steady (n + 1)) hne' hword'
        (target_ne_source s s hs hs hrenamed), generic_cut, left_append, chainNeeds_succ s (n + 1),
        left_own_opening _ (s.chainNeeds_steady (n + 1)) hne hword,
        wordAfter_concat _ _ '<' (by decide),
        hh.respaced.left_eq _ _ (s.chainNeeds_steady (n + 1))]
      rfl
    rw [metIn_append _ [] _ _ hpiece.type', metIn_append _ [] _ _ hpiece.type, hpiece.ends,
      hpiece.ends', hlater,
      areMet_closed _ _ (s.closing_chain (n + 1)) _ rest' hpiece.type' hpiece.ends'
        (hbelow _ hrest hbehind (by decide) hh.closed),
      areMet_closed _ _ (s.closing_chain (n + 2)) _ h.after hpiece.type hpiece.ends hh.closed,
      hleft]

end

end ContainerShape

end JvsSharp
