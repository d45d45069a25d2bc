import JvsSharp.Proofs.CallNames

/-!
# Phrases in plugin scripts

The rules that plugin scripts have on their own end every line. Most of them
look for texts that a phrase does not hold whatever its names are. Three of
the substitutions look at single words: `final` as a whole, `length` at the
start of a word, and `throws` at the end of one, of which the last two can be
set off by a name.
-/

set_option autoImplicit false

namespace JvsSharp
open Pattern

/-- The word that a text breaks off in begins behind the last other character. -/
theorem cut_last_word (pre : Line) : ∃ before start, pre = before ++ start ∧
    (behind none before).any Unicode.isWord = false ∧ IsWordText start := by
  refine ⟨(pre.reverse.dropWhile Unicode.isWord).reverse,
    (pre.reverse.takeWhile Unicode.isWord).reverse, ?_, ?_, fun c hc =>
      List.all_eq_true.1 List.all_takeWhile c (List.mem_reverse.1 hc)⟩
  · rw [← List.reverse_append, List.takeWhile_append_dropWhile, List.reverse_reverse]
  · have hnot := List.head?_dropWhile_not Unicode.isWord pre.reverse
    cases hd : pre.reverse.dropWhile Unicode.isWord with
    | nil => rfl
    | cons c cs =>
      rw [hd] at hnot
      rw [List.reverse_cons, behind_concat]
      simpa using hnot

section
variable (pre v rest : Line) (hne : v ≠ []) (hv : IsWordText v)
include hne hv

theorem prefix_of_words (hpre : (behind none pre).any Unicode.isWord = false) :
    ∃ w ∈ words (pre ++ (v ++ rest)), v <+: w := by
  obtain ⟨more, after, rfl, hmore, hafter⟩ := cut_first_word rest
  refine ⟨v ++ more, (mem_words_iff _ _).2 ⟨pre, after, ?_, hpre, ?_, hv.append hmore, hafter⟩,
    List.prefix_append v more⟩
  · rw [List.append_assoc]
  · simp [hne]

theorem suffix_of_words (hrest : EndsWord rest) :
    ∃ w ∈ words (pre ++ (v ++ rest)), v <:+ w := by
  obtain ⟨before, start, rfl, hbefore, hstart⟩ := cut_last_word pre
  refine ⟨start ++ v, (mem_words_iff _ _).2
    ⟨before, rest, ?_, hbefore, ?_, hstart.append hv, hrest⟩, List.suffix_append start v⟩
  · simp only [List.append_assoc]
  · simp [hne]

end

namespace Plugin

def lengthTexts : List Line := ["length".toList, "Length".toList]

theorem areWords_lengthTexts : AreWords lengthTexts := areWords_of_all _ (by decide)

def textEdits : List Edit :=
  Rules.substitutions.take 9 ++ (Rules.substitutions.drop 10).take 1 ++ Rules.substitutions.drop 13

theorem substitutions_eq : Rules.substitutions =
    Rules.substitutions.take 9 ++ Rules.finalWord :: ((Rules.substitutions.drop 10).take 1 ++
      Rules.throwsClause :: Rules.lengthMember :: Rules.substitutions.drop 13) := rfl

theorem throwsClause_absent (line : Line) (h : ∀ w ∈ words line, ¬"throws".toList <:+ w) :
    Rules.throwsClause.pattern.Absent line := by
  refine absent_of_forall _ line fun pre rest hline => matchAt_eq_none _ _ fun r hr => ?_
  simp only [Rules.throwsClause, all, List.foldr_cons, ends, List.mem_flatMap] at hr
  obtain ⟨s, hs, t, ht, u, hu, -⟩ := hr
  obtain ⟨xs, hleads, -⟩ := skipWhile_passes .blank (behind none pre) rest
  rw [gap, ends, List.mem_singleton] at hs
  rw [lit, ends, List.mem_map] at ht
  obtain ⟨c, hc, rfl⟩ := ht
  obtain ⟨hedge, -⟩ := mem_ends_edge _ _ _ hu
  have htext := skip?_leads "throws".toList s.1 c (by simpa using hc)
  have hword : IsWordText "throws".toList := isWordText_of_all _ (by decide)
  have hends : EndsWord c.rest := Place.endsWord_of_atEdge htext (by decide) hword hedge
  have hcut : line = (pre ++ xs) ++ ("throws".toList ++ c.rest) := by
    rw [hline, show rest = xs ++ s.1.rest by rw [hs]; exact hleads.1, htext.1, List.append_assoc]
  obtain ⟨w, hw, hthrows⟩ := suffix_of_words (pre ++ xs) _ c.rest (by decide) hword hends
  exact h w (hcut ▸ hw) hthrows

theorem lengthMember_absent (line : Line)
    (h : ∀ w ∈ words line, ¬"length".toList <+: w ∧ ¬"Length".toList <+: w) :
    Rules.lengthMember.pattern.Absent line := by
  refine absent_of_forall _ line fun pre rest hline => matchAt_eq_none _ _ fun r hr => ?_
  simp only [Rules.lengthMember, all, List.foldr_cons, ends, List.mem_flatMap] at hr
  obtain ⟨s, hs, t, ht, -⟩ := hr
  obtain ⟨hedge, rfl⟩ := mem_ends_edge _ _ _ hs
  obtain ⟨v, hv, hleads⟩ := (chooses_anyOf "length" ["Length"]).only _ _ _ ht
  have hrest : rest = v ++ t.1.rest := hleads.1
  obtain ⟨hne, hword⟩ := areWords_lengthTexts v hv
  have hout : (behind none pre).any Unicode.isWord = false :=
    Place.outside_of_atEdge hleads hne hword hedge
  obtain ⟨w, hw, hprefix⟩ := prefix_of_words pre v t.1.rest hne hword hout
  rw [← hrest, ← hline] at hw
  simp only [List.map_cons, List.map_nil, List.mem_cons, List.not_mem_nil, or_false] at hv
  rcases hv with rfl | rfl
  · exact (h w hw).1 hprefix
  · exact (h w hw).2 hprefix

theorem finalWord_apply (line : Line) (h : "final".toList ∉ words line) :
    Rules.finalWord.apply line = line := by
  have hwords : AreWords ["final".toList] := areWords_of_all _ (by decide)
  have hmap := replaceAll_words (chooses_text "final".toList) hwords Rules.finalWord.render
    (fun _ => "readonly".toList) (fun _ _ _ => rfl) line
  refine hmap.trans (mapWords_eq_self _ line fun w hw => if_neg fun hmem => ?_)
  exact h (List.mem_singleton.1 hmem ▸ hw)

end Plugin

theorem Rules.stripImports_eq_self (c : Char) (rest : Line) (hc : Unicode.isBlank c = false)
    (hi : c ≠ 'i') : stripImports (c :: rest) = c :: rest := by
  have htrim : Text.trimStart (c :: rest) = c :: rest := by
    rw [Text.trimStart, List.dropWhile_cons, hc]
    rfl
  have himport : "import ".toList.isPrefixOf (c :: rest) = false := by
    have hfirst : ('i' == c) = false := beq_false_of_ne (Ne.symm hi)
    rw [show "import ".toList = 'i' :: "mport ".toList by decide, List.isPrefixOf, hfirst]
    rfl
  rw [stripImports, htrim, himport]
  rfl

theorem Text.trimEnd_eq_self (line : Line) (h : line.getLast?.any Unicode.isBlank = false) :
    trimEnd line = line := by
  rcases List.eq_nil_or_concat line with rfl | ⟨xs, c, rfl⟩
  · rfl
  · have hc : Unicode.isBlank c = false := by simpa using h
    rw [trimEnd, trimStart, List.concat_eq_append, List.reverse_append, List.reverse_singleton,
      List.singleton_append, List.dropWhile_cons, hc]
    simp

theorem Rules.scriptAttribute_absent (o : Outline) (line : Line) (hline : o.Fits line)
    (h : (scriptAttribute.reach ⟨none, o⟩).isEmpty = true) : scriptAttribute.Absent line := by
  refine absent_of_forall _ line fun pre rest hrest => ?_
  cases pre with
  | nil =>
    have hfits : o.Fits rest := by
      rw [hrest] at hline
      exact hline
    exact matchAt_of_reach _ ⟨none, o⟩ _ ⟨hfits, View.knows_none none⟩ (List.isEmpty_iff.1 h)
  | cons c pre =>
    refine matchAt_eq_none _ _ fun r hr => ?_
    rw [scriptAttribute, all, List.foldr_cons, ends, List.mem_flatMap] at hr
    obtain ⟨s, hs, -⟩ := hr
    obtain ⟨hnone, -⟩ := mem_ends_start _ _ _ hs
    have hsome : (behind none (c :: pre)).isSome = true := by
      rcases List.eq_nil_or_concat pre with rfl | ⟨xs, d, rfl⟩
      · rfl
      · rw [List.concat_eq_append, ← List.cons_append, behind_append]
        rfl
    have hbefore : behind none (c :: pre) = none := Option.isNone_iff_eq_none.1 hnone
    rw [hbefore] at hsome
    exact Bool.false_ne_true hsome

def pluginRules : List Rule :=
  [.stripImports, .loggerDeclaration, .loggerPrint, .executeSignature, .domainSubstitutions,
   .trimTrailing]

structure PluginFacts (sh : Shape) : Prop where
  spaced : sh.isSpaced = true
  no_final : "final".toList ∉ sh.fixedWords
  no_word : ∀ w ∈ sh.fixedWords,
    ¬"throws".toList <:+: w ∧ ¬"length".toList <+: w ∧ ¬"Length".toList <+: w
  no_text : ∀ e ∈ Rules.loggerEdits ++ ([Rules.printCall, Rules.executeHeader] ++ Plugin.textEdits),
    e.pattern.passes sh.outline = true
  no_attribute : (Rules.scriptAttribute.reach ⟨none, sh.outline⟩).isEmpty = true

def Identifier.IsPlain (n : Identifier) : Prop :=
  ∀ w ∈ ["length".toList, "throws".toList], ¬w <:+: n.text

section
variable (ts : List Token) (h : PluginFacts (shape ts))
include h

theorem Plugin.substitutions_keep (hnames : ∀ n, .name n ∈ ts → n.IsPlain) :
    Edit.applyAll Rules.substitutions (phrase ts) = phrase ts := by
  have hfinal : "final".toList ∉ words (phrase ts) := by
    intro hmem
    rcases mem_words_phrase ts h.spaced _ hmem with hmem | ⟨n, -, heq⟩
    · exact h.no_final hmem
    · have hreserved : "final".toList ∈ reservedWords.map String.toList := by decide
      exact n.free (heq ▸ hreserved)
  have hthrows : ∀ w ∈ words (phrase ts), ¬"throws".toList <:+: w := by
    intro w hw
    rcases mem_words_phrase ts h.spaced w hw with hw | ⟨n, hn, rfl⟩
    · exact (h.no_word w hw).1
    · exact hnames n hn _ (by simp)
  have hlength : ∀ w ∈ words (phrase ts), ¬"length".toList <+: w ∧ ¬"Length".toList <+: w := by
    intro w hw
    rcases mem_words_phrase ts h.spaced w hw with hw | ⟨n, hn, rfl⟩
    · exact (h.no_word w hw).2
    · refine ⟨fun hprefix => hnames n hn _ (by simp) hprefix.isInfix, fun hprefix => ?_⟩
      -- A name starts in lower case.
      obtain ⟨c, rest, htext, hc, -⟩ := n.form
      obtain ⟨tail, htail⟩ := hprefix
      rw [htext, show "Length".toList = 'L' :: "ength".toList by decide, List.cons_append,
        List.cons.injEq] at htail
      rw [← htail.1] at hc
      exact absurd hc (by decide)
  have htext : ∀ e ∈ Plugin.textEdits, e.apply (phrase ts) = phrase ts := fun e he =>
    e.apply_absent _ (absent_of_passes _ _ _ (h.no_text e (by simp [he])) (fits_phrase ts))
  refine foldl_same _ _ _ fun e he => ?_
  rw [Plugin.substitutions_eq] at he
  simp only [List.mem_append, List.mem_cons] at he
  rcases he with he | rfl | he | rfl | rfl | he
  · exact htext e (by simp [Plugin.textEdits, he])
  · exact Plugin.finalWord_apply _ hfinal
  · exact htext e (List.mem_append_left _ (List.mem_append_right _ he))
  · exact Edit.apply_absent _ _ (Plugin.throwsClause_absent _ fun w hw hend =>
      hthrows w hw hend.isInfix)
  · exact Edit.apply_absent _ _ (Plugin.lengthMember_absent _ hlength)
  · exact htext e (List.mem_append_right _ he)

/-- The rules that only plugin scripts have leave such a phrase alone. -/
theorem turns_plugin (index : Index) (hnames : ∀ n, .name n ∈ ts → n.IsPlain) (c : Char)
    (rest : Line) (hline : phrase ts = c :: rest) (hc : Unicode.isBlank c = false) (hi : c ≠ 'i')
    (hlast : (phrase ts).getLast?.any Unicode.isBlank = false) :
    Turns index pluginRules (phrase ts) (phrase ts) := by
  have habsent : ∀ e ∈ Rules.loggerEdits ++ ([Rules.printCall, Rules.executeHeader] ++
      Plugin.textEdits), e.pattern.Absent (phrase ts) := fun e he =>
    absent_of_passes _ _ _ (h.no_text e he) (fits_phrase ts)
  have htrim : Text.trimStart (phrase ts) = phrase ts := by
    rw [hline, Text.trimStart, List.dropWhile_cons, hc]
    rfl
  have hattribute := occursIn_absent _ _
    (Rules.scriptAttribute_absent _ _ (fits_phrase ts) h.no_attribute)
  have himports : Rules.stripImports (phrase ts) = phrase ts := by
    rw [hline]
    exact Rules.stripImports_eq_self c rest hc hi
  have hlogger : Rules.loggerDeclaration (phrase ts) = phrase ts :=
    Edit.applyAll_absent _ _ fun e he => habsent e (by simp [he])
  have hprint : Rules.loggerPrint (phrase ts) = phrase ts :=
    Edit.apply_absent _ _ (habsent _ (by simp))
  have hexecute : Rules.executeSignature (phrase ts) = phrase ts :=
    Edit.apply_absent _ _ (habsent _ (by simp))
  have hsubstitutions : Rules.domainSubstitutions (phrase ts) = phrase ts := by
    rw [Rules.domainSubstitutions, htrim, hattribute, Plugin.substitutions_keep ts h hnames]
    rfl
  refine (Turns.single (fun _ => rfl) himports).append ?_
  refine (Turns.single (fun _ => rfl) hlogger).append ?_
  refine (Turns.single (fun _ => rfl) hprint).append ?_
  refine (Turns.single (fun _ => rfl) hexecute).append ?_
  refine (Turns.single (fun _ => rfl) hsubstitutions).append ?_
  exact Turns.single (fun _ => rfl) (Text.trimEnd_eq_self _ hlast)

end

end JvsSharp
