import JvsSharp.Proofs.LoopHeaders
import JvsSharp.Proofs.MemberCalls
import JvsSharp.Proofs.PluginPhrases
import JvsSharp.Proofs.Shedding
import JvsSharp.Proofs.Unrecognised
import JvsSharp.Proofs.WordRuns

/-!
# Keywords within longer words

On a line without a parenthesis four substitutions of plugin scripts are left.
Only `final` is looked for between two word edges. A clause is deleted from
any word on that ends in `throws`, a word that starts with `length` is
capitalized, and the base of a class is replaced behind any word that ends in
`class`. So a line without these keywords as whole words is left alone if and
only if no longer word of it holds one in such a place.
-/

set_option autoImplicit false

namespace JvsSharp
open Pattern

/-- Without the character, the edits that look for it drop out of a sequence. -/
theorem Edit.applyAll_without (d : Char) (es : List Edit)
    (hes : ∀ e ∈ es, e.pattern.needs [[d]] = true ∨ e.Spares d) (line : Line) (h : d ∉ line) :
    applyAll es line = applyAll (es.filter fun e => !e.pattern.needs [[d]]) line := by
  induction es generalizing line with
  | nil => rfl
  | cons e es ih =>
    have hrest : ∀ e' ∈ es, e'.pattern.needs [[d]] = true ∨ e'.Spares d := fun e' he' =>
      hes e' (by simp [he'])
    change applyAll es (e.apply line) = _
    cases hneeds : e.pattern.needs [[d]] with
    | true =>
      have habsent : e.pattern.Absent line := absent_of_needs [[d]] e.pattern hneeds line (by
        intro w hw hcontained
        rw [List.mem_singleton.1 hw] at hcontained
        exact h (hcontained.subset (by simp)))
      rw [e.apply_absent line habsent, ih hrest line h, List.filter_cons_of_neg (by simp [hneeds])]
    | false =>
      have hspares := (hes e (by simp)).resolve_left (by simp [hneeds])
      rw [ih hrest _ (e.apply_spares d hspares line h),
        List.filter_cons_of_pos (by simp [hneeds])]
      rfl

/-- A text of word characters at the start of a run does not go beyond it. -/
theorem prefix_of_run (v xs w rest : Line) (hv : IsWordText v) (hw : IsWordText w)
    (hrest : EndsWord rest) (h : v ++ xs = w ++ rest) : v <+: w := by
  obtain ⟨more, after, rfl, hmore, hafter⟩ := cut_first_word xs
  rw [← List.append_assoc] at h
  rw [← run_unique (v ++ more) w after rest (hv.append hmore) hw hafter hrest h]
  exact List.prefix_append v more

section
variable (f : Line → Line) (hf : ∀ w, (f w).length = w.length)
include hf

theorem length_mapWords (line : Line) : (mapWords f line).length = line.length := by
  have hflush : ∀ w, (flush f w).length = w.length := by
    intro w
    rw [flush]
    split
    · next hnil => rw [hnil]
    · exact hf w
  have hfrom : ∀ w, (mapWordsFrom f w line).length = w.length + line.length := by
    induction line with
    | nil => exact hflush
    | cons c rest ih =>
      intro w
      rw [mapWordsFrom]
      split
      · rw [ih, List.length_append, List.length_cons, List.length_cons, List.length_nil]
        omega
      · rw [List.length_append, hflush, List.length_cons, List.length_cons, ih, List.length_nil]
        omega
  rw [mapWords, hfrom, List.length_nil, Nat.zero_add]

/-- Mapping words to texts of the same length changes a line if it changes one of its words. -/
theorem mapWords_eq_self_iff (line : Line) :
    mapWords f line = line ↔ ∀ w ∈ words line, f w = w := by
  refine ⟨fun h w hw => ?_, mapWords_eq_self f line⟩
  obtain ⟨pre, rest, rfl, hpre, hne, hword, hrest⟩ := (mem_words_iff w line).1 hw
  rw [behind_eq_getLast?] at hpre
  rw [mapWords_apart f pre _ (.inl hpre), mapWords_run f w rest hword hrest, flush,
    if_neg hne] at h
  have htail := (List.append_inj h (length_mapWords f hf pre)).2
  exact (List.append_inj htail (hf w)).1

end

structure ScriptHeader where
  space : Blanks
  spaced : space.1 ≠ []
  name : Word
  beforeColon : Blanks
  behindColon : Blanks

namespace ScriptHeader

def stem (header : ScriptHeader) : Line :=
  "class".toList ++ (header.space.1 ++ (header.name.1 ++ (header.beforeColon.1 ++
    ':' :: header.behindColon.1)))

def text (header : ScriptHeader) : Line := header.stem ++ "IScript".toList

theorem stem_append (header : ScriptHeader) (rest : Line) :
    header.stem ++ rest = "class".toList ++ (header.space.1 ++ (header.name.1 ++
      (header.beforeColon.1 ++ ':' :: (header.behindColon.1 ++ rest)))) := by
  delta stem
  simp only [List.append_assoc, List.cons_append]

end ScriptHeader

def HeadsScript (line : Line) : Prop :=
  ∃ (pre : Line) (header : ScriptHeader) (rest : Line),
    line = pre ++ (header.text ++ rest) ∧ EndsWord rest

namespace Plugin

def wordEdits : List Edit :=
  [Rules.finalWord, Rules.throwsClause, Rules.lengthMember, Rules.scriptBase]

theorem substitutions_without_parenthesis (line : Line) (h : '(' ∉ line) :
    Edit.applyAll Rules.substitutions line = Edit.applyAll wordEdits line := by
  have hplain : ∀ e ∈ Rules.substitutions,
      e.pattern.needs [['(']] = true ∨ e.template.all (Part.isPlain '(') = true := by
    decide +kernel
  have hkept : (Rules.substitutions.filter fun e => !e.pattern.needs [['(']]) = wordEdits := rfl
  rw [Edit.applyAll_without '(' _ (fun e he => (hplain e he).imp_right (e.spares_of_plain '('))
    line h, hkept]

/-! ### The clause that `throws` opens -/

theorem throwsClause_found (line w : Line) (hw : w ∈ words line) (h : "throws".toList <:+ w) :
    Rules.throwsClause.pattern.occursIn line = true := by
  obtain ⟨pre, rest, rfl, -, -, hword, hrest⟩ := (mem_words_iff w line).1 hw
  obtain ⟨start, rfl⟩ := h
  rw [occursIn_iff]
  refine ⟨pre ++ start, "throws".toList ++ rest, by simp only [List.append_assoc], ?_⟩
  have hedge := Place.atEdge_behind_word (behind none (pre ++ start)) "throws".toList rest
    (by decide) (fun c hc => hword c (List.mem_append_right _ hc)) hrest
  have hstops : Stops .blank ("throws".toList ++ rest) := stops_of_head .blank _ _ (by decide)
  rw [matchAt, Rules.throwsClause, matchK_all_cons, gap, matchK_span_none .blank _ _ _ _ hstops,
    matchK_all_cons, lit, matchK_text, matchK_all_cons, matchK_edge _ _ _ hedge]
  simp [all, opt, matchK]

theorem throwsClause_hit (c : Place) (h : Hit)
    (hm : Rules.throwsClause.pattern.matchAt c = some h) :
    ∃ xs, h.text = xs ++ h.group 1 ∧ "throws".toList <:+: xs := by
  rw [matchAt_eq, Option.map_eq_some_iff] at hm
  obtain ⟨r, hr, rfl⟩ := hm
  have hends := List.mem_of_mem_head? hr
  simp only [Rules.throwsClause, mem_ends_all_cons] at hends
  obtain ⟨s, hs, t, ht, u, hu, v, hv, w, hw, hend⟩ := hends
  obtain ⟨blanks, hblanks⟩ := mem_ends_gap _ _ s hs
  have hthrows := mem_ends_text "throws".toList _ _ t ht
  obtain ⟨-, rfl⟩ := mem_ends_edge _ _ _ hu
  obtain ⟨clause, hclause⟩ := ends_leads _ _ _ v hv
  obtain ⟨sign, hsign⟩ := ends_leads _ _ _ w hw
  obtain rfl : r = w := List.mem_singleton.1 hend
  rw [ends, List.mem_map] at hw
  obtain ⟨q, hq, rfl⟩ := hw
  have hrest : c.rest = (blanks.1 ++ ("throws".toList ++ clause)) ++ (sign ++ q.1.rest) := by
    rw [hblanks, hthrows.1, hclause.1, hsign.1]
    simp only [List.append_assoc]
  refine ⟨blanks.1 ++ ("throws".toList ++ clause), ?_, ?_⟩
  · change textBetween c.rest q.1.rest = _ ++ textBetween v.1.rest q.1.rest
    rw [hrest, show v.1.rest = sign ++ q.1.rest from hsign.1, textBetween_left, ← List.append_assoc,
      textBetween_left]
  · exact ⟨blanks.1, clause, by simp only [List.append_assoc]⟩

/-! ### Words that start with `length` -/

def capitalLength (w : Line) : Line :=
  if "length".toList <+: w then "Length".toList ++ w.drop 6 else w

theorem length_capitalLength (w : Line) : (capitalLength w).length = w.length := by
  rw [capitalLength]
  split
  · next h =>
    have hle := h.length_le
    have hlength : "length".toList.length = 6 ∧ "Length".toList.length = 6 := by decide
    rw [List.length_append, List.length_drop]
    omega
  · rfl

theorem capitalLength_eq_self_iff (w : Line) :
    capitalLength w = w ↔ ¬"length".toList <+: w := by
  rw [capitalLength]
  split
  · next h =>
    refine ⟨fun heq => ?_, fun hnot => absurd h hnot⟩
    obtain ⟨more, rfl⟩ := h
    have hhead : some 'L' = some 'l' := congrArg List.head? heq
    exact absurd hhead (by decide)
  · next h => exact ⟨fun _ => h, fun _ => rfl⟩

theorem capitalLength_start (v more : Line) (hv : v ∈ lengthTexts) :
    capitalLength (v ++ more) = "Length".toList ++ more := by
  rw [lengthTexts, List.mem_cons, List.mem_singleton] at hv
  rcases hv with rfl | rfl
  · rw [capitalLength, if_pos (List.prefix_append _ more), List.drop_left' (by decide)]
  · refine (capitalLength_eq_self_iff _).2 fun hprefix => ?_
    have hhead : 'l' = 'L' := by
      obtain ⟨tail, htail⟩ := hprefix
      exact Option.some.inj (congrArg List.head? htail)
    exact absurd hhead (by decide)

def callSigns : CharClass := .union .blank (.oneOf ['(', ')'])

theorem callSigns_of_isWord {c : Char} (h : Unicode.isWord c = true) : callSigns.mem c = false := by
  have hsigns : ∀ d ∈ ['(', ')'], Unicode.isWord d = false := by decide
  rw [callSigns, CharClass.mem, CharClass.mem, not_isBlank_of_isWord h, Bool.false_or,
    Bool.eq_false_iff]
  intro hmem
  have hnot := hsigns c (List.contains_iff_mem.1 hmem)
  rw [h] at hnot
  exact absurd hnot.symm Bool.false_ne_true

theorem lengthMember_hit (c : Place) (h : Hit)
    (hm : Rules.lengthMember.pattern.matchAt c = some h) :
    c.before.any Unicode.isWord = false ∧ ∃ v more, h.text = v ++ more ∧
      v ∈ lengthTexts ∧ ∀ x ∈ more, callSigns.mem x = true := by
  rw [matchAt_eq, Option.map_eq_some_iff] at hm
  obtain ⟨r, hr, rfl⟩ := hm
  have hends := List.mem_of_mem_head? hr
  rw [Rules.lengthMember, mem_ends_all_cons] at hends
  obtain ⟨s, hs, hends⟩ := hends
  rw [mem_ends_all_cons] at hends
  obtain ⟨t, ht, hends⟩ := hends
  obtain ⟨hedge, rfl⟩ := mem_ends_edge _ _ _ hs
  obtain ⟨v, hv, hleads⟩ := (chooses_anyOf "length" ["Length"]).only _ _ _ ht
  obtain ⟨more, hmore, hmem⟩ := ends_takes callSigns _ (by decide) _ _ r hends
  obtain ⟨hne, hword⟩ := areWords_lengthTexts v hv
  refine ⟨Place.outside_of_atEdge hleads hne hword hedge, v, more, ?_, hv, hmem⟩
  change textBetween c.rest r.1.rest = _
  rw [hleads.1, hmore.1, ← List.append_assoc, textBetween_left]

theorem lengthMember_beginsWords : Rules.lengthMember.pattern.BeginsWords := by
  intro c h hm
  obtain ⟨hbefore, v, more, htext, hv, -⟩ := lengthMember_hit c h hm
  obtain ⟨hne, hword⟩ := areWords_lengthTexts v hv
  refine ⟨hbefore, ?_⟩
  rw [← matchAt_text _ c h hm, htext, List.append_assoc]
  exact not_endsWord_append v _ hne hword

theorem lengthMember_alone (b : Option Char) (v tail : Line) (hb : b.any Unicode.isWord = false)
    (hv : v ∈ lengthTexts) (htail : Stops callSigns tail) :
    ∃ h, Rules.lengthMember.pattern.matchAt ⟨b, v ++ tail⟩ = some h ∧ h.text = v := by
  have hlengths : ∀ v ∈ lengthTexts, v.length = 6 := by decide
  have hedge : (⟨b, v ++ tail⟩ : Place).atEdge = true :=
    Place.atEdge_word b v _ hb (areWords_lengthTexts v hv).1 (areWords_lengthTexts v hv).2
  obtain ⟨m, hm⟩ := (chooses_anyOf "length" ["Length"]).any v hv ⟨b, v ++ tail⟩
    ⟨behind b v, tail⟩ [] ⟨rfl, rfl⟩
  have hrest : ∀ c m, ∃ r, r ∈ (all [gap, opt (all ["(", gap, ")"])]).ends c m := fun c m =>
    ⟨(Place.skipWhile .blank c.before c.rest, m), by simp [all, opt, gap, ends]⟩
  have hsome : (Rules.lengthMember.pattern.matchAt ⟨b, v ++ tail⟩).isSome = true := by
    obtain ⟨r, hr⟩ := hrest ⟨behind b v, tail⟩ m
    have hstart : ((⟨b, v ++ tail⟩, []) : Place × List Mark) ∈
        Pattern.edge.ends ⟨b, v ++ tail⟩ [] := by
      simp [ends, hedge]
    rw [matchAt_isSome_iff]
    exact ⟨r, (mem_ends_all_cons _ _ _ _ _).2
      ⟨_, hstart, (mem_ends_all_cons _ _ _ _ _).2 ⟨_, hm, hr⟩⟩⟩
  obtain ⟨h, hh⟩ := Option.isSome_iff_exists.1 hsome
  obtain ⟨-, v', more, htext, hv', hmem⟩ := lengthMember_hit _ h hh
  have hcut := matchAt_text _ _ h hh
  rw [htext, List.append_assoc] at hcut
  obtain ⟨rfl, hsigns⟩ := List.append_inj hcut ((hlengths v' hv').trans (hlengths v hv).symm)
  have hnil : more = [] := by
    cases more with
    | nil => rfl
    | cons x more =>
      rw [Stops, ← hsigns] at htail
      exact absurd (htail.symm.trans (hmem x (by simp))) Bool.false_ne_true
  exact ⟨h, hh, by rw [htext, hnil, List.append_nil]⟩

/-- Where no such sign follows a word that is one of the texts, the words are replaced one by
one. -/
theorem lengthMember_apply (line : Line)
    (h : ∀ pre v rest, line = pre ++ (v ++ rest) → v ∈ lengthTexts →
      (behind none pre).any Unicode.isWord = false → EndsWord rest → Stops callSigns rest) :
    Rules.lengthMember.apply line = mapWords capitalLength line := by
  refine replaceAll_heads lengthMember_beginsWords _ _ line
    fun pre w rest hline hpre hne hw hrest => ?_
  by_cases hstart : ∃ v ∈ lengthTexts, v <+: w
  · obtain ⟨v, hv, more, rfl⟩ := hstart
    have htail : Stops callSigns (more ++ rest) := by
      cases more with
      | nil =>
        rw [List.append_nil] at hline
        exact h pre v rest hline hv hpre hrest
      | cons c more => exact stops_cons _ c _ (callSigns_of_isWord (hw c (by simp)))
    obtain ⟨hit, hm, htext⟩ := lengthMember_alone (behind none pre) v _ hpre hv htail
    refine .hit hit more (by rwa [List.append_assoc]) ?_ (by rw [htext]) ?_
    · rw [htext]
      exact (areWords_lengthTexts v hv).1
    · exact capitalLength_start v more hv
  · refine .none ?_ ?_
    · cases hm : Rules.lengthMember.pattern.matchAt ⟨behind none pre, w ++ rest⟩ with
      | none => rfl
      | some hit =>
        obtain ⟨-, v, more, htext, hv, -⟩ := lengthMember_hit _ hit hm
        have hcut := matchAt_text _ _ hit hm
        rw [htext, List.append_assoc] at hcut
        have hword := (areWords_lengthTexts v hv).2
        exact absurd ⟨v, hv, prefix_of_run v _ w rest hword hw hrest hcut⟩ hstart
    · exact (capitalLength_eq_self_iff w).2 fun hprefix =>
        hstart ⟨_, by simp [lengthTexts], hprefix⟩

/-! ### The base of a script -/

theorem header_of_ends (c : Place) (r : Place × List Mark)
    (h : r ∈ Rules.scriptBase.pattern.ends c []) :
    ∃ header : ScriptHeader, c.rest = header.text ++ r.1.rest ∧ EndsWord r.1.rest := by
  simp only [Rules.scriptBase, mem_ends_all_cons] at h
  obtain ⟨s, hs, t, ht, u, hu, hr⟩ := h
  rw [ends, List.mem_map] at hs
  obtain ⟨s, hs, rfl⟩ := hs
  simp only [mem_ends_all_cons] at hs
  obtain ⟨a, ha, b, hb, d, hd, e, he, f, hf, g, hg, hs⟩ := hs
  have hclass := mem_ends_text "class".toList _ _ a ha
  obtain ⟨space, hne, hblank, hspace, -⟩ := mem_ends_chars .blank _ _ b hb
  obtain ⟨name, hne', hword, hname, -⟩ := mem_ends_chars .word _ _ d hd
  obtain ⟨before, hbefore⟩ := mem_ends_gap _ _ e he
  have hcolon := mem_ends_text [':'] _ _ f hf
  obtain ⟨behind, hbehind⟩ := mem_ends_gap _ _ g hg
  have hbase := mem_ends_text "IScript".toList _ _ t ht
  obtain ⟨hedge, rfl⟩ := mem_ends_edge _ _ _ hu
  obtain rfl : s = g := List.mem_singleton.1 hs
  obtain rfl : r = t := List.mem_singleton.1 hr
  refine ⟨⟨⟨space, hblank⟩, hne, ⟨name, hne', hword⟩, before, behind⟩, ?_,
    Place.endsWord_of_atEdge hbase (by decide) (isWordText_of_all _ (by decide)) hedge⟩
  rw [hclass.1, hspace.1, hname.1, hbefore, hcolon.1, hbehind,
    show s.1.rest = "IScript".toList ++ r.1.rest from hbase.1]
  rw [ScriptHeader.text, List.append_assoc, ScriptHeader.stem_append]
  rfl

theorem scriptBase_found (b : Option Char) (header : ScriptHeader) (rest : Line)
    (hrest : EndsWord rest) :
    ∃ h, Rules.scriptBase.pattern.matchAt ⟨b, header.text ++ rest⟩ = some h ∧ h.text = header.text ∧
      Rules.scriptBase.render h = header.stem ++ "AbstractGenericScript".toList := by
  let tail : Line := "IScript".toList ++ rest
  let colon : Line := header.beforeColon.1 ++ ':' :: (header.behindColon.1 ++ tail)
  let found : Hit :=
    ⟨b, textBetween (header.text ++ rest) rest, [⟨1, header.text ++ rest, tail⟩], rest⟩
  have htext : header.text ++ rest =
      "class".toList ++ (header.space.1 ++ (header.name.1 ++ colon)) := by
    rw [ScriptHeader.text, List.append_assoc, ScriptHeader.stem_append]
  have hname : Stops .blank (header.name.1 ++ colon) :=
    ContainerShape.stops_blank_word header.name.1 _ header.name.2.1 header.name.2.2
  have hcolon : Stops .word colon :=
    TypeExpr.endsWord_blanks header.beforeColon _ (endsWord_cons ':' _ (by decide))
  refine ⟨found, ?_, textBetween_left _ _, ?_⟩
  · rw [htext, matchAt, Rules.scriptBase, matchK_all_cons, matchK, matchK_all_cons, lit,
      matchK_text, matchK_all_cons, space, matchK_chars .blank _ _ _ _ _ header.spaced header.space.2 hname,
      matchK_all_cons, word, matchK_chars .word _ _ _ _ _ header.name.2.1 header.name.2.2 hcolon,
      matchK_all_cons, gap,
      matchK_span .blank _ _ _ _ _ header.beforeColon.2 (stops_cons .blank ':' _ (by decide)),
      matchK_all_cons, lit, show ":".toList = [':'] from rfl, matchK_char, matchK_all_cons,
      matchK_span .blank _ _ _ _ _ header.behindColon.2 (stops_of_head .blank _ _ (by decide)),
      matchK_all_nil, matchK_all_cons, lit, matchK_text, matchK_all_cons,
      matchK_edge _ _ _ (Place.atEdge_behind_word _ _ rest (by decide)
        (isWordText_of_all _ (by decide)) hrest), matchK_all_nil]
    rw [← htext]
  · have hgroup : found.group 1 = header.stem := by
      change textBetween (header.text ++ rest) tail = header.stem
      rw [ScriptHeader.text, List.append_assoc, textBetween_left]
    simp only [Edit.render, Rules.scriptBase, List.flatMap_cons, List.flatMap_nil, Part.render,
      hgroup, List.append_nil]

theorem scriptBase_hit (c : Place) (h : Hit) (hm : Rules.scriptBase.pattern.matchAt c = some h) :
    ∃ header : ScriptHeader, h.text = header.text ∧
      Rules.scriptBase.render h = header.stem ++ "AbstractGenericScript".toList := by
  obtain ⟨r, hr⟩ := (matchAt_isSome_iff Rules.scriptBase.pattern c).1 (by rw [hm]; rfl)
  obtain ⟨header, hrest, hends⟩ := header_of_ends c r hr
  obtain ⟨h', hm', htext, hrender⟩ := scriptBase_found c.before header r.1.rest hends
  rw [← hrest] at hm'
  obtain rfl : h = h' := Option.some.inj (hm.symm.trans hm')
  exact ⟨header, htext, hrender⟩

theorem scriptBase_occursIn_iff (line : Line) :
    Rules.scriptBase.pattern.occursIn line = true ↔ HeadsScript line := by
  rw [occursIn_iff]
  constructor
  · rintro ⟨pre, rest, hline, hsome⟩
    obtain ⟨r, hr⟩ := (matchAt_isSome_iff _ _).1 hsome
    obtain ⟨header, hrest, hends⟩ := header_of_ends _ r hr
    exact ⟨pre, header, r.1.rest, hline.trans (congrArg (pre ++ ·) hrest), hends⟩
  · rintro ⟨pre, header, rest, hline, hends⟩
    obtain ⟨h, hm, -⟩ := scriptBase_found (behind none pre) header rest hends
    exact ⟨pre, _, hline, by rw [hm]; rfl⟩

/-! ### All of them together -/

def isShed (c : Char) : Bool := Unicode.isBlank c || ['h', 'l', 'I', '(', ')'].contains c

theorem throwsClause_sheds (c : Place) (h : Hit)
    (hm : Rules.throwsClause.pattern.matchAt c = some h) :
    (Rules.throwsClause.render h).countP isShed < h.text.countP isShed := by
  obtain ⟨xs, htext, hthrows⟩ := throwsClause_hit c h hm
  have hrender : Rules.throwsClause.render h = h.group 1 := List.append_nil _
  have hkeyword : "throws".toList.countP isShed = 1 := by decide
  have hmore : "throws".toList.countP isShed ≤ xs.countP isShed := hthrows.sublist.countP_le
  rw [hrender, htext, List.countP_append]
  omega

theorem lengthMember_sheds (c : Place) (h : Hit)
    (hm : Rules.lengthMember.pattern.matchAt c = some h) :
    Sheds isShed h.text (Rules.lengthMember.render h) := by
  obtain ⟨-, v, more, htext, hv, hmore⟩ := lengthMember_hit c h hm
  have hrender : Rules.lengthMember.render h = "Length".toList := rfl
  have hcount : more.countP isShed = more.length := List.countP_eq_length.2 fun x hx => by
    have hsigns : ∀ c ∈ ['(', ')'], isShed c = true := by decide
    rcases Bool.or_eq_true_iff.1 (hmore x hx) with hblank | hsign
    · exact Bool.or_eq_true_iff.2 (.inl hblank)
    · exact hsigns x (List.contains_iff_mem.1 hsign)
  have hkeywords : "length".toList.countP isShed = 2 ∧ "Length".toList.countP isShed = 1 := by
    decide
  rw [hrender, htext, Sheds, List.countP_append]
  rw [lengthTexts, List.mem_cons, List.mem_singleton] at hv
  rcases hv with rfl | rfl
  · left
    omega
  · cases more with
    | nil => exact .inr (List.append_nil _).symm
    | cons x more =>
      left
      rw [List.length_cons] at hcount
      omega

theorem scriptBase_sheds (c : Place) (h : Hit) (hm : Rules.scriptBase.pattern.matchAt c = some h) :
    (Rules.scriptBase.render h).countP isShed < h.text.countP isShed := by
  obtain ⟨header, htext, hrender⟩ := scriptBase_hit c h hm
  have hbases : "AbstractGenericScript".toList.countP isShed < "IScript".toList.countP isShed := by
    decide
  rw [htext, hrender, ScriptHeader.text, List.countP_append, List.countP_append]
  omega

/-- On a line without a parenthesis and without the word `final`, each of the other three
substitutions that are left has to leave it alone. -/
theorem substitutions_eq_self_iff (line : Line) (hparenthesis : '(' ∉ line)
    (hfinal : "final".toList ∉ words line) :
    Edit.applyAll Rules.substitutions line = line ↔
      Rules.throwsClause.pattern.occursIn line = false ∧ Rules.lengthMember.apply line = line ∧
        Rules.scriptBase.pattern.occursIn line = false := by
  have hedits : Edit.applyAll wordEdits line =
      Edit.applyAll [Rules.throwsClause, Rules.lengthMember, Rules.scriptBase]
        (Rules.finalWord.apply line) := rfl
  have hsheds : ∀ e ∈ [Rules.throwsClause, Rules.lengthMember, Rules.scriptBase],
      ∀ line, Sheds isShed line (e.apply line) := by
    rw [List.forall_mem_cons, List.forall_mem_cons, List.forall_mem_singleton]
    exact ⟨Rules.throwsClause.apply_sheds fun c h hm => .inl (throwsClause_sheds c h hm),
      Rules.lengthMember.apply_sheds lengthMember_sheds,
      Rules.scriptBase.apply_sheds fun c h hm => .inl (scriptBase_sheds c h hm)⟩
  rw [substitutions_without_parenthesis line hparenthesis, hedits, finalWord_apply line hfinal,
    Edit.applyAll_eq_iff _ hsheds, List.forall_mem_cons, List.forall_mem_cons,
    List.forall_mem_singleton, Rules.throwsClause.apply_eq_iff_of_lt throwsClause_sheds (by decide),
    Rules.scriptBase.apply_eq_iff_of_lt scriptBase_sheds (by decide)]

end Plugin

def OpensAttribute (line : Line) : Prop :=
  "scriptattributes".toList <+: (Text.trimStart line).map foldCase ∨
    "@scriptattributes".toList <+: (Text.trimStart line).map foldCase

instance (line : Line) : Decidable (OpensAttribute line) := inferInstanceAs (Decidable (_ ∨ _))

namespace Rules

theorem opensAttribute_of_occursIn (line : Line)
    (h : scriptAttribute.occursIn (Text.trimStart line) = true) : OpensAttribute line := by
  obtain ⟨pre, rest, hline, hsome⟩ := (occursIn_iff _ _).1 h
  obtain ⟨r, hr⟩ := (matchAt_isSome_iff _ _).1 hsome
  simp only [scriptAttribute, mem_ends_all_cons] at hr
  obtain ⟨s, hs, t, ht, u, hu, -⟩ := hr
  obtain ⟨hnone, rfl⟩ := mem_ends_start _ _ _ hs
  have hpre : pre = [] := by
    rw [behind_eq_getLast?] at hnone
    simpa using hnone
  rw [anyCase_eq, ends_folded_toLower] at hu
  obtain ⟨name, hname, hfold⟩ := mem_ends_folded _ (by decide) _ _ _ hu
  obtain ⟨sign, hsign, hopens⟩ : ∃ sign, Place.Leads ⟨behind none pre, rest⟩ sign t.1 ∧
      (sign = [] ∨ sign = ['@']) := by
    rw [opt, ends, List.mem_append] at ht
    rcases ht with ht | ht
    · exact ⟨['@'], mem_ends_text ['@'] _ _ t ht, .inr rfl⟩
    · exact ⟨[], List.mem_singleton.1 ht ▸ .refl _, .inl rfl⟩
  have hmap : (Text.trimStart line).map foldCase =
      sign.map foldCase ++ ("scriptattributes".toList ++ u.1.rest.map foldCase) := by
    rw [hline, hpre, List.nil_append, show rest = sign ++ t.1.rest from hsign.1, hname.1,
      List.map_append, List.map_append, hfold]
    rfl
  rw [OpensAttribute, hmap]
  rcases hopens with rfl | rfl
  · exact .inl (List.prefix_append _ _)
  · exact .inr ⟨u.1.rest.map foldCase, rfl⟩

end Rules

structure IsKeywordFree (line : Line) : Prop where
  no_parenthesis : '(' ∉ line
  no_keyword : ∀ w ∈ ["final", "throws", "length", "Length", "class"], w.toList ∉ words line
  no_attribute : ¬OpensAttribute line

namespace Rules

/-- A line without keywords is left alone if and only if none of its words ends in `throws` or
starts with `length`, and no script is headed by a word that ends in `class`. -/
theorem keyword_free_line_kept_iff (line : Line) (h : IsKeywordFree line) :
    domainSubstitutions line = line ↔
      (∀ w ∈ words line, ¬"throws".toList <:+ w ∧ ¬"length".toList <+: w) ∧
        ¬HeadsScript line := by
  have hattribute : scriptAttribute.occursIn (Text.trimStart line) = false :=
    Bool.eq_false_iff.2 fun hoccurs => h.no_attribute (opensAttribute_of_occursIn line hoccurs)
  have hthrows : Rules.throwsClause.pattern.occursIn line = false ↔
      ∀ w ∈ words line, ¬"throws".toList <:+ w := by
    refine ⟨fun habsent w hw hend => ?_, fun hnone =>
      occursIn_absent _ _ (Plugin.throwsClause_absent line hnone)⟩
    rw [Plugin.throwsClause_found line w hw hend] at habsent
    exact absurd habsent.symm Bool.false_ne_true
  have hlength : Rules.lengthMember.apply line = line ↔
      ∀ w ∈ words line, ¬"length".toList <+: w := by
    have hnone : ∀ v ∈ Plugin.lengthTexts, v ∉ words line :=
      List.forall_mem_cons.2 ⟨h.no_keyword "length" (by simp),
        List.forall_mem_singleton.2 (h.no_keyword "Length" (by simp))⟩
    have hwords : Rules.lengthMember.apply line = mapWords Plugin.capitalLength line := by
      refine Plugin.lengthMember_apply line fun pre v rest hline hv hpre hrest => ?_
      obtain ⟨hne, hword⟩ := Plugin.areWords_lengthTexts v hv
      exact absurd ((mem_words_iff v line).2 ⟨pre, rest, hline, hpre, hne, hword, hrest⟩)
        (hnone v hv)
    rw [hwords, mapWords_eq_self_iff _ Plugin.length_capitalLength]
    simp only [Plugin.capitalLength_eq_self_iff]
  have hscript : Rules.scriptBase.pattern.occursIn line = false ↔ ¬HeadsScript line := by
    rw [← Plugin.scriptBase_occursIn_iff, Bool.not_eq_true]
  rw [domainSubstitutions, hattribute, if_neg Bool.false_ne_true,
    Plugin.substitutions_eq_self_iff line h.no_parenthesis (h.no_keyword "final" (by simp)),
    hthrows, hlength, hscript, ← and_assoc]
  simp only [forall_and]

/-- Words with a keyword in any other place are kept. -/
theorem harmless_words_kept :
    let line := "int finalists = LengthOf + throwsOf - subclass;".toList
    IsKeywordFree line ∧ domainSubstitutions line = line := by
  intro line
  have hfree : IsKeywordFree line := ⟨by decide, by decide, by decide⟩
  refine ⟨hfree, (keyword_free_line_kept_iff line hfree).2 ⟨by decide, ?_⟩⟩
  rintro ⟨pre, header, rest, hline, -⟩
  have hbase : "IScript".toList <:+: line :=
    ⟨pre ++ header.stem, rest, by rw [hline, ScriptHeader.text]; simp only [List.append_assoc]⟩
  exact absurd hbase (by decide)

/-- Parts of longer words are taken for keywords. -/
theorem parts_taken_for_keywords :
    let line := "int lengths = rethrows + 1;".toList
    let header := "subclass Report : IScript".toList
    (IsKeywordFree line ∧ domainSubstitutions line = "int Lengths = re;".toList) ∧
      IsKeywordFree header ∧
        domainSubstitutions header = "subclass Report : AbstractGenericScript".toList := by
  intro line header
  have hline : IsKeywordFree line := ⟨by decide, by decide, by decide⟩
  have hheader : IsKeywordFree header := ⟨by decide, by decide, by decide⟩
  exact ⟨⟨hline, by decide +kernel⟩, hheader, by decide +kernel⟩

end Rules

end JvsSharp
