import JvsSharp.Proofs.BareCalls
import JvsSharp.Proofs.GuardedPass

/-!
# Pairs of `else` and `if`

The rule for bare calls first writes every `else` with its `if` in lower case
and with one blank between them. A replaced pair ends at the edge of a word
and begins at one, so no other pair is put together from what it leaves, and
in the result every pair reads the same.
-/

set_option autoImplicit false

namespace JvsSharp.Rules
open Pattern

def mendedPair : Line := "else if".toList

def PairsMended (b : Option Char) (line : Line) : Prop :=
  ∀ (pre : Line) (pair : ElsePair) (post : Line), line = pre ++ (pair.text ++ post) →
    (behind b pre).any Unicode.isWord = false → EndsWord post → pair.text = mendedPair

theorem pair_of_matchAt (b : Option Char) (text : Line) (h : Hit)
    (hm : elseIf.pattern.matchAt ⟨b, text⟩ = some h) :
    b.any Unicode.isWord = false ∧ EndsWord h.after ∧ ∃ pair : ElsePair, h.text = pair.text := by
  rw [matchAt_eq, Option.map_eq_some_iff] at hm
  obtain ⟨r, hr, rfl⟩ := hm
  obtain ⟨hb, pair, hrest, hpost⟩ := pair_of_ends _ r (List.mem_of_mem_head? hr)
  refine ⟨hb, hpost, pair, ?_⟩
  change textBetween text r.1.rest = pair.text
  rw [show text = pair.text ++ r.1.rest from hrest, textBetween_left]

theorem pair_text_eq (pair : ElsePair) (rest post : Line) (hrest : EndsWord rest)
    (hpost : EndsWord post) (h : pair.text ++ post = mendedPair ++ rest) :
    pair.text = mendedPair := by
  obtain ⟨⟨-, hfirst⟩, hne, hsecond⟩ := pair.isElseIf.words
  have hline : pair.first ++ (pair.gap.1 ++ (pair.second ++ post)) =
      "else".toList ++ (' ' :: ("if".toList ++ rest)) := by
    rw [ElsePair.text, List.append_assoc, List.append_assoc] at h
    exact h
  have helse : pair.first = "else".toList :=
    run_unique _ _ _ _ hfirst (isWordText_of_all _ (by decide)) (pair.endsWord_gap _)
      (endsWord_cons ' ' _ (by decide)) hline
  rw [helse] at hline
  have hblank := pair.gap.2
  have hspaced := pair.spaced
  have htail := List.append_cancel_left hline
  cases hgap : pair.gap.1 with
  | nil => exact absurd hgap hspaced
  | cons x gap =>
    rw [hgap, List.cons_append, List.cons.injEq] at htail
    cases gap with
    | cons y gap =>
      -- The white space would go on into the `if`.
      have hy : Unicode.isBlank y = true := hblank y (by simp [hgap])
      have heq : y = 'i' := (List.cons.inj htail.2).1
      rw [heq] at hy
      exact absurd hy (by decide)
    | nil =>
      have hif : pair.second = "if".toList :=
        run_unique _ _ _ _ hsecond (isWordText_of_all _ (by decide)) hpost hrest htail.2
      rw [ElsePair.text, helse, hgap, htail.1, hif]
      rfl

section
variable {b : Option Char} {line : Line}

abbrev Mended (b : Option Char) (line line' : Line) : Prop :=
  elseIf.pattern.Guarded (fun _ => false) elseIf.render b line line'

theorem mended_apply (line : Line) : Mended none line (elseIf.apply line) :=
  (elseIf.replaced (by decide) line).guarded

/-- A character that no replaced pair begins with was there before. -/
theorem mended_keeps (x : Char) (rest' : Line) (h : Mended b line (x :: rest'))
    (hx : b.any Unicode.isWord = true ∨ foldCase x ≠ 'e') :
    ∃ rest, line = x :: rest ∧ Mended (some x) rest rest' := by
  generalize hline' : x :: rest' = line' at h
  cases h with
  | nil => exact absurd hline' (by simp)
  | keep _ hrest =>
    cases hline'
    exact ⟨_, rfl, hrest⟩
  | @hit _ g _ _ hm _ =>
    obtain ⟨hb, -⟩ := pair_of_matchAt b _ g hm
    rcases hx with hword | hother
    · exact absurd (hb.symm.trans hword) Bool.false_ne_true
    · rw [(List.cons.inj hline').1] at hother
      exact absurd rfl hother

theorem mended_keeps_word (w rest' : Line) (hw : IsWordText w) (hb : b.any Unicode.isWord = true)
    (h : Mended b line (w ++ rest')) :
    ∃ rest, line = w ++ rest ∧ Mended (behind b w) rest rest' := by
  induction w generalizing b line with
  | nil => exact ⟨line, rfl, h⟩
  | cons c w ih =>
    obtain ⟨rest, rfl, hrest⟩ := mended_keeps c _ h (.inl hb)
    have hc : (some c).any Unicode.isWord = true := hw c (by simp)
    obtain ⟨rest₁, rfl, hrest₁⟩ := ih (fun x hx => hw x (by simp [hx])) hc hrest
    exact ⟨rest₁, rfl, hrest₁⟩

theorem mended_keeps_others (xs rest' : Line) (hxs : ∀ x ∈ xs, foldCase x ≠ 'e')
    (h : Mended b line (xs ++ rest')) :
    ∃ rest, line = xs ++ rest ∧ Mended (behind b xs) rest rest' := by
  induction xs generalizing b line with
  | nil => exact ⟨line, rfl, h⟩
  | cons c xs ih =>
    obtain ⟨rest, rfl, hrest⟩ := mended_keeps c _ h (.inr (hxs c (by simp)))
    obtain ⟨rest₁, rfl, hrest₁⟩ := ih (fun x hx => hxs x (by simp [hx])) hrest
    exact ⟨rest₁, rfl, hrest₁⟩

theorem mended_head {line' : Line} (h : Mended b line line')
    (hb : b.any Unicode.isWord = true) : line'.head? = line.head? := by
  cases h with
  | nil => rfl
  | keep _ _ => rfl
  | hit _ hm _ =>
    obtain ⟨hout, -⟩ := pair_of_matchAt b _ _ hm
    exact absurd (hout.symm.trans hb) Bool.false_ne_true

/-- A pair of the result was there before if its first letter is kept. -/
theorem pair_was_there (pair : ElsePair) (v : Char) (more post : Line)
    (hpair : pair.first = v :: more) (hpost : EndsWord post)
    (h : Mended (some v) line (more ++ (pair.gap.1 ++ (pair.second ++ post)))) :
    ∃ rest, v :: line = pair.text ++ rest ∧ EndsWord rest := by
  obtain ⟨⟨-, hfirst⟩, hne, hsecond⟩ := pair.isElseIf.words
  have hgap : ∀ x ∈ pair.gap.1, foldCase x ≠ 'e' := by
    intro x hx he
    have hword := isWordText_of_folded ['e'] (by decide) [x] (by simp [he]) x (by simp)
    exact Bool.false_ne_true ((pair.gap_isWord x hx).symm.trans hword)
  have hif : ∀ x ∈ pair.second, foldCase x ≠ 'e' := by
    intro x hx he
    have hmem : foldCase x ∈ "if".toList := pair.isElseIf.2 ▸ List.mem_map_of_mem hx
    rw [he] at hmem
    exact absurd hmem (by decide)
  rw [hpair] at hfirst
  have hv : (some v).any Unicode.isWord = true := hfirst v (by simp)
  obtain ⟨rest₁, rfl, h₁⟩ :=
    mended_keeps_word more _ (fun x hx => hfirst x (by simp [hx])) hv h
  obtain ⟨rest₂, rfl, h₂⟩ := mended_keeps_others pair.gap.1 _ hgap h₁
  obtain ⟨rest₃, rfl, h₃⟩ := mended_keeps_others pair.second _ hif h₂
  refine ⟨rest₃, by simp [ElsePair.text, hpair], ?_⟩
  rw [EndsWord, ← mended_head h₃ (behind_word _ pair.second hsecond hne)]
  exact hpost

theorem pair_mended (pair : ElsePair) (post : Line) (hb : b.any Unicode.isWord = false)
    (hpost : EndsWord post) (h : Mended b line (pair.text ++ post)) :
    pair.text = mendedPair := by
  generalize hline' : pair.text ++ post = line' at h
  cases h with
  | nil =>
    obtain ⟨v, tail, htext, -⟩ := pair.opens post
    exact absurd (htext.symm.trans hline') (by simp)
  | @keep _ c rest rest' hm hrest =>
    exfalso
    have hcut : pair.first ++ (pair.gap.1 ++ (pair.second ++ post)) = c :: rest' := by
      rw [← hline', ElsePair.text, List.append_assoc, List.append_assoc]
    cases hpair : pair.first with
    | nil => exact pair.isElseIf.words.1.1 hpair
    | cons d more =>
      rw [hpair] at hcut
      obtain ⟨rfl, hrest'⟩ := List.cons.inj hcut
      obtain ⟨rest₀, hbefore, hends⟩ := pair_was_there pair d more post hpair hpost (hrest' ▸ hrest)
      have hfound := elseIf_hit b hb pair rest₀ hends
      rw [← hbefore] at hfound
      exact Option.some_ne_none _ (hfound.symm.trans (hm.resolve_left (by simp)))
  | @hit _ g rest' _ hm hrest =>
    obtain ⟨-, hafter, found, htext⟩ := pair_of_matchAt b _ g hm
    obtain ⟨-, hne₁, hword₁⟩ := found.isElseIf.words
    have hbehind : (behind b g.text).any Unicode.isWord = true := by
      rw [htext, ElsePair.text, behind_append, behind_append]
      exact behind_word _ found.second hword₁ hne₁
    have hends : EndsWord rest' := by
      rw [EndsWord, mended_head hrest hbehind]
      exact hafter
    exact pair_text_eq pair rest' post hends hpost hline'

/-- A pair does not begin within a mended one: the only other `e` is inside of a word. -/
theorem mendedPair_starts (us vs : Line) (v : Char) (h : mendedPair = us ++ v :: vs)
    (hne : us ≠ []) (hout : (behind none us).any Unicode.isWord = false) : foldCase v ≠ 'e' := by
  have hall : ∀ k < mendedPair.length, 0 < k →
      (behind none (mendedPair.take k)).any Unicode.isWord = false →
        (mendedPair.drop k).head?.map foldCase ≠ some 'e' := by decide
  have hk : us.length < mendedPair.length := by
    rw [h, List.length_append, List.length_cons]
    omega
  have htake : mendedPair.take us.length = us := by rw [h, List.take_left]
  have hdrop : mendedPair.drop us.length = v :: vs := by rw [h, List.drop_left]
  have hhead := hall us.length hk (List.length_pos_iff.2 hne) (htake.symm ▸ hout)
  rw [hdrop] at hhead
  exact fun he => hhead (congrArg some he)

theorem pairs_mended (line : Line) : PairsMended none (elseIf.apply line) := by
  intro pre pair post hline hout hpost
  obtain ⟨v, tail, htext, -, hv⟩ := pair.opens post
  rw [htext] at hline
  let starts (b : Option Char) (v : Char) : Prop :=
    b.any Unicode.isWord = false ∧ foldCase v = 'e'
  have hlast : ∀ (b : Option Char) (g : Hit) (v : Char),
      ¬starts (behind b (elseIf.render g)) v := fun b g v hstart => by
    have hf : behind b (elseIf.render g) = some 'f' := rfl
    rw [hf] at hstart
    exact absurd hstart.1 (by decide)
  obtain ⟨pre₀, rest₀, -, ⟨hout₀, -⟩, hrest⟩ := (mended_apply line).cut starts
    (fun _ _ _ _ us v vs hus hne hstart => mendedPair_starts us vs v hus hne hstart.1 hstart.2)
    (fun _ g _ _ v hstart => absurd hstart (hlast _ g v)) pre v tail hline ⟨hout, hv⟩
  rw [← htext] at hrest
  exact pair_mended pair post hout₀ hpost hrest

end

end JvsSharp.Rules
