import JvsSharp.Proofs.Outline
import JvsSharp.Rules.Header
import JvsSharp.Rules.Member
import JvsSharp.Rules.Primitive

/-!
# Words of a line

A word is a longest run of word characters. If a pattern matches only at the
start of words and never goes beyond one, replacing its matches is the same as
mapping the words of the line one by one. Such is a pattern that asks for one
of given words between two word edges.
-/

set_option autoImplicit false

namespace JvsSharp

def IsWordText (w : Line) : Prop := ∀ c ∈ w, Unicode.isWord c = true

theorem IsWordText.append {v w : Line} (hv : IsWordText v) (hw : IsWordText w) :
    IsWordText (v ++ w) := fun c hc => (List.mem_append.1 hc).elim (hv c) (hw c)

theorem isWordText_of_all (w : Line) (h : w.all Unicode.isWord = true) : IsWordText w :=
  List.all_eq_true.1 h

abbrev Word := { w : Line // w ≠ [] ∧ IsWordText w }

abbrev Blanks := { g : Line // ∀ c ∈ g, Unicode.isBlank c = true }

theorem blank_nil : ∀ c ∈ ([] : Line), Unicode.isBlank c = true := by simp

theorem blank_space : ∀ c ∈ [' '], Unicode.isBlank c = true := by decide

def EndsWord (rest : Line) : Prop := rest.head?.any Unicode.isWord = false

theorem endsWord_cons (c : Char) (rest : Line) (h : Unicode.isWord c = false) :
    EndsWord (c :: rest) := h

theorem not_endsWord_append (w rest : Line) (hne : w ≠ []) (hw : IsWordText w) :
    ¬EndsWord (w ++ rest) := by
  cases w with
  | nil => exact absurd rfl hne
  | cons c w =>
    intro h
    exact Bool.false_ne_true (h.symm.trans (hw c (by simp)))

def flush (f : Line → Line) (w : Line) : Line := if w = [] then [] else f w

def mapWordsFrom (f : Line → Line) : Line → Line → Line
  | w, [] => flush f w
  | w, c :: rest =>
      if Unicode.isWord c then mapWordsFrom f (w ++ [c]) rest
      else flush f w ++ c :: mapWordsFrom f [] rest

def mapWords (f : Line → Line) (line : Line) : Line := mapWordsFrom f [] line

theorem mapWords_nil (f : Line → Line) : mapWords f [] = [] := rfl

theorem mapWords_other (f : Line → Line) (c : Char) (rest : Line)
    (hc : Unicode.isWord c = false) : mapWords f (c :: rest) = c :: mapWords f rest := by
  rw [mapWords, mapWordsFrom, hc]
  rfl

theorem mapWordsFrom_run (f : Line → Line) (w v rest : Line) (hv : IsWordText v) :
    mapWordsFrom f w (v ++ rest) = mapWordsFrom f (w ++ v) rest := by
  induction v generalizing w with
  | nil => simp
  | cons c v ih =>
    have hc : Unicode.isWord c = true := hv c (by simp)
    rw [List.cons_append, mapWordsFrom, if_pos hc, ih _ fun d hd => hv d (by simp [hd]),
      List.append_assoc]
    rfl

theorem mapWordsFrom_end (f : Line → Line) (w rest : Line) (hr : EndsWord rest) :
    mapWordsFrom f w rest = flush f w ++ mapWords f rest := by
  cases rest with
  | nil => simp [mapWordsFrom, mapWords, flush]
  | cons c rest =>
    have hc : Unicode.isWord c = false := hr
    rw [mapWords_other f c rest hc, mapWordsFrom, hc]
    rfl

theorem mapWords_run (f : Line → Line) (w rest : Line) (hw : IsWordText w) (hr : EndsWord rest) :
    mapWords f (w ++ rest) = flush f w ++ mapWords f rest := by
  rw [mapWords, mapWordsFrom_run f [] w rest hw, List.nil_append, mapWordsFrom_end f w rest hr]

theorem mapWords_others (f : Line → Line) (xs rest : Line)
    (hx : ∀ c ∈ xs, Unicode.isWord c = false) :
    mapWords f (xs ++ rest) = xs ++ mapWords f rest := by
  induction xs with
  | nil => rfl
  | cons c xs ih =>
    rw [List.cons_append, mapWords_other f c _ (hx c (by simp)),
      ih fun d hd => hx d (by simp [hd]), List.cons_append]

theorem mapWords_word (f : Line → Line) (w : Line) (c : Char) (rest : Line) (hne : w ≠ [])
    (hw : IsWordText w) (hc : Unicode.isWord c = false) :
    mapWords f (w ++ c :: rest) = f w ++ c :: mapWords f rest := by
  rw [mapWords_run f w (c :: rest) hw (endsWord_cons c rest hc), flush, if_neg hne,
    mapWords_other f c rest hc]

def FreeOf (ws : List Line) (line : Line) : Prop :=
  ∀ f : Line → Line, (∀ w, w ∉ ws → f w = w) → mapWords f line = line

theorem cut_first_word (line : Line) : ∃ w rest, line = w ++ rest ∧ IsWordText w ∧
    EndsWord rest := by
  refine ⟨line.takeWhile Unicode.isWord, line.dropWhile Unicode.isWord,
    List.takeWhile_append_dropWhile.symm,
    fun c hc => List.all_eq_true.1 List.all_takeWhile c hc, ?_⟩
  have hnot := List.head?_dropWhile_not Unicode.isWord line
  cases hd : line.dropWhile Unicode.isWord with
  | nil => rfl
  | cons c rest => simpa [EndsWord, hd] using hnot

theorem line_cases (line : Line) :
    line = [] ∨ (∃ c rest, line = c :: rest ∧ Unicode.isWord c = false) ∨
      ∃ w rest, line = w ++ rest ∧ w ≠ [] ∧ IsWordText w ∧ EndsWord rest := by
  obtain ⟨w, rest, rfl, hw, hr⟩ := cut_first_word line
  cases w with
  | cons c w => exact .inr (.inr ⟨c :: w, rest, rfl, by simp, hw, hr⟩)
  | nil =>
    cases rest with
    | nil => exact .inl rfl
    | cons c rest => exact .inr (.inl ⟨c, rest, rfl, hr⟩)

theorem run_unique (w v rest rest' : Line) (hw : IsWordText w) (hv : IsWordText v)
    (hr : EndsWord rest) (hr' : EndsWord rest') (h : w ++ rest = v ++ rest') : w = v := by
  induction w generalizing v with
  | nil =>
    cases v with
    | nil => rfl
    | cons d v =>
      have hd := hv d (by simp)
      rw [List.nil_append, List.cons_append] at h
      rw [EndsWord, h] at hr
      simp [hd] at hr
  | cons c w ih =>
    cases v with
    | nil =>
      have hc := hw c (by simp)
      rw [List.nil_append, List.cons_append] at h
      rw [EndsWord, ← h] at hr'
      simp [hc] at hr'
    | cons d v =>
      rw [List.cons_append, List.cons_append, List.cons.injEq] at h
      rw [h.1, ih v (fun x hx => hw x (by simp [hx])) (fun x hx => hv x (by simp [hx])) h.2]

theorem behind_word (b : Option Char) (w : Line) (hw : IsWordText w) (hne : w ≠ []) :
    (Pattern.behind b w).any Unicode.isWord = true := by
  rcases List.eq_nil_or_concat w with rfl | ⟨v, c, rfl⟩
  · exact absurd rfl hne
  · rw [List.concat_eq_append, Pattern.behind_append]
    exact hw c (by simp)

theorem behind_others (b : Option Char) (xs : Line) (hb : b.any Unicode.isWord = false)
    (hx : ∀ c ∈ xs, Unicode.isWord c = false) :
    (Pattern.behind b xs).any Unicode.isWord = false := by
  rcases List.eq_nil_or_concat xs with rfl | ⟨ys, c, rfl⟩
  · exact hb
  · rw [List.concat_eq_append, Pattern.behind_append]
    exact hx c (by simp)

theorem Place.atEdge_word (b : Option Char) (w rest : Line) (hb : b.any Unicode.isWord = false)
    (hne : w ≠ []) (hw : IsWordText w) : (⟨b, w ++ rest⟩ : Place).atEdge = true := by
  cases w with
  | nil => exact absurd rfl hne
  | cons c w => simp [Place.atEdge, hb, hw c (by simp)]

theorem Place.atEdge_behind_word (b : Option Char) (w rest : Line) (hne : w ≠ [])
    (hw : IsWordText w) (hr : EndsWord rest) :
    (⟨Pattern.behind b w, rest⟩ : Place).atEdge = true := by
  rw [EndsWord] at hr
  rw [Place.atEdge, behind_word b w hw hne, hr]
  rfl

section
variable {c c' : Place} {w : Line} (h : c.Leads w c') (hne : w ≠ []) (hw : IsWordText w)
include h hne hw

/-- No word goes on into a word that starts at an edge. -/
theorem Place.outside_of_atEdge (hedge : c.atEdge = true) :
    c.before.any Unicode.isWord = false := by
  cases w with
  | nil => exact absurd rfl hne
  | cons d w =>
    have hd : Unicode.isWord d = true := hw d (by simp)
    rw [Place.atEdge, h.1] at hedge
    simpa [hd] using hedge

theorem Place.endsWord_of_atEdge (hedge : c'.atEdge = true) : EndsWord c'.rest := by
  rw [Place.atEdge, h.2, behind_word c.before w hw hne] at hedge
  simpa [EndsWord] using hedge

end

namespace Pattern

structure Chooses (q : Pattern) (ws : List Line) : Prop where
  only : ∀ c m r, r ∈ q.ends c m → ∃ w ∈ ws, c.Leads w r.1
  any : ∀ w ∈ ws, ∀ c c' m, c.Leads w c' → ∃ m', (c', m') ∈ q.ends c m

theorem skip?_of_leads (cs : List Char) (c c' : Place) (h : c.Leads cs c') :
    c.skip? cs = some c' := by
  induction cs generalizing c with
  | nil =>
    obtain ⟨b, rest⟩ := c
    obtain ⟨b', rest'⟩ := c'
    obtain ⟨hrest, hb⟩ := h
    simp only [List.nil_append, behind] at hrest hb
    rw [hrest, hb, Place.skip?]
  | cons x cs ih =>
    obtain ⟨b, rest⟩ := c
    obtain ⟨hrest, hb⟩ := h
    simp only at hrest hb
    rw [hrest, List.cons_append, Place.skip?, if_pos rfl]
    exact ih _ ⟨rfl, hb⟩

theorem chooses_text (cs : List Char) : Chooses (.text cs) [cs] where
  only c m r h := by
    rw [ends, List.mem_map] at h
    obtain ⟨c', hc, rfl⟩ := h
    exact ⟨cs, by simp, skip?_leads cs c c' (by simpa using hc)⟩
  any w hw c c' m h := by
    rw [List.mem_singleton.1 hw] at h
    exact ⟨m, by simp [ends, skip?_of_leads cs c c' h]⟩

theorem Chooses.alt {p q : Pattern} {ws vs : List Line} (hp : Chooses p ws) (hq : Chooses q vs) :
    Chooses (.alt p q) (ws ++ vs) where
  only c m r h := by
    rw [ends, List.mem_append] at h
    rcases h with h | h
    · obtain ⟨w, hw, hl⟩ := hp.only c m r h
      exact ⟨w, by simp [hw], hl⟩
    · obtain ⟨w, hw, hl⟩ := hq.only c m r h
      exact ⟨w, by simp [hw], hl⟩
  any w hw c c' m h := by
    rcases List.mem_append.1 hw with hw | hw
    · obtain ⟨m', hm⟩ := hp.any w hw c c' m h
      exact ⟨m', by simp [ends, hm]⟩
    · obtain ⟨m', hm⟩ := hq.any w hw c c' m h
      exact ⟨m', by simp [ends, hm]⟩

theorem Chooses.group {p : Pattern} {ws : List Line} (i : Nat) (hp : Chooses p ws) :
    Chooses (.group i p) ws where
  only c m r h := by
    rw [ends, List.mem_map] at h
    obtain ⟨s, hs, rfl⟩ := h
    exact hp.only c m s hs
  any w hw c c' m h := by
    obtain ⟨m', hm⟩ := hp.any w hw c c' m h
    exact ⟨⟨i, c.rest, c'.rest⟩ :: m', by
      rw [ends, List.mem_map]
      exact ⟨(c', m'), hm, rfl⟩⟩

theorem chooses_anyOf (w : String) (ws : List String) :
    Chooses (anyOf ((w :: ws).map lit)) ((w :: ws).map String.toList) := by
  induction ws generalizing w with
  | nil => exact chooses_text w.toList
  | cons v ws ih => exact (chooses_text w.toList).alt (ih v)

theorem mem_ends_wholeWord (q : Pattern) (c : Place) (m : List Mark) (r : Place × List Mark) :
    r ∈ (wholeWord q).ends c m ↔
      c.atEdge = true ∧ r ∈ q.ends c m ∧ r.1.atEdge = true := by
  simp only [wholeWord, all, List.foldr_cons, List.foldr_nil, ends]
  cases hc : c.atEdge with
  | false => simp
  | true =>
    simp only [if_true, List.flatMap_singleton, List.mem_flatMap, true_and]
    constructor
    · rintro ⟨s, hs, hr⟩
      cases he : s.1.atEdge with
      | false => simp [he] at hr
      | true =>
        have heq : r = s := by simpa [he] using hr
        exact heq ▸ ⟨hs, he⟩
    · rintro ⟨hr, he⟩
      exact ⟨r, hr, by simp [he]⟩

section
variable {p : Pattern}

def BeginsWords (p : Pattern) : Prop :=
  ∀ c h, p.matchAt c = some h → c.before.any Unicode.isWord = false ∧ ¬EndsWord c.rest

/-- What replacing makes of the word `w` between `b` and `rest`: the pattern has no match there,
or one that ends within the word. -/
inductive Recasts (p : Pattern) (f : Hit → Line) (g : Line → Line) (b : Option Char)
    (w rest : Line) : Prop
  | none : p.matchAt ⟨b, w ++ rest⟩ = none → g w = w → Recasts p f g b w rest
  | hit (h : Hit) (more : Line) : p.matchAt ⟨b, w ++ rest⟩ = some h → h.text ≠ [] →
      w = h.text ++ more → g w = f h ++ more → Recasts p f g b w rest

theorem BeginsWords.quiet (hp : p.BeginsWords) (b : Option Char) (w rest : Line)
    (hb : b.any Unicode.isWord = true) (hw : IsWordText w) : Quiet p b w rest := by
  induction w generalizing b with
  | nil => trivial
  | cons d w ih =>
    refine ⟨?_, ih (some d) (hw d (by simp)) fun x hx => hw x (by simp [hx])⟩
    cases hm : p.matchAt ⟨b, d :: (w ++ rest)⟩ with
    | none => rfl
    | some h =>
      have hbefore := (hp _ h hm).1
      rw [hb] at hbefore
      exact absurd hbefore.symm Bool.false_ne_true

theorem BeginsWords.matchAt_other (hp : p.BeginsWords) (b : Option Char) (line : Line)
    (hl : EndsWord line) : p.matchAt ⟨b, line⟩ = none := by
  cases hm : p.matchAt ⟨b, line⟩ with
  | none => rfl
  | some h => exact absurd hl (hp _ h hm).2

/-- A text is a sequence of words and other characters, so the words are replaced one by one.
The place must not stand within a word, of which the rest would be no match. -/
theorem replaceFrom_heads (hp : p.BeginsWords) (f : Hit → Line) (g : Line → Line)
    (b : Option Char) (line : Line) (hb : b.any Unicode.isWord = false ∨ EndsWord line)
    (hline : ∀ pre w rest, line = pre ++ (w ++ rest) →
      (behind b pre).any Unicode.isWord = false → w ≠ [] → IsWordText w → EndsWord rest →
      p.Recasts f g (behind b pre) w rest) :
    p.replaceFrom f b line = mapWords g line := by
  induction hn : line.length using Nat.strongRecOn generalizing b line with
  | ind n ih =>
    rcases line_cases line with rfl | ⟨c, rest, rfl, hc⟩ | ⟨w, rest, rfl, hne, hw, hr⟩
    · rw [replaceFrom_nil, mapWords_nil]
    · have hquiet : Quiet p b [c] rest := ⟨hp.matchAt_other b _ hc, trivial⟩
      have hstep := replaceFrom_quiet p f b [c] rest hquiet
      rw [List.singleton_append] at hstep
      have hrest := ih rest.length (by simp [← hn]) (some c) rest (Or.inl (by simpa using hc))
        (fun pre w rest' heq => hline (c :: pre) w rest' (congrArg (c :: ·) heq)) rfl
      rw [hstep, mapWords_other _ c rest hc]
      exact congrArg (c :: ·) hrest
    -- No match begins within the word, so only its first character matters.
    · have hlen : rest.length < n := by
        have := List.length_pos_iff.2 hne
        rw [← hn, List.length_append]
        omega
      have hrest := ih rest.length hlen (behind b w) rest (Or.inr hr)
        (fun pre v rest' heq => by
          have hv := hline (w ++ pre) v rest' (by rw [heq, List.append_assoc])
          rwa [behind_append] at hv) rfl
      have hbefore : b.any Unicode.isWord = false :=
        hb.resolve_right (not_endsWord_append w rest hne hw)
      rw [mapWords_run _ w rest hw hr, flush, if_neg hne]
      cases hline [] w rest rfl hbefore hne hw hr with
      | none hm hg =>
        cases w with
        | nil => exact absurd rfl hne
        | cons d w =>
          have hquiet : Quiet p b (d :: w) rest :=
            ⟨hm, hp.quiet (some d) w rest (hw d (by simp)) fun x hx => hw x (by simp [hx])⟩
          rw [replaceFrom_quiet p f b (d :: w) rest hquiet, hrest, hg]
      | hit h more hm htext hcut hg =>
        have hmore : IsWordText more := fun x hx => hw x (by simp [hcut, hx])
        have hinner : (behind b h.text).any Unicode.isWord = true :=
          behind_word b h.text (fun x hx => hw x (by simp [hcut, hx])) htext
        rw [hg, hcut, List.append_assoc]
        rw [hcut, List.append_assoc] at hm
        rw [hcut, behind_append] at hrest
        rw [replaceFrom_hit p f b h.text _ h hm rfl htext,
          replaceFrom_quiet p f _ more rest (hp.quiet _ more rest hinner hmore), hrest,
          List.append_assoc]

theorem replaceAll_heads (hp : p.BeginsWords) (f : Hit → Line) (g : Line → Line) (line : Line)
    (hline : ∀ pre w rest, line = pre ++ (w ++ rest) →
      (behind none pre).any Unicode.isWord = false → w ≠ [] → IsWordText w → EndsWord rest →
      p.Recasts f g (behind none pre) w rest) :
    p.replaceAll f line = mapWords g line := by
  rw [replaceAll_eq, replaceFrom_heads hp f g none line (Or.inl rfl) hline]

end

section
variable {q : Pattern} {ws : List Line}

def AreWords (ws : List Line) : Prop := ∀ w ∈ ws, w ≠ [] ∧ IsWordText w

theorem areWords_of_all (ws : List Line)
    (h : (ws.all fun w => !w.isEmpty && w.all Unicode.isWord) = true) : AreWords ws := by
  intro w hw
  have hw := List.all_eq_true.1 h w hw
  rw [Bool.and_eq_true, List.all_eq_true] at hw
  exact ⟨by simpa using hw.1, hw.2⟩

/-- A match between two edges is a word of the line and one of those to choose from. -/
theorem wholeWord_hit (hq : Chooses q ws) (hws : AreWords ws) (c : Place) (h : Hit)
    (hm : (wholeWord q).matchAt c = some h) :
    h.text ∈ ws ∧ EndsWord h.after ∧ c.atEdge = true := by
  have htext := matchAt_text _ c h hm
  rw [matchAt_eq, Option.map_eq_some_iff] at hm
  obtain ⟨r, hr, rfl⟩ := hm
  obtain ⟨hedge, hends, hlast⟩ := (mem_ends_wholeWord q c [] r).1 (List.mem_of_mem_head? hr)
  obtain ⟨w, hw, hl⟩ := hq.only c [] r hends
  have hsame : textBetween c.rest r.1.rest = w := by
    rw [hl.1, List.append_cancel_right_eq] at htext
    rw [hl.1]
    exact htext
  have hbehind := behind_word c.before w (hws w hw).2 (hws w hw).1
  refine ⟨hsame ▸ hw, ?_, hedge⟩
  rw [Place.atEdge, hl.2, hbehind] at hlast
  simpa [EndsWord] using hlast

theorem wholeWord_beginsWords (hq : Chooses q ws) (hws : AreWords ws) :
    (wholeWord q).BeginsWords := by
  intro c h hm
  obtain ⟨hin, -, hedge⟩ := wholeWord_hit hq hws c h hm
  obtain ⟨hne, hword⟩ := hws _ hin
  have hleads : c.Leads h.text ⟨behind c.before h.text, h.after⟩ :=
    ⟨(matchAt_text _ c h hm).symm, rfl⟩
  exact ⟨Place.outside_of_atEdge hleads hne hword hedge,
    hleads.1 ▸ not_endsWord_append h.text h.after hne hword⟩

theorem wholeWord_start (hq : Chooses q ws) (hws : AreWords ws) (b : Option Char) (w rest : Line)
    (hb : b.any Unicode.isWord = false) (hw : IsWordText w) (hne : w ≠ []) (hr : EndsWord rest) :
    if w ∈ ws then ∃ h, (wholeWord q).matchAt ⟨b, w ++ rest⟩ = some h ∧ h.text = w
    else (wholeWord q).matchAt ⟨b, w ++ rest⟩ = none := by
  have htext : ∀ h, (wholeWord q).matchAt ⟨b, w ++ rest⟩ = some h → h.text = w ∧ w ∈ ws := by
    intro h hm
    obtain ⟨hin, hafter, -⟩ := wholeWord_hit hq hws _ h hm
    have hsame := run_unique h.text w h.after rest (hws _ hin).2 hw hafter hr
      (matchAt_text _ _ h hm)
    exact ⟨hsame, hsame ▸ hin⟩
  split
  · next hin =>
    have hlast := Place.atEdge_behind_word b w rest hne hw hr
    have hedge := Place.atEdge_word b w rest hb hne hw
    obtain ⟨m, hm⟩ := hq.any w hin ⟨b, w ++ rest⟩ ⟨behind b w, rest⟩ [] ⟨rfl, rfl⟩
    have hmem := (mem_ends_wholeWord q _ [] (⟨behind b w, rest⟩, m)).2 ⟨hedge, hm, hlast⟩
    cases hh : (wholeWord q).matchAt ⟨b, w ++ rest⟩ with
    | some h => exact ⟨h, rfl, (htext h hh).1⟩
    | none =>
      rw [matchAt_eq, Option.map_eq_none_iff, List.head?_eq_none_iff] at hh
      simp [hh] at hmem
  · next hout =>
    cases hh : (wholeWord q).matchAt ⟨b, w ++ rest⟩ with
    | none => rfl
    | some h => exact absurd (htext h hh).2 hout

theorem replaceAll_words (hq : Chooses q ws) (hws : AreWords ws) (f : Hit → Line)
    (g : Line → Line) (hf : ∀ c h, (wholeWord q).matchAt c = some h → f h = g h.text)
    (line : Line) :
    (wholeWord q).replaceAll f line = mapWords (fun w => if w ∈ ws then g w else w) line := by
  refine replaceAll_heads (wholeWord_beginsWords hq hws) f _ line
    fun pre w rest _ hpre hne hw hr => ?_
  have hstart := wholeWord_start hq hws (behind none pre) w rest hpre hw hne hr
  split at hstart
  · next hin =>
    obtain ⟨h, hm, ht⟩ := hstart
    exact .hit h [] hm (by rwa [ht]) (by rw [ht, List.append_nil])
      (by rw [if_pos hin, hf _ h hm, ht, List.append_nil])
  · next hout => exact .none hstart (if_neg hout)

end

theorem wholeWord_group (i : Nat) (q : Pattern) (c : Place) (h : Hit)
    (hm : (wholeWord (.group i q)).matchAt c = some h) : h.group i = h.text := by
  rw [matchAt_eq, Option.map_eq_some_iff] at hm
  obtain ⟨r, hr, rfl⟩ := hm
  obtain ⟨-, hends, -⟩ := (mem_ends_wholeWord _ c [] r).1 (List.mem_of_mem_head? hr)
  rw [ends, List.mem_map] at hends
  obtain ⟨s, -, rfl⟩ := hends
  simp [Hit.group, Mark.text]

end Pattern

namespace Rules
open Pattern

theorem primitiveTypes_eq (line : Line) : primitiveTypes line = mapWords primitiveKeyword line := by
  have hq : Chooses (.group 1 (anyOf (primitives.map fun p => lit p.1)))
      (primitives.map fun p => p.1.toList) :=
    .group 1 (chooses_anyOf "boolean" (primitives.tail.map Prod.fst))
  have hws : AreWords (primitives.map fun p => p.1.toList) := areWords_of_all _ (by decide)
  have hf : ∀ c h, primitiveWord.pattern.matchAt c = some h →
      primitiveWord.render h = primitiveKeyword h.text := by
    intro c h hm
    rw [← wholeWord_group 1 _ c h hm]
    simp [Edit.render, primitiveWord, Part.render]
  rw [primitiveTypes, Edit.apply]
  refine (replaceAll_words hq hws _ primitiveKeyword hf line).trans ?_
  congr
  funext w
  split
  · rfl
  · next hout =>
    rw [primitiveKeyword]
    split
    · next p hp =>
      refine absurd ?_ hout
      rw [List.mem_map]
      exact ⟨p, List.mem_of_find?_eq_some hp, by simpa using List.find?_some hp⟩
    · rfl

theorem inheritance_eq_self (line : Line)
    (h : FreeOf ["extends".toList, "implements".toList] line) : inheritance line = line := by
  have hsame : ∀ (w : Line) (f : Hit → Line) (g : Line → Line),
      w ∈ ["extends".toList, "implements".toList] → AreWords [w] →
      (∀ c h, (wholeWord (.text w)).matchAt c = some h → f h = g h.text) →
      (wholeWord (.text w)).replaceAll f line = line := by
    intro w f g hw hws hf
    rw [replaceAll_words (chooses_text w) hws f g hf]
    refine h _ fun v hv => if_neg fun hin => hv ?_
    rwa [List.mem_singleton.1 hin]
  have hextends : (⟨wholeWord "extends", [":"]⟩ : Edit).apply line = line :=
    hsame _ _ (fun _ => [':']) (by simp) (areWords_of_all _ (by decide)) fun _ _ _ => rfl
  have himplements :
      (⟨wholeWord "implements", [.text (implementsSeparator line)]⟩ : Edit).apply line = line :=
    hsame _ _ (fun _ => implementsSeparator line) (by simp)
      (areWords_of_all _ (by decide)) fun _ _ _ => by simp [Edit.render, Part.render]
  rw [inheritance, Edit.applyAll, List.foldl_cons, List.foldl_cons, hextends, himplements]
  rfl

theorem constants_eq_self (line : Line) (h : '_' ∉ line) : constants line = line := by
  refine replaceAll_eq_self constantWord.pattern constantWord.render line fun c hit hc hm => ?_
  have hname : constantName hit.text = hit.text := by
    have hmem : hit.text.contains '_' = false := by
      have hsub : '_' ∉ hit.text := fun hmem => h (hc.subset (by
        rw [← matchAt_text _ c hit hm]
        exact List.mem_append_left _ hmem))
      simpa using hsub
    rw [constantName, hmem]
    rfl
  have hgroup := wholeWord_group 1 _ c hit hm
  simp [Edit.render, constantWord, Part.render, hgroup, hname]

end Rules

end JvsSharp
