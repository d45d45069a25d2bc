import JvsSharp.Proofs.FieldAssignment

/-!
# Phrases

A phrase is a line of fixed text with identifiers in it. Its outline does not
depend on the identifiers, and if these are set off from the text its words
are the words of the text and the identifiers. So a rule that looks for given
words leaves a phrase alone as soon as its fixed text does not hold them.
-/

set_option autoImplicit false

namespace JvsSharp
open Pattern

def wordsFrom : Line → Line → List Line
  | w, [] => if w = [] then [] else [w]
  | w, c :: rest =>
      if Unicode.isWord c then wordsFrom (w ++ [c]) rest
      else (if w = [] then [] else [w]) ++ wordsFrom [] rest

def words (line : Line) : List Line := wordsFrom [] line

theorem mapWordsFrom_eq_self (f : Line → Line) (w line : Line)
    (h : ∀ v ∈ wordsFrom w line, f v = v) : mapWordsFrom f w line = w ++ line := by
  have hflush : ∀ w : Line, (∀ v ∈ (if w = [] then [] else [w]), f v = v) → flush f w = w := by
    intro w hw
    rw [flush]
    split
    · next hnil => exact hnil.symm
    · next hnil => exact hw w (by simp [hnil])
  induction line generalizing w with
  | nil => rw [mapWordsFrom, hflush w h, List.append_nil]
  | cons c rest ih =>
    rw [wordsFrom] at h
    rw [mapWordsFrom]
    split
    · next hc =>
      rw [if_pos hc] at h
      rw [ih _ h, List.append_assoc]
      rfl
    · next hc =>
      rw [if_neg hc] at h
      rw [hflush w fun v hv => h v (List.mem_append_left _ hv),
        ih [] fun v hv => h v (List.mem_append_right _ hv)]
      rfl

theorem mapWords_eq_self (f : Line → Line) (line : Line) (h : ∀ v ∈ words line, f v = v) :
    mapWords f line = line := mapWordsFrom_eq_self f [] line h

theorem wordsFrom_append (w xs rest : Line) (c : Char) (hc : Unicode.isWord c = false) :
    wordsFrom w (xs ++ c :: rest) = wordsFrom w xs ++ words rest := by
  induction xs generalizing w with
  | nil => simp [wordsFrom, hc, words]
  | cons x xs ih =>
    rw [List.cons_append, wordsFrom, wordsFrom]
    split
    · exact ih _
    · rw [ih, List.append_assoc]

theorem words_append (xs rest : Line) (c : Char) (hc : Unicode.isWord c = false) :
    words (xs ++ c :: rest) = words xs ++ words rest := wordsFrom_append [] xs rest c hc

theorem words_apart (xs ys : Line)
    (h : xs.getLast?.any (fun c => !Unicode.isWord c) = true ∨
      ys.head?.any (fun c => !Unicode.isWord c) = true) :
    words (xs ++ ys) = words xs ++ words ys := by
  rcases h with h | h
  · rcases List.eq_nil_or_concat xs with rfl | ⟨xs, c, rfl⟩
    · exact nomatch h
    · have hc : Unicode.isWord c = false := by simpa using h
      rw [List.concat_eq_append, List.append_assoc, List.singleton_append, words_append xs ys c hc,
        words_append xs [] c hc]
      simp [words, wordsFrom]
  · cases ys with
    | nil => exact nomatch h
    | cons c ys =>
      have hc : Unicode.isWord c = false := by simpa using h
      rw [words_append xs ys c hc, ← List.nil_append (c :: ys), words_append [] ys c hc]
      rfl

theorem words_behind (pre rest : Line) (h : (behind none pre).any Unicode.isWord = false) :
    words (pre ++ rest) = words pre ++ words rest := by
  rcases List.eq_nil_or_concat pre with rfl | ⟨xs, c, rfl⟩
  · rfl
  · refine words_apart _ _ (.inl ?_)
    rw [List.concat_eq_append, behind_append] at h
    have hc : Unicode.isWord c = false := h
    simp [hc]

theorem words_before (xs rest : Line) (h : EndsWord rest) :
    words (xs ++ rest) = words xs ++ words rest := by
  cases rest with
  | nil => simp [words, wordsFrom]
  | cons c rest =>
    have hc : Unicode.isWord c = false := h
    exact words_apart _ _ (.inr (by simp [hc]))

theorem words_word (w : Line) (hne : w ≠ []) (hw : IsWordText w) : words w = [w] := by
  have hfrom : ∀ v, v ++ w ≠ [] → wordsFrom v w = [v ++ w] := by
    induction w with
    | nil =>
      intro v hv
      rw [List.append_nil] at hv
      rw [wordsFrom, if_neg hv, List.append_nil]
    | cons c w ih =>
      intro v _
      have hc : Unicode.isWord c = true := hw c (by simp)
      rw [wordsFrom, if_pos hc]
      cases w with
      | nil => simp [wordsFrom]
      | cons d w =>
        rw [ih (by simp) (fun x hx => hw x (by simp [hx])) _ (by simp), List.append_assoc]
        rfl
  exact hfrom [] hne

/-- A word of the line is a run of word characters that goes on to neither side. -/
theorem mem_words_iff (w line : Line) :
    w ∈ words line ↔ ∃ pre rest, line = pre ++ (w ++ rest) ∧
      (behind none pre).any Unicode.isWord = false ∧ w ≠ [] ∧ IsWordText w ∧ EndsWord rest := by
  constructor
  · intro h
    induction hn : line.length using Nat.strongRecOn generalizing line with
    | ind n ih =>
      rcases line_cases line with rfl | ⟨c, rest, rfl, hc⟩ | ⟨v, rest, rfl, hne, hv, hr⟩
      · exact absurd h List.not_mem_nil
      · rw [← List.nil_append (c :: rest), words_append [] rest c hc] at h
        obtain ⟨pre, post, rfl, hpre, hword⟩ := ih rest.length (by simp [← hn]) rest h rfl
        refine ⟨c :: pre, post, rfl, ?_, hword⟩
        cases pre with
        | nil => exact hc
        | cons d pre => exact hpre
      · rw [words_before v rest hr, words_word v hne hv, List.singleton_append,
          List.mem_cons] at h
        rcases h with rfl | h
        · exact ⟨[], rest, rfl, rfl, hne, hv, hr⟩
        · have hpos := List.length_pos_iff.2 hne
          obtain ⟨pre, post, rfl, hpre, hw, hword, hpost⟩ :=
            ih rest.length (by rw [← hn, List.length_append]; omega) rest h rfl
          refine ⟨v ++ pre, post, by rw [List.append_assoc], ?_, hw, hword, hpost⟩
          cases pre with
          | nil => exact absurd hr (not_endsWord_append w post hw hword)
          | cons d pre => rwa [behind_append]
  · rintro ⟨pre, rest, rfl, hpre, hne, hw, hr⟩
    rw [words_behind _ _ hpre, words_before _ _ hr, words_word w hne hw]
    simp

inductive Token where
  | text (s : String)
  | name (n : Identifier)

instance : Coe String Token := ⟨.text⟩

instance : Coe Identifier Token := ⟨.name⟩

abbrev Shape := List (Option String)

namespace Token

def line : Token → Line
  | .text s => s.toList
  | .name n => n.text

def fixed : Token → Option String
  | .text s => some s
  | .name _ => none

end Token

def phrase (ts : List Token) : Line := ts.flatMap Token.line

theorem phrase_append (ts us : List Token) : phrase (ts ++ us) = phrase ts ++ phrase us :=
  List.flatMap_append

def shape (ts : List Token) : Shape := ts.map Token.fixed

theorem shape_append (ts us : List Token) : shape (ts ++ us) = shape ts ++ shape us :=
  List.map_append

namespace Shape

def outline (sh : Shape) : Outline :=
  sh.flatMap fun
    | some s => Outline.lit s.toList
    | none => Outline.nameText

def fixedWords (sh : Shape) : List Line :=
  sh.flatMap fun
    | some s => words s.toList
    | none => []

def endsOff : Option String → Bool
  | some s => s.toList.getLast?.any fun c => !Unicode.isWord c
  | none => false

def startsOff : Option String → Bool
  | some s => s.toList.head?.any fun c => !Unicode.isWord c
  | none => false

def isSpaced : Shape → Bool
  | a :: b :: sh => (endsOff a || startsOff b) && isSpaced (b :: sh)
  | _ => true

end Shape

theorem fits_phrase (ts : List Token) : (shape ts).outline.Fits (phrase ts) := by
  induction ts with
  | nil => rfl
  | cons t ts ih =>
    cases t with
    | text s => exact (Outline.fits_lit s.toList).append ih
    | name n => exact (Outline.fits_nameText n).append ih

theorem words_phrase (ts : List Token) (hts : (shape ts).isSpaced = true) :
    words (phrase ts) = ts.flatMap fun t => words t.line := by
  induction ts with
  | nil => rfl
  | cons t ts ih =>
    cases ts with
    | nil =>
      rw [phrase, List.flatMap_cons, List.flatMap_nil, List.append_nil]
      simp
    | cons u ts =>
      have hspaced : (Shape.endsOff t.fixed || Shape.startsOff u.fixed) = true ∧
          (shape (u :: ts)).isSpaced = true := Bool.and_eq_true _ _ ▸ hts
      have hapart : t.line.getLast?.any (fun c => !Unicode.isWord c) = true ∨
          (phrase (u :: ts)).head?.any (fun c => !Unicode.isWord c) = true := by
        rcases Bool.or_eq_true _ _ ▸ hspaced.1 with h | h
        · left
          cases t with
          | text s => exact h
          | name n => exact nomatch h
        · right
          cases u with
          | text s =>
            have hhead : s.toList.head?.any (fun c => !Unicode.isWord c) = true := h
            rw [phrase, List.flatMap_cons, Token.line]
            cases hs : s.toList with
            | nil => simp [hs] at hhead
            | cons c rest => simpa [hs] using hhead
          | name n => exact nomatch h
      have hline : phrase (t :: u :: ts) = t.line ++ phrase (u :: ts) := rfl
      rw [hline, words_apart _ _ hapart, ih hspaced.2]
      rfl

theorem mem_words_phrase (ts : List Token) (hts : (shape ts).isSpaced = true) (w : Line)
    (hw : w ∈ words (phrase ts)) :
    w ∈ (shape ts).fixedWords ∨ ∃ n, .name n ∈ ts ∧ w = n.text := by
  rw [words_phrase ts hts, List.mem_flatMap] at hw
  obtain ⟨t, ht, hw⟩ := hw
  cases t with
  | text s =>
    exact .inl (List.mem_flatMap.2 ⟨some s, List.mem_map.2 ⟨.text s, ht, rfl⟩, hw⟩)
  | name n =>
    rw [Token.line, words_word n.text n.ne n.isWordText, List.mem_singleton] at hw
    exact .inr ⟨n, ht, hw⟩

theorem mapWords_phrase (f : Line → Line) (ts : List Token) (hts : (shape ts).isSpaced = true)
    (htexts : ∀ w ∈ (shape ts).fixedWords, f w = w)
    (hnames : ∀ n : Identifier, f n.text = n.text) : mapWords f (phrase ts) = phrase ts := by
  refine mapWords_eq_self f _ fun w hw => ?_
  rcases mem_words_phrase ts hts w hw with hw | ⟨n, -, rfl⟩
  · exact htexts w hw
  · exact hnames n

def Outline.isIdle (o : Outline) (r : Rule) : Bool :=
  match r with
  | .constants => o.lacks '_'
  | r => o.spares [r]

def Shape.isIdle (sh : Shape) (r : Rule) : Bool :=
  match r with
  | .inheritance => sh.isSpaced && sh.fixedWords.all fun w => !Field.baseWords.contains w
  | .primitiveTypes => sh.isSpaced && sh.fixedWords.all fun w => Rules.primitiveKeyword w == w
  | r => sh.outline.isIdle r

namespace Turns

variable {index : Index} {line : Line}

theorem all {rules : List Rule} (h : ∀ r ∈ rules, Turns index [r] line line) :
    Turns index rules line line := by
  induction rules with
  | nil => exact nil
  | cons r rules ih =>
    exact (h r (by simp)).append (ih fun other hother => h other (by simp [hother]))

theorem outline (o : Outline) (hline : o.Fits line) (r : Rule) (h : o.isIdle r = true) :
    Turns index [r] line line := by
  cases r with
  | constants =>
    exact single (fun _ => rfl)
      (Rules.constants_eq_self line (Outline.not_mem_of_lacks '_' o h line hline))
  | _ => exact o.turns_of_spares _ h index line hline

theorem phrase (ts : List Token) (rules : List Rule)
    (h : rules.all (shape ts).isIdle = true) : Turns index rules (phrase ts) (phrase ts) := by
  refine all fun r hr => ?_
  have hidle := List.all_eq_true.1 h r hr
  cases r with
  | inheritance =>
    rw [Shape.isIdle, Bool.and_eq_true, List.all_eq_true] at hidle
    refine single (fun _ => rfl) (Rules.inheritance_eq_self _ fun f hf => ?_)
    have htexts : ∀ w ∈ (shape ts).fixedWords, w ∉ Field.baseWords := fun w hw => by
      simpa using hidle.2 w hw
    exact mapWords_phrase f ts hidle.1 (fun w hw => hf w (htexts w hw)) fun n =>
      hf _ (Field.not_baseWord_of_free _ n.free)
  | primitiveTypes =>
    rw [Shape.isIdle, Bool.and_eq_true, List.all_eq_true] at hidle
    refine single (fun _ => rfl) ?_
    rw [Rules.primitiveTypes_eq]
    refine mapWords_phrase _ ts hidle.1 (fun w hw => ?_) fun n => n.primitiveKeyword_text
    simpa using hidle.2 w hw
  | _ => exact outline _ (fits_phrase ts) _ hidle

end Turns

/-- A file of one line that the rules turn into another line. -/
theorem Conversion.body_single (c : Conversion) (line line' : Line)
    (h : Turns (Index.build [line]) c.rules line line')
    (hline : line'.any (fun d => !Unicode.isBlank d) = true) : c.body [line] = [line'] := by
  have hkept : (!Text.isBlankLine line') = true := by
    rwa [Text.isBlankLine, List.not_all_eq_any_not]
  rw [body, convertLines, convertLines, List.map_singleton, h .idle, List.filter_cons, if_pos hkept]
  rfl

end JvsSharp
