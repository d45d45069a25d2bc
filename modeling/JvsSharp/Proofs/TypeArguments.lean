import JvsSharp.Proofs.Taking
import JvsSharp.Proofs.Words
import JvsSharp.Rules.Elided

/-!
# Type arguments in angle brackets

What stands between the brackets of a container is read as one group, or as
two for a map, which is cut at its last comma. The text goes on up to the last
closing bracket that what follows allows. From this come the matches of a
container with its arguments, of its declaration and of its instantiation.
-/

set_option autoImplicit false

namespace JvsSharp.ContainerShape
open Pattern

variable {α : Type}

def generic (name args after : Line) : Line := name ++ '<' :: (args ++ '>' :: after)

theorem generic_append (name args xs ys : Line) :
    generic name args (xs ++ ys) = generic name args xs ++ ys := by
  simp [generic]

theorem behind_generic (b : Option Char) (name args : Line) :
    behind b (generic name args []) = some '>' := by
  rw [generic, ← List.cons_append, ← List.append_assoc, behind_concat]

theorem stops_blank_word (w rest : Line) (hne : w ≠ []) (hw : IsWordText w) :
    Stops .blank (w ++ rest) := by
  cases w with
  | nil => exact absurd rfl hne
  | cons c w =>
    refine stops_cons _ c _ ?_
    cases hc : Unicode.isBlank c with
    | false => exact hc
    | true =>
      have hword := hw c (by simp)
      rw [Unicode.isWord_of_isBlank c hc] at hword
      exact nomatch hword

/-- The arguments of a shape as its pattern cuts them. Only a map has the second one. -/
structure Parts (s : ContainerShape) where
  first : Line
  gap : Line
  second : Line
  first_ne : first ≠ []
  first_type : ∀ x ∈ first, Rules.typeText.mem x = true
  gap_blank : ∀ x ∈ gap, Unicode.isBlank x = true
  second_ne : s.mapLike = true → second ≠ []
  second_type : ∀ x ∈ second, plainTypeText.mem x = true
  second_start : Stops .blank second

namespace Parts

variable {s : ContainerShape}

def text (a : s.Parts) : Line :=
  if s.mapLike then a.first ++ ',' :: (a.gap ++ a.second) else a.first

def written (a : s.Parts) : Line :=
  if s.mapLike then a.first ++ ", ".toList ++ a.second else a.first

def marks (a : s.Parts) (after : Line) : List Mark :=
  if s.mapLike then
    [⟨2, a.second ++ after, after⟩,
     ⟨1, a.first ++ ',' :: (a.gap ++ (a.second ++ after)), ',' :: (a.gap ++ (a.second ++ after))⟩]
  else [⟨1, a.first ++ after, after⟩]

def types (a : s.Parts) : Line :=
  let type text := Rules.primitiveTypes (Text.trim text)
  if s.mapLike then type a.first ++ ", ".toList ++ type a.second else type a.first

end Parts

theorem typeText_word (c : Char) (h : Unicode.isWord c = true) : Rules.typeText.mem c = true := by
  simp [Rules.typeText, CharClass.mem, h]

theorem typeText_blank (c : Char) (h : Unicode.isBlank c = true) :
    Rules.typeText.mem c = true := by
  simp [Rules.typeText, CharClass.mem, h]

theorem plain_word (c : Char) (h : Unicode.isWord c = true) : plainTypeText.mem c = true := by
  simp [plainTypeText, CharClass.mem, h]

theorem typeText_of_plain (x : Char) (h : plainTypeText.mem x = true) :
    Rules.typeText.mem x = true := by
  simp only [plainTypeText, Rules.typeText, CharClass.mem, Bool.or_eq_true, List.contains_eq_mem,
    List.mem_cons, List.not_mem_nil, or_false, decide_eq_true_eq] at h ⊢
  rcases h with h | h | h | h <;> simp [h]

theorem plain_of_stops (rest : Line) (h : Stops Rules.typeText rest) :
    Stops plainTypeText rest ∧ rest.head? ≠ some ',' := by
  cases rest with
  | nil => exact ⟨rfl, by simp⟩
  | cons c rest =>
    have hc : Rules.typeText.mem c = false := h
    constructor
    · cases hp : plainTypeText.mem c with
      | false => exact hp
      | true => simp [typeText_of_plain c hp] at hc
    · intro hcomma
      cases hcomma
      exact nomatch (show Rules.typeText.mem ',' = true by decide).symm.trans hc

structure Follows (tail rest : Line) : Prop where
  tail_type : ∀ x ∈ tail, plainTypeText.mem x = true ∧ x ≠ '>'
  rest_stops : Stops Rules.typeText rest

theorem valueType_matchK (gap second tail rest : Line) (b : Option Char) (m : List Mark)
    (f : Place → List Mark → Option α) (r : α) (hgap : ∀ x ∈ gap, Unicode.isBlank x = true)
    (hne : second ≠ []) (htype : ∀ x ∈ second, plainTypeText.mem x = true)
    (hstart : Stops .blank second) (hfollows : Follows tail rest)
    (hf : ∀ b, (all [">"]).matchK ⟨b, '>' :: (tail ++ rest)⟩
      (⟨2, second ++ '>' :: (tail ++ rest), '>' :: (tail ++ rest)⟩ :: m) f = some r) :
    (valueType.matchK ⟨b, gap ++ (second ++ '>' :: (tail ++ rest))⟩ m fun c m =>
      (all [">"]).matchK c m f) = some r := by
  obtain ⟨hplain, hcomma⟩ := plain_of_stops rest hfollows.rest_stops
  have hblank : Stops .blank (second ++ '>' :: (tail ++ rest)) := by
    cases second with
    | nil => exact absurd rfl hne
    | cons c second => exact hstart
  -- The choice that ends with a comma runs on to the end of the text and finds none there.
  have hspan : ∀ (b : Option Char) (g : Place → List Mark → Option α),
      (Pattern.seq (.span plainTypeText) ",").matchK ⟨b, second ++ '>' :: (tail ++ rest)⟩ m g =
        none := by
    intro b g
    have hall : ∀ x ∈ second ++ '>' :: tail, plainTypeText.mem x = true := by
      intro x hx
      rcases List.mem_append.1 hx with hx | hx
      · exact htype x hx
      · rcases List.mem_cons.1 hx with rfl | hx
        · decide
        · exact (hfollows.tail_type x hx).1
    have htext : second ++ '>' :: (tail ++ rest) = (second ++ '>' :: tail) ++ rest := by simp
    rw [matchK, htext, matchK_span plainTypeText b _ rest m _ hall hplain]
    exact matchK_char_none ',' _ rest m g hcomma
  have hstretch : ∀ b : Option Char,
      (Pattern.stretch plainTypeText).matchK ⟨b, second ++ '>' :: (tail ++ rest)⟩ m
        (fun c m => (all [">"]).matchK c
          (⟨2, second ++ '>' :: (tail ++ rest), c.rest⟩ :: m) f) = some r := by
    intro b
    refine matchK_stretch plainTypeText '>' (by decide) b second tail rest m _ ?_ hne htype
      hfollows.tail_type hplain r (hf _)
    intro b v hv
    exact matchK_char_none '>' b v _ _ hv
  have hfirst : (Pattern.seq Pattern.gap (.group 2 (.alt (.seq (.span plainTypeText) ",")
      (stretch plainTypeText)))).matchK ⟨b, gap ++ (second ++ '>' :: (tail ++ rest))⟩ m
        (fun c m => (all [">"]).matchK c m f) = some r := by
    rw [matchK, Pattern.gap, matchK_span .blank b gap _ m _ hgap hblank, matchK, matchK, hspan]
    exact hstretch _
  rw [valueType, matchK, hfirst]
  rfl

/-- The arguments are read up to the last closing bracket and cut as they should be. -/
theorem arguments_matchK (s : ContainerShape) (a : s.Parts) (b : Option Char) (tail rest : Line)
    (m : List Mark) (f : Place → List Mark → Option α) (r : α) (hfollows : Follows tail rest)
    (hf : f ⟨some '>', tail ++ rest⟩ (a.marks ('>' :: (tail ++ rest)) ++ m) = some r) :
    s.arguments.matchK ⟨b, '<' :: (a.text ++ '>' :: (tail ++ rest))⟩ m f = some r := by
  cases hs : s.mapLike with
  | true =>
    rw [Parts.marks, if_pos hs] at hf
    rw [arguments, if_pos hs, Parts.text, if_pos hs, matchK_all_cons]
    refine (matchK_char '<' b _ m _).trans ?_
    rw [matchK_all_cons, matchK, List.append_assoc, List.cons_append, List.append_assoc]
    have hlast := valueType_matchK a.gap a.second tail rest (some ',')
      (⟨1, a.first ++ ',' :: (a.gap ++ (a.second ++ '>' :: (tail ++ rest))),
        ',' :: (a.gap ++ (a.second ++ '>' :: (tail ++ rest)))⟩ :: m) f r a.gap_blank
      (a.second_ne hs) a.second_type a.second_start hfollows fun _ => hf
    have htail : ∀ x ∈ a.gap ++ (a.second ++ '>' :: tail),
        Rules.typeText.mem x = true ∧ x ≠ ',' := by
      have hplain : ∀ x, plainTypeText.mem x = true → Rules.typeText.mem x = true ∧ x ≠ ',' := by
        intro x hx
        refine ⟨typeText_of_plain x hx, ?_⟩
        rintro rfl
        exact absurd hx (by decide)
      intro x hx
      rcases List.mem_append.1 hx with hx | hx
      · exact hplain x (by simp [plainTypeText, CharClass.mem, a.gap_blank x hx])
      · rcases List.mem_append.1 hx with hx | hx
        · exact hplain x (a.second_type x hx)
        · rcases List.mem_cons.1 hx with rfl | hx
          · decide
          · exact hplain x (hfollows.tail_type x hx).1
    have hstretch := matchK_stretch Rules.typeText ',' (by decide) (some '<') a.first
      (a.gap ++ (a.second ++ '>' :: tail)) rest m
      (fun c m => (all [",", valueType, ">"]).matchK c
        (⟨1, a.first ++ ',' :: (a.gap ++ (a.second ++ '>' :: (tail ++ rest))), c.rest⟩ :: m) f)
      (fun b v hv => by
        rw [matchK_all_cons]
        exact matchK_char_none ',' b v _ _ hv)
      a.first_ne a.first_type htail hfollows.rest_stops r
    simp only [List.append_assoc, List.cons_append] at hstretch
    exact hstretch hlast
  | false =>
    rw [Parts.marks, if_neg (by simp [hs])] at hf
    rw [arguments, if_neg (by simp [hs]), Parts.text, if_neg (by simp [hs]), matchK_all_cons]
    refine (matchK_char '<' b _ m _).trans ?_
    rw [matchK_all_cons, matchK]
    refine matchK_stretch Rules.typeText '>' (by decide) (some '<') a.first tail rest m _ ?_
      a.first_ne a.first_type ?_ hfollows.rest_stops r hf
    · intro b v hv
      exact matchK_char_none '>' b v _ _ hv
    · intro x hx
      exact ⟨typeText_of_plain x (hfollows.tail_type x hx).1, (hfollows.tail_type x hx).2⟩

theorem Parts.groups {s : ContainerShape} (a : s.Parts) (h : Hit) (after : Line) (ms : List Mark)
    (hms : ∀ k ∈ ms, k.group = 3) (hmarks : h.marks = ms ++ a.marks after) :
    h.group 1 = a.first ∧ (s.mapLike = true → h.group 2 = a.second) := by
  have hskip : ∀ i, i ≠ 3 → ms.find? (fun k => k.group == i) = none := by
    intro i hi
    rw [List.find?_eq_none]
    intro k hk
    simpa [hms k hk] using Ne.symm hi
  cases hs : s.mapLike with
  | true =>
    simp [Hit.group, hmarks, List.find?_append, hskip, marks, hs, Mark.text, textBetween_left]
  | false =>
    simp [Hit.group, hmarks, List.find?_append, hskip, marks, hs, Mark.text, textBetween_left]

theorem elementTypes_eq (s : ContainerShape) (a : s.Parts) (h : Hit) (after : Line)
    (ms : List Mark) (hms : ∀ k ∈ ms, k.group = 3) (hmarks : h.marks = ms ++ a.marks after) :
    Index.elementTypes s h = a.types := by
  obtain ⟨hfirst, hsecond⟩ := a.groups h after ms hms hmarks
  cases hs : s.mapLike with
  | true => simp [Index.elementTypes, Parts.types, hs, hfirst, hsecond hs]
  | false => simp [Index.elementTypes, Parts.types, hs, hfirst]

theorem argumentParts_render (s : ContainerShape) (a : s.Parts) (h : Hit) (after : Line)
    (hmarks : h.marks = a.marks after) :
    s.argumentParts.flatMap (Part.render h) = '<' :: (a.written ++ ['>']) := by
  obtain ⟨hfirst, hsecond⟩ := a.groups h after [] (by simp) hmarks
  cases hs : s.mapLike with
  | true => simp [argumentParts, Parts.written, hs, Part.render, hfirst, hsecond hs]
  | false => simp [argumentParts, Parts.written, hs, Part.render, hfirst]

def opening (s : ContainerShape) (ps : List Pattern) : Pattern :=
  all (.edge :: lit s.source :: s.arguments :: ps)

theorem declared_opening (s : ContainerShape) : s.declared.pattern = s.opening [] := rfl

theorem declaration_opening (s : ContainerShape) :
    Index.declaration s = s.opening [space, .group 3 word, gap, ";"] := rfl

theorem source_word (s : ContainerShape) (hs : s ∈ known) :
    s.source.toList ≠ [] ∧ IsWordText s.source.toList := by
  have hwords : AreWords (known.map fun s => s.source.toList) :=
    areWords_of_all _ (by decide)
  exact hwords _ (List.mem_map_of_mem hs)

theorem opening_matchK (s : ContainerShape) (hs : s ∈ known) (ps : List Pattern) (a : s.Parts)
    (b : Option Char) (hb : b.any Unicode.isWord = false) (tail rest : Line) (m : List Mark)
    (f : Place → List Mark → Option α) (r : α) (hfollows : Follows tail rest)
    (hf : (all ps).matchK ⟨some '>', tail ++ rest⟩ (a.marks ('>' :: (tail ++ rest)) ++ m) f =
      some r) :
    (s.opening ps).matchK ⟨b, generic s.source.toList a.text (tail ++ rest)⟩ m f = some r := by
  obtain ⟨hne, hw⟩ := source_word s hs
  have hedge := Place.atEdge_word b s.source.toList ('<' :: (a.text ++ '>' :: (tail ++ rest))) hb
    hne hw
  rw [generic, opening, matchK_all_cons, matchK_edge _ _ _ hedge, matchK_all_cons, lit,
    matchK_text, matchK_all_cons]
  exact arguments_matchK s a _ tail rest m _ r hfollows hf

theorem declared_hit (s : ContainerShape) (hs : s ∈ known) (a : s.Parts) (b : Option Char)
    (hb : b.any Unicode.isWord = false) (tail rest : Line) (hfollows : Follows tail rest) :
    s.declared.pattern.matchAt ⟨b, generic s.source.toList a.text (tail ++ rest)⟩ =
      some ⟨b, generic s.source.toList a.text [], a.marks ('>' :: (tail ++ rest)),
        tail ++ rest⟩ := by
  rw [declared_opening, matchAt]
  refine opening_matchK s hs [] a b hb tail rest [] _ _ hfollows ?_
  have htext := generic_append s.source.toList a.text [] (tail ++ rest)
  rw [List.nil_append] at htext
  rw [matchK_all_nil, htext, textBetween_left, List.append_nil]

theorem follows_name (name : Line) (hname : IsWordText name) : Follows (' ' :: name) [';'] := by
  refine ⟨?_, by decide⟩
  intro x hx
  rcases List.mem_cons.1 hx with rfl | hx
  · decide
  · refine ⟨plain_word x (hname x hx), ?_⟩
    rintro rfl
    exact absurd (hname '>' hx) (by decide)

theorem declaration_hit (s : ContainerShape) (hs : s ∈ known) (a : s.Parts) (b : Option Char)
    (hb : b.any Unicode.isWord = false) (name : Line) (hne : name ≠ []) (hname : IsWordText name) :
    ∃ h, (Index.declaration s).matchAt
        ⟨b, generic s.source.toList a.text (' ' :: name ++ [';'])⟩ = some h ∧
      h.text = generic s.source.toList a.text (' ' :: name ++ [';']) ∧
      h.group 3 = name ∧ Index.elementTypes s h = a.types := by
  have hfollows := follows_name name hname
  have hspace : ∀ (m : List Mark) (f : Place → List Mark → Option Hit),
      space.matchK ⟨some '>', [' '] ++ (name ++ [';'])⟩ m f = f ⟨some ' ', name ++ [';']⟩ m := by
    intro m f
    exact matchK_chars .blank (some '>') [' '] (name ++ [';']) m f (by simp) (by decide)
      (stops_blank_word name _ hne hname)
  have hword : ∀ (b : Option Char) (m : List Mark) (f : Place → List Mark → Option Hit),
      word.matchK ⟨b, name ++ [';']⟩ m f = f ⟨behind b name, [';']⟩ m := fun b m f =>
    matchK_chars .word b name [';'] m f hne hname (by decide)
  let after : Line := '>' :: (' ' :: name ++ [';'])
  refine ⟨⟨b, generic s.source.toList a.text (' ' :: name ++ [';']),
    ⟨3, name ++ [';'], [';']⟩ :: a.marks after, []⟩, ?_, rfl, ?_, ?_⟩
  · rw [declaration_opening, matchAt]
    refine opening_matchK s hs _ a b hb (' ' :: name) [';'] [] _ _ hfollows ?_
    rw [matchK_all_cons, List.cons_append, ← List.singleton_append, hspace, matchK_all_cons,
      matchK, hword, matchK_all_cons, gap, matchK_span_none .blank _ _ _ _ (by decide),
      matchK_all_cons]
    refine (matchK_char ';' _ [] _ _).trans ?_
    simp [matchK_all_nil, textBetween_nil, after]
  · simp [Hit.group, Mark.text, textBetween_left]
  · exact elementTypes_eq s a _ after [⟨3, name ++ [';'], [';']⟩] (by simp) rfl

theorem declared_apply (s : ContainerShape) (hs : s ∈ known) (a : s.Parts) (pre tail rest : Line)
    (hb : (behind none pre).any Unicode.isWord = false) (hfollows : Follows tail rest)
    (hpre : Quiet s.declared.pattern none pre (generic s.source.toList a.text (tail ++ rest)))
    (hpost : Quiet s.declared.pattern (some '>') (tail ++ rest) []) :
    s.declared.apply (pre ++ generic s.source.toList a.text (tail ++ rest)) =
      pre ++ generic s.target.toList a.written (tail ++ rest) := by
  have hhit := declared_hit s hs a (behind none pre) hb tail rest hfollows
  have hmid := generic_append s.source.toList a.text [] (tail ++ rest)
  have hlast := behind_generic (behind none pre) s.source.toList a.text
  rw [List.nil_append] at hmid
  rw [hmid] at hhit hpre ⊢
  rw [Edit.apply, replaceAll_single s.declared.pattern s.declared.render pre _ (tail ++ rest) _ hpre
    hhit rfl (by simp [generic]) (hlast ▸ hpost)]
  rw [Edit.render, declared, List.flatMap_cons, argumentParts_render s a _ _ rfl]
  simp [Part.render, generic]

def creation (name args after : Line) : Line :=
  "new".toList ++ ' ' :: generic name args ('(' :: ')' :: after)

theorem creation_append (name args rest : Line) :
    creation name args rest = creation name args [] ++ rest := by
  simp [creation, generic]

theorem behind_creation (b : Option Char) (name args : Line) :
    behind b (creation name args []) = some ')' := by
  have hcut : creation name args [] =
      ("new".toList ++ ' ' :: generic name args ['(']) ++ [')'] := by simp [creation, generic]
  rw [hcut, behind_concat]

theorem instantiated_hit (s : ContainerShape) (hs : s ∈ known) (a : s.Parts) (b : Option Char)
    (rest : Line) :
    s.instantiated.pattern.matchAt ⟨b, creation s.source.toList a.text rest⟩ =
      some ⟨b, creation s.source.toList a.text [], a.marks ('>' :: '(' :: ')' :: rest), rest⟩ := by
  obtain ⟨hne, hw⟩ := source_word s hs
  have hfollows : Follows [] ('(' :: ')' :: rest) :=
    ⟨by simp, stops_cons _ '(' _ (by decide)⟩
  have hspace : ∀ (after : Line) (m : List Mark) (f : Place → List Mark → Option Hit),
      space.matchK ⟨some 'w', ' ' :: (s.source.toList ++ after)⟩ m f =
        f ⟨some ' ', s.source.toList ++ after⟩ m := fun after m f =>
    matchK_chars .blank _ [' '] _ m f (by simp) (by decide) (stops_blank_word _ after hne hw)
  rw [matchAt, instantiated, matchK_all_cons]
  refine (matchK_text "new".toList b _ [] _).trans ?_
  rw [matchK_all_cons]
  refine (hspace _ _ _).trans ?_
  rw [matchK_all_cons, lit, matchK_text, matchK_all_cons]
  refine arguments_matchK s a _ [] _ [] _ _ hfollows ?_
  rw [List.nil_append, matchK_all_cons, gap,
    matchK_span_none .blank _ _ _ _ (stops_cons _ '(' _ (by decide)), matchK_all_cons]
  refine (matchK_char '(' _ _ _ _).trans ?_
  rw [matchK_all_cons, matchK_span_none .blank _ _ _ _ (stops_cons _ ')' _ (by decide)),
    matchK_all_cons]
  refine (matchK_char ')' _ _ _ _).trans ?_
  rw [matchK_all_nil, creation_append _ _ rest, textBetween_left, List.append_nil]

theorem instantiated_apply (s : ContainerShape) (hs : s ∈ known) (a : s.Parts) (pre rest : Line)
    (hpre : Quiet s.instantiated.pattern none pre (creation s.source.toList a.text rest))
    (hpost : Quiet s.instantiated.pattern (some ')') rest []) :
    s.instantiated.apply (pre ++ creation s.source.toList a.text rest) =
      pre ++ creation s.target.toList a.written rest := by
  have hhit := instantiated_hit s hs a (behind none pre) rest
  have hlast := behind_creation (behind none pre) s.source.toList a.text
  rw [creation_append _ _ rest] at hhit hpre ⊢
  rw [Edit.apply, replaceAll_single s.instantiated.pattern s.instantiated.render pre _ rest _ hpre
    hhit rfl (by simp [creation]) (hlast ▸ hpost)]
  rw [Edit.render, instantiated, List.cons_append, List.cons_append, List.flatMap_cons,
    List.flatMap_cons, List.flatMap_append, argumentParts_render s a _ _ rfl]
  simp [Part.render, creation, generic]

end JvsSharp.ContainerShape
