import JvsSharp.Proofs.Brackets
import JvsSharp.Proofs.TypeArguments

/-!
# Types of nested containers

A type is a name or a container over types, with white space around any of
them. A shape occurs in its text where its name is followed by an opening
bracket; the leftmost such place is where every pattern that opens with the
shape finds its first match.
-/

set_option autoImplicit false

namespace JvsSharp

inductive TypeExpr where
  | name (w : Word)
  | list (s : ContainerShape) (known : s ∈ ContainerShape.known) (single : s.mapLike = false)
      (gap : Blanks) (element : TypeExpr)
  | map (s : ContainerShape) (known : s ∈ ContainerShape.known) (pair : s.mapLike = true)
      (gap : Blanks) (key value : TypeExpr)
  | padded (before : Blanks) (type : TypeExpr) (after : Blanks)

namespace TypeExpr

def head (s : ContainerShape) (gap : Blanks) : Line := s.source.toList ++ (gap.1 ++ ['<'])

def render : TypeExpr → Line
  | .name w => w.1
  | .list s _ _ gap element => head s gap ++ (element.render ++ ['>'])
  | .map s _ _ gap key value => head s gap ++ (key.render ++ ([','] ++ (value.render ++ ['>'])))
  | .padded before type after => before.1 ++ (type.render ++ after.1)

def mentions (s : ContainerShape) : TypeExpr → Bool
  | .name _ => false
  | .list r _ _ gap element => (r == s && gap.1.isEmpty) || element.mentions s
  | .map r _ _ gap key value => (r == s && gap.1.isEmpty) || key.mentions s || value.mentions s
  | .padded _ type _ => type.mentions s

end TypeExpr

namespace ContainerShape
open Pattern

theorem source_injective (r s : ContainerShape) (hr : r ∈ known) (hs : s ∈ known)
    (h : r.source.toList = s.source.toList) : r = s := by
  have hall : ∀ r ∈ known, ∀ s ∈ known, r.source.toList = s.source.toList → r = s := by
    decide
  exact hall r hr s hs h

theorem arguments_none {α : Type} (s : ContainerShape) (b : Option Char) (rest : Line)
    (m : List Mark) (f : Place → List Mark → Option α) (h : rest.head? ≠ some '<') :
    s.arguments.matchK ⟨b, rest⟩ m f = none := by
  unfold arguments
  split
  · rw [matchK_all_cons]
    exact matchK_char_none '<' b rest m _ h
  · rw [matchK_all_cons]
    exact matchK_char_none '<' b rest m _ h

theorem opening_none (s : ContainerShape) (hs : s ∈ known) (ps : List Pattern) (b : Option Char)
    (rest : Line)
    (h : b.any Unicode.isWord = true ∨ ∀ body, rest ≠ s.source.toList ++ '<' :: body) :
    (s.opening ps).matchAt ⟨b, rest⟩ = none := by
  obtain ⟨hne, hw⟩ := source_word s hs
  rw [matchAt, opening, matchK_all_cons, matchK]
  split
  · next hedge =>
    rw [matchK_all_cons, lit, matchK]
    cases hskip : Place.skip? s.source.toList ⟨b, rest⟩ with
    | none => rfl
    | some c =>
      obtain ⟨hrest, -⟩ := skip?_leads s.source.toList ⟨b, rest⟩ c hskip
      have hrest : rest = s.source.toList ++ c.rest := hrest
      have hhead : c.rest.head? ≠ some '<' := by
        intro hhead
        rcases h with hb | hbody
        · rw [hrest] at hedge
          cases hsource : s.source.toList with
          | nil => exact absurd hsource hne
          | cons d w =>
            have hd := hw d (by simp [hsource])
            simp [Place.atEdge, hsource, hb, hd] at hedge
        · obtain ⟨body, hbody'⟩ := List.head?_eq_some_iff.1 hhead
          exact hbody body (by rw [hrest, hbody'])
      exact arguments_none s c.before c.rest [] _ hhead
  · rfl

theorem opening_quiet_others (s : ContainerShape) (hs : s ∈ known) (ps : List Pattern)
    (b : Option Char) (xs rest : Line) (hx : ∀ c ∈ xs, Unicode.isWord c = false) :
    Quiet (s.opening ps) b xs rest := by
  obtain ⟨hne, hw⟩ := source_word s hs
  induction xs generalizing b with
  | nil => trivial
  | cons c xs ih =>
    refine ⟨opening_none s hs ps b _ (Or.inr fun body hbody => ?_),
      ih (some c) fun d hd => hx d (by simp [hd])⟩
    cases hsource : s.source.toList with
    | nil => exact absurd hsource hne
    | cons d w =>
      rw [hsource, List.cons_append, List.cons.injEq] at hbody
      have hc := hx c (by simp)
      rw [hbody.1, hw d (by simp [hsource])] at hc
      exact nomatch hc

theorem opening_quiet_inner (s : ContainerShape) (hs : s ∈ known) (ps : List Pattern) (c : Char)
    (w rest : Line) (hc : Unicode.isWord c = true) (hw : IsWordText w) :
    Quiet (s.opening ps) (some c) w rest := by
  induction w generalizing c with
  | nil => trivial
  | cons d w ih =>
    have hd := hw d (by simp)
    exact ⟨opening_none s hs ps _ _ (Or.inl hc), ih d hd fun x hx => hw x (by simp [hx])⟩

/-- A word that is not the name of the shape, or that no bracket follows, is passed over. -/
theorem opening_quiet_word (s : ContainerShape) (hs : s ∈ known) (ps : List Pattern)
    (b : Option Char) (w rest : Line) (hw : IsWordText w) (hr : EndsWord rest)
    (h : w = s.source.toList → rest.head? ≠ some '<') : Quiet (s.opening ps) b w rest := by
  cases w with
  | nil => trivial
  | cons c w =>
    refine ⟨opening_none s hs ps b _ (Or.inr fun body hbody => ?_),
      opening_quiet_inner s hs ps c w rest (hw c (by simp)) fun x hx => hw x (by simp [hx])⟩
    have hends : EndsWord ('<' :: body) := endsWord_cons '<' body (by decide)
    have hsame : c :: w = s.source.toList :=
      run_unique _ _ rest ('<' :: body) hw (source_word s hs).2 hr hends hbody
    rw [← hsame, ← List.cons_append, List.append_cancel_left_eq] at hbody
    exact h hsame (by rw [hbody]; rfl)

theorem opening_quiet_name (s : ContainerShape) (hs : s ∈ known) (ps : List Pattern)
    (b : Option Char) (name : Line) (hname : IsWordText name) :
    Quiet (s.opening ps) b (' ' :: name ++ [';']) [] := by
  have hspace := opening_quiet_others s hs ps b [' '] (name ++ [';']) (by decide)
  refine .append ⟨hspace.1, ?_⟩ (opening_quiet_others s hs ps _ [';'] [] (by decide))
  exact opening_quiet_word s hs ps _ name _ hname (endsWord_cons ';' [] (by decide))
    (by simp)

end ContainerShape

namespace TypeExpr
open Pattern ContainerShape

theorem isWord_blanks (g : Blanks) : ∀ c ∈ g.1, Unicode.isWord c = false := fun c hc =>
  Unicode.isWord_of_isBlank c (g.2 c hc)

theorem head_blanks (g : Blanks) (d : Char) (hd : Unicode.isBlank d = false) (rest : Line)
    (h : rest.head? ≠ some d) : (g.1 ++ rest).head? ≠ some d := by
  obtain ⟨g, hg⟩ := g
  cases g with
  | nil => exact h
  | cons c g =>
    have hc := hg c (by simp)
    rintro hcd
    cases hcd
    rw [hd] at hc
    exact nomatch hc

theorem endsWord_blanks (g : Blanks) (rest : Line) (h : EndsWord rest) :
    EndsWord (g.1 ++ rest) := by
  obtain ⟨g, hg⟩ := g
  cases g with
  | nil => exact h
  | cons c g => exact Unicode.isWord_of_isBlank c (hg c (by simp))

theorem quiet_head (r s : ContainerShape) (hr : r ∈ known) (hs : s ∈ known) (gap : Blanks)
    (h : (r == s && gap.1.isEmpty) = false) (ps : List Pattern) (b : Option Char) (rest : Line) :
    Quiet (s.opening ps) b (head r gap) rest := by
  have hbracket : ∀ c ∈ ['<'], Unicode.isWord c = false := by decide
  have hends : EndsWord (gap.1 ++ ('<' :: rest)) :=
    endsWord_blanks gap _ (endsWord_cons '<' rest (by decide))
  refine .append ?_ (.append (opening_quiet_others s hs ps _ _ _ (isWord_blanks gap))
    (opening_quiet_others s hs ps _ _ _ hbracket))
  rw [List.append_assoc]
  refine opening_quiet_word s hs ps b _ _ (source_word r hr).2 hends ?_
  intro hsource
  have hne : gap.1 ≠ [] := by
    intro hgap
    simp [source_injective r s hr hs hsource, hgap] at h
  obtain ⟨g, hg⟩ := gap
  cases g with
  | nil => exact absurd rfl hne
  | cons c g =>
    intro hc
    cases hc
    exact absurd (hg '<' (by simp)) (by decide)

theorem quiet_render (s : ContainerShape) (hs : s ∈ known) (ps : List Pattern) (t : TypeExpr)
    (h : t.mentions s = false) (b : Option Char) (rest : Line) (hr : EndsWord rest)
    (hopen : rest.head? ≠ some '<') : Quiet (s.opening ps) b t.render rest := by
  have hcomma : ∀ rest, EndsWord (',' :: rest) := fun rest =>
    endsWord_cons ',' rest (by decide)
  have hclose : ∀ rest, EndsWord ('>' :: rest) := fun rest =>
    endsWord_cons '>' rest (by decide)
  induction t generalizing b rest with
  | name w => exact opening_quiet_word s hs ps b w.1 rest w.2.2 hr fun _ => hopen
  | list r hknown _ gap element ih =>
    rw [mentions, Bool.or_eq_false_iff] at h
    refine .append (quiet_head r s hknown hs gap h.1 ps b _) (.append ?_ ?_)
    · exact ih h.2 _ _ (hclose rest) (by simp)
    · exact opening_quiet_others s hs ps _ _ _ (by decide)
  | map r hknown _ gap key value ihk ihv =>
    rw [mentions, Bool.or_eq_false_iff, Bool.or_eq_false_iff] at h
    refine .append (quiet_head r s hknown hs gap h.1.1 ps b _) ?_
    refine .append ?_ (.append ?_ (.append ?_ ?_))
    · exact ihk h.1.2 _ _ (hcomma _) (by simp)
    · exact opening_quiet_others s hs ps _ _ _ (by decide)
    · exact ihv h.2 _ _ (hclose rest) (by simp)
    · exact opening_quiet_others s hs ps _ _ _ (by decide)
  | padded before type after ih =>
    refine .append (opening_quiet_others s hs ps _ _ _ (isWord_blanks before)) (.append ?_ ?_)
    · exact ih h _ _ (endsWord_blanks after rest hr) (head_blanks after '<' (by decide) rest hopen)
    · exact opening_quiet_others s hs ps _ _ _ (isWord_blanks after)

def OpensType (text : Line) : Prop :=
  (text.dropWhile Unicode.isBlank).head?.any Unicode.isWord = true

theorem opensType_append (xs ys : Line) (h : OpensType xs) : OpensType (xs ++ ys) := by
  rw [OpensType] at h ⊢
  rw [List.dropWhile_append]
  split
  · next hempty =>
    rw [List.isEmpty_iff.1 hempty] at h
    exact nomatch h
  · next hempty =>
    cases hxs : xs.dropWhile Unicode.isBlank with
    | nil => simp [hxs] at hempty
    | cons c rest => simpa [hxs] using h

theorem opensType_word (w : Line) (hne : w ≠ []) (hw : IsWordText w) : OpensType w := by
  cases w with
  | nil => exact absurd rfl hne
  | cons c w =>
    have hc := hw c (by simp)
    have hblank : Unicode.isBlank c = false := by
      cases hb : Unicode.isBlank c with
      | false => rfl
      | true => exact nomatch hc.symm.trans (Unicode.isWord_of_isBlank c hb)
    simpa [OpensType, hblank] using hc

theorem opensType_render (t : TypeExpr) : OpensType t.render := by
  induction t with
  | name w => exact opensType_word w.1 w.2.1 w.2.2
  | list s hs _ gap element _ =>
    rw [render, head, List.append_assoc]
    exact opensType_append _ _ (opensType_word _ (source_word s hs).1 (source_word s hs).2)
  | map s hs _ gap key value _ _ =>
    rw [render, head, List.append_assoc]
    exact opensType_append _ _ (opensType_word _ (source_word s hs).1 (source_word s hs).2)
  | padded before type after ih =>
    rw [render, OpensType, List.dropWhile_append_of_pos before.2]
    exact opensType_append _ _ ih

theorem depthFrom_head (s : ContainerShape) (hs : s ∈ known) (gap : Blanks) (d : Nat) :
    depthFrom d (head s gap) = some (d + 1) := by
  have hsource : depthFrom d s.source.toList = some d :=
    depthFrom_plain d _ fun c hc => isBracket_of_isWord c ((source_word s hs).2 c hc)
  have hgap : depthFrom d gap.1 = some d :=
    depthFrom_plain d _ fun c hc => isBracket_of_isBlank c (gap.2 c hc)
  rw [head, depthFrom_append, hsource, Option.bind_some, depthFrom_append, hgap]
  rfl

/-- Behind a type as many brackets are open as before it. -/
theorem depthFrom_render (t : TypeExpr) (d : Nat) : depthFrom d t.render = some d := by
  have hclose : ∀ d, depthFrom (d + 1) ['>'] = some d := fun d => rfl
  have hcomma : ∀ d, depthFrom d [','] = some d := fun d => rfl
  have hgap : ∀ (gap : Blanks) d, depthFrom d gap.1 = some d := fun gap d =>
    depthFrom_plain d _ fun c hc => isBracket_of_isBlank c (gap.2 c hc)
  induction t generalizing d with
  | name w => exact depthFrom_plain d _ fun c hc => isBracket_of_isWord c (w.2.2 c hc)
  | list s hs _ gap element ih =>
    rw [render, depthFrom_append, depthFrom_head s hs, Option.bind_some, depthFrom_append, ih,
      Option.bind_some, hclose]
  | map s hs _ gap key value ihk ihv =>
    rw [render, depthFrom_append, depthFrom_head s hs, Option.bind_some, depthFrom_append, ihk,
      Option.bind_some, depthFrom_append, hcomma, Option.bind_some, depthFrom_append, ihv,
      Option.bind_some, hclose]
  | padded before type after ih =>
    rw [render, depthFrom_append, hgap, Option.bind_some, depthFrom_append, ih, Option.bind_some,
      hgap]

theorem count_render (t : TypeExpr) : t.render.count '<' = t.render.count '>' :=
  Balanced.count (depthFrom_render t 0)

theorem typeText_head (s : ContainerShape) (hs : s ∈ known) (gap : Blanks) :
    ∀ c ∈ head s gap, Rules.typeText.mem c = true := by
  intro c hc
  rcases List.mem_append.1 hc with hc | hc
  · exact typeText_word c ((source_word s hs).2 c hc)
  · rcases List.mem_append.1 hc with hc | hc
    · exact typeText_blank c (gap.2 c hc)
    · exact List.mem_singleton.1 hc ▸ by decide

theorem typeText_render (t : TypeExpr) : ∀ c ∈ t.render, Rules.typeText.mem c = true := by
  have hclose : Rules.typeText.mem '>' = true := by decide
  have hcomma : Rules.typeText.mem ',' = true := by decide
  induction t with
  | name w => exact fun c hc => typeText_word c (w.2.2 c hc)
  | list s hs _ gap element ih =>
    intro c hc
    simp only [render, List.mem_append, List.mem_singleton] at hc
    rcases hc with hc | hc | rfl
    · exact typeText_head s hs gap c hc
    · exact ih c hc
    · exact hclose
  | map s hs _ gap key value ihk ihv =>
    intro c hc
    simp only [render, List.mem_append, List.mem_singleton] at hc
    rcases hc with hc | hc | rfl | hc | rfl
    · exact typeText_head s hs gap c hc
    · exact ihk c hc
    · exact hcomma
    · exact ihv c hc
    · exact hclose
  | padded before type after ih =>
    intro c hc
    simp only [render, List.mem_append] at hc
    rcases hc with hc | hc | hc
    · exact typeText_blank c (before.2 c hc)
    · exact ih c hc
    · exact typeText_blank c (after.2 c hc)

theorem suffix_of_not_mem (c : Char) (xs ys v : Line) (hc : c ∉ xs)
    (h : (c :: v) <:+ xs ++ ys) : (c :: v) <:+ ys := by
  induction xs with
  | nil => exact h
  | cons x xs ih =>
    rw [List.cons_append, List.suffix_cons_iff] at h
    rcases h with h | h
    · rw [List.cons.injEq] at h
      exact absurd (by simp [h.1]) hc
    · exact ih (fun hmem => hc (by simp [hmem])) h

theorem comma_not_mem_head (s : ContainerShape) (hs : s ∈ known) (gap : Blanks) :
    ',' ∉ head s gap := by
  intro hc
  rcases List.mem_append.1 hc with hc | hc
  · exact absurd ((source_word s hs).2 ',' hc) (by decide)
  · rcases List.mem_append.1 hc with hc | hc
    · exact absurd (gap.2 ',' hc) (by decide)
    · simp at hc

/-- Behind every comma of a type another type begins. -/
theorem opensType_of_comma (t : TypeExpr) (rest v : Line)
    (h : (',' :: v) <:+ t.render ++ rest) : OpensType v ∨ (',' :: v) <:+ rest := by
  induction t generalizing rest with
  | name w =>
    refine Or.inr (suffix_of_not_mem ',' w.1 rest v (fun hc => ?_) h)
    exact absurd (w.2.2 ',' hc) (by decide)
  | list s hs _ gap element ih =>
    rw [render, List.append_assoc, List.append_assoc] at h
    rcases ih _ (suffix_of_not_mem ',' _ _ v (comma_not_mem_head s hs gap) h) with h | h
    · exact Or.inl h
    · exact Or.inr (suffix_of_not_mem ',' ['>'] rest v (by simp) h)
  | map s hs _ gap key value ihk ihv =>
    simp only [render, List.append_assoc] at h
    rcases ihk _ (suffix_of_not_mem ',' _ _ v (comma_not_mem_head s hs gap) h) with h | h
    · exact Or.inl h
    · rw [List.singleton_append, List.suffix_cons_iff] at h
      rcases h with h | h
      · rw [List.cons.injEq] at h
        exact Or.inl (h.2 ▸ opensType_append _ _ (opensType_render value))
      · rcases ihv _ h with h | h
        · exact Or.inl h
        · exact Or.inr (suffix_of_not_mem ',' ['>'] rest v (by simp) h)
  | padded before type after ih =>
    have hblank : ∀ g : Blanks, ',' ∉ g.1 := fun g hc => absurd (g.2 ',' hc) (by decide)
    rw [render, List.append_assoc, List.append_assoc] at h
    rcases ih _ (suffix_of_not_mem ',' _ _ v (hblank before) h) with h | h
    · exact Or.inl h
    · exact Or.inr (suffix_of_not_mem ',' _ rest v (hblank after) h)

end TypeExpr

end JvsSharp
