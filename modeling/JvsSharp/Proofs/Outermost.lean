import JvsSharp.Proofs.Lookup
import JvsSharp.Proofs.TypeExpr

/-!
# Which container a declared field is bound to

The shapes are tried in the order of the catalog, each of them anywhere in the
declaration, so a field is bound to the first shape that occurs in its type at
all. The text of the element types starts behind that shape and goes on to the
last bracket of the type: it is balanced only if the shape is the outermost
one.
-/

set_option autoImplicit false

namespace JvsSharp
open Pattern ContainerShape TypeExpr

/-- The leftmost place of a shape in the text of a type: `pre` before its name, `tail` behind
its bracket. -/
structure Mention (s : ContainerShape) (text pre tail : Line) : Prop where
  text_eq : text = pre ++ (s.source.toList ++ '<' :: tail)
  quiet : ∀ ps b rest, Quiet (s.opening ps) b pre (s.source.toList ++ '<' :: (tail ++ rest))
  outside : ∀ b, b.any Unicode.isWord = false → (behind b pre).any Unicode.isWord = false
  opened : pre.count '>' ≤ pre.count '<'
  opensType : OpensType tail
  comma : s.mapLike = true → ',' ∈ tail

namespace Mention

variable {s : ContainerShape} {text pre tail : Line}

theorem extend (h : Mention s text pre tail) (xs ys : Line)
    (hquiet : ∀ ps b rest, Quiet (s.opening ps) b xs rest)
    (houtside : ∀ b, b.any Unicode.isWord = false → (behind b xs).any Unicode.isWord = false)
    (hopened : xs.count '>' ≤ xs.count '<') :
    Mention s (xs ++ (text ++ ys)) (xs ++ pre) (tail ++ ys) where
  text_eq := by
    rw [h.text_eq]
    simp
  quiet ps b rest := by
    refine .append (hquiet ps b _) ?_
    rw [List.append_assoc]
    exact h.quiet ps _ (ys ++ rest)
  outside b hb := by
    rw [behind_append]
    exact h.outside _ (houtside b hb)
  opened := by
    have hpre := h.opened
    rw [List.count_append, List.count_append]
    omega
  opensType := opensType_append _ _ h.opensType
  comma hs := List.mem_append_left _ (h.comma hs)

theorem head_outside (r : ContainerShape) (gap : Blanks) (b : Option Char) :
    (behind b (head r gap)).any Unicode.isWord = false := by
  rw [head, ← List.append_assoc, behind_concat]
  decide

theorem head_count (r : ContainerShape) (hr : r ∈ known) (gap : Blanks) :
    (head r gap).count '<' = (head r gap).count '>' + 1 := by
  have hcount := depthFrom_count 0 1 _ (depthFrom_head r hr gap 0)
  omega

theorem under (h : Mention s text pre tail) (hs : s ∈ known) (r : ContainerShape)
    (hr : r ∈ known) (gap : Blanks) (hother : (r == s && gap.1.isEmpty) = false) (ys : Line) :
    Mention s (head r gap ++ (text ++ ys)) (head r gap ++ pre) (tail ++ ys) := by
  refine h.extend _ ys (quiet_head r s hr hs gap hother) (fun b _ => head_outside r gap b) ?_
  have hcount := head_count r hr gap
  omega

theorem comma_outside (xs : Line) (b : Option Char) :
    (behind b (xs ++ [','])).any Unicode.isWord = false := by
  rw [behind_concat]
  decide

/-- The mention within the value of a map whose key has none. -/
theorem beside (h : Mention s text pre tail) (hs : s ∈ known) (r : ContainerShape)
    (hr : r ∈ known) (gap : Blanks) (hother : (r == s && gap.1.isEmpty) = false) (key : TypeExpr)
    (hkey : key.mentions s = false) (ys : Line) :
    Mention s (head r gap ++ (key.render ++ ([','] ++ (text ++ ys))))
      (head r gap ++ (key.render ++ [','] ++ pre)) (tail ++ ys) := by
  have hcount := count_render key
  have hinner := h.extend (key.render ++ [',']) ys ?_ (fun b _ => comma_outside _ b) ?_
  · have houter := hinner.extend (head r gap) [] (quiet_head r s hr hs gap hother)
      (fun b _ => head_outside r gap b) (by have := head_count r hr gap; omega)
    simpa using houter
  · intro ps b rest
    refine .append (quiet_render s hs ps key hkey b _ ?_ (by simp)) ?_
    · exact endsWord_cons ',' rest (by decide)
    · exact opening_quiet_others s hs ps _ _ _ (by decide)
  · rw [List.count_append, List.count_append]
    simp
    omega

theorem own (s : ContainerShape) (gap : Blanks) (hgap : gap.1 = []) (text : Line)
    (hopens : OpensType text) (hcomma : s.mapLike = true → ',' ∈ text) :
    Mention s (head s gap ++ text) [] text where
  text_eq := by simp [head, hgap]
  quiet _ _ _ := trivial
  outside _ hb := hb
  opened := Nat.le_refl _
  opensType := hopens
  comma := hcomma

end Mention

theorem TypeExpr.exists_mention (s : ContainerShape) (hs : s ∈ known) (t : TypeExpr)
    (h : t.mentions s = true) : ∃ pre tail, Mention s t.render pre tail := by
  induction t with
  | name w => exact nomatch h
  | list r hr single gap element ih =>
    cases hown : (r == s && gap.1.isEmpty) with
    | true =>
      rw [Bool.and_eq_true, beq_iff_eq, List.isEmpty_iff] at hown
      obtain ⟨rfl, hgap⟩ := hown
      refine ⟨[], element.render ++ ['>'], .own r gap hgap _ ?_ ?_⟩
      · exact opensType_append _ _ (opensType_render element)
      · simp [single]
    | false =>
      rw [mentions, hown, Bool.false_or] at h
      obtain ⟨pre, tail, hmention⟩ := ih h
      exact ⟨_, _, hmention.under hs r hr gap hown ['>']⟩
  | map r hr pair gap key value ihk ihv =>
    cases hown : (r == s && gap.1.isEmpty) with
    | true =>
      rw [Bool.and_eq_true, beq_iff_eq, List.isEmpty_iff] at hown
      obtain ⟨rfl, hgap⟩ := hown
      refine ⟨[], _, .own r gap hgap _ ?_ ?_⟩
      · exact opensType_append _ _ (opensType_render key)
      · simp
    | false =>
      rw [mentions, hown, Bool.false_or] at h
      -- The key comes first, so the value counts only if the key is without the shape.
      cases hkey : key.mentions s with
      | true =>
        obtain ⟨pre, tail, hmention⟩ := ihk hkey
        exact ⟨_, _, hmention.under hs r hr gap hown _⟩
      | false =>
        rw [hkey, Bool.false_or] at h
        obtain ⟨pre, tail, hmention⟩ := ihv h
        exact ⟨_, _, hmention.beside hs r hr gap hown key hkey ['>']⟩
  | padded before type after ih =>
    obtain ⟨pre, tail, hmention⟩ := ih h
    refine ⟨_, _, hmention.extend before.1 after.1 ?_ ?_ ?_⟩
    · exact fun ps b rest => opening_quiet_others s hs ps b _ rest (isWord_blanks before)
    · exact fun b hb => behind_others b before.1 hb (isWord_blanks before)
    · have hcount := depthFrom_count 0 0 before.1
        (depthFrom_plain 0 _ fun c hc => isBracket_of_isBlank c (before.2 c hc))
      omega

theorem plain_of_typeText (c : Char) (h : Rules.typeText.mem c = true) (hc : c ≠ ',') :
    plainTypeText.mem c = true := by
  simp only [plainTypeText, Rules.typeText, CharClass.mem, Bool.or_eq_true, List.contains_eq_mem,
    List.mem_cons, List.not_mem_nil, or_false, decide_eq_true_eq] at h ⊢
  rcases h with h | h | h | h | h
  · exact Or.inl h
  · exact Or.inr (Or.inl h)
  · exact Or.inr (Or.inr (Or.inl h))
  · exact Or.inr (Or.inr (Or.inr h))
  · exact absurd h hc

theorem last_comma (body : Line) (h : ',' ∈ body) :
    ∃ key value, body = key ++ ',' :: value ∧ ',' ∉ value := by
  obtain ⟨value, key, hsplit, hnot⟩ := List.eq_append_cons_of_mem (List.mem_reverse.2 h)
  refine ⟨key.reverse, value.reverse, ?_, by simpa using hnot⟩
  rw [← List.reverse_reverse body, hsplit]
  simp

/-- A text in which a type begins, and another one behind every comma, is cut by the pattern
of the shape; the types it keeps have the same brackets. -/
theorem exists_parts (s : ContainerShape) (body : Line)
    (htype : ∀ c ∈ body, Rules.typeText.mem c = true) (hne : body ≠ [])
    (hstart : body.head? ≠ some ',') (hcomma : s.mapLike = true → ',' ∈ body)
    (hafter : ∀ v, (',' :: v) <:+ body → v.dropWhile Unicode.isBlank ≠ []) :
    ∃ a : s.Parts, a.text = body ∧ brackets a.types = brackets body := by
  cases hs : s.mapLike with
  | false =>
    refine ⟨⟨body, [], [], hne, htype, by simp, by simp [hs], by simp, rfl⟩, ?_, ?_⟩
    · simp [Parts.text, hs]
    · simp [Parts.types, hs, Rules.brackets_primitiveTypes, brackets_trim]
  | true =>
    -- The key takes all commas but the last one.
    obtain ⟨key, value, rfl, hvalue⟩ := last_comma body (hcomma hs)
    have hkey : key ≠ [] := by
      rintro rfl
      exact hstart rfl
    have hcut : value.takeWhile Unicode.isBlank ++ value.dropWhile Unicode.isBlank = value :=
      List.takeWhile_append_dropWhile
    have hgap : ∀ c ∈ value.takeWhile Unicode.isBlank, Unicode.isBlank c = true :=
      List.all_eq_true.1 List.all_takeWhile
    have hsecond : Stops .blank (value.dropWhile Unicode.isBlank) := by
      have hnot := List.head?_dropWhile_not Unicode.isBlank value
      unfold Stops
      cases hh : (value.dropWhile Unicode.isBlank).head? with
      | none => rfl
      | some c =>
        rw [hh] at hnot
        simpa [CharClass.mem] using hnot
    have hplain : ∀ c ∈ value.dropWhile Unicode.isBlank, plainTypeText.mem c = true := by
      intro c hc
      have hmem : c ∈ value := (List.dropWhile_suffix _).subset hc
      refine plain_of_typeText c (htype c (by simp [hmem])) ?_
      rintro rfl
      exact hvalue hmem
    refine ⟨⟨key, value.takeWhile Unicode.isBlank, value.dropWhile Unicode.isBlank, hkey,
      fun c hc => htype c (by simp [hc]), hgap,
      fun _ => hafter value (List.suffix_append key _), hplain, hsecond⟩, ?_, ?_⟩
    · simp only [Parts.text, hs, if_true, hcut]
    · have hblank : brackets (value.takeWhile Unicode.isBlank) = [] :=
        brackets_eq_nil _ fun c hc => isBracket_of_isBlank c (hgap c hc)
      have hvalue : brackets (value.dropWhile Unicode.isBlank) = brackets value := by
        rw [← congrArg brackets hcut, brackets_append, hblank, List.nil_append]
      have hcomma : ∀ xs, brackets (',' :: xs) = brackets xs := fun xs => rfl
      have hsep : brackets ", ".toList = [] := by decide
      simp only [Parts.types, hs, if_true, brackets_append, Rules.brackets_primitiveTypes,
        brackets_trim, hsep, hvalue, hcomma, List.append_nil]

inductive FieldType where
  | list (s : ContainerShape) (known : s ∈ ContainerShape.known) (single : s.mapLike = false)
      (element : TypeExpr)
  | map (s : ContainerShape) (known : s ∈ ContainerShape.known) (pair : s.mapLike = true)
      (key value : TypeExpr)

namespace FieldType

def noGap : Blanks := ⟨[], blank_nil⟩

def shape : FieldType → ContainerShape
  | .list s _ _ _ => s
  | .map s _ _ _ _ => s

def expr : FieldType → TypeExpr
  | .list s hs single element => .list s hs single noGap element
  | .map s hs pair key value => .map s hs pair noGap key value

def declare (t : FieldType) (name : Word) : Line := t.expr.render ++ (' ' :: name.1 ++ [';'])

theorem shape_known (t : FieldType) : t.shape ∈ known := by
  cases t with
  | list s hs _ _ => exact hs
  | map s hs _ _ _ => exact hs

theorem mentions_shape (t : FieldType) : t.expr.mentions t.shape = true := by
  cases t with
  | list s hs _ element => simp [expr, shape, mentions, noGap]
  | map s hs _ key value => simp [expr, shape, mentions, noGap]

theorem not_own (r s : ContainerShape) (h : s ≠ r) :
    (r == s && noGap.1.isEmpty) = false := by
  simp [Ne.symm h]

/-- The outermost shape is mentioned first, and what stands in its brackets is balanced. -/
theorem own_mention (t : FieldType) :
    ∃ body, Mention t.shape t.expr.render [] (body ++ ['>']) ∧ Balanced body := by
  cases t with
  | list r hr single element =>
    refine ⟨element.render, .own r noGap rfl _ ?_ ?_, depthFrom_render element 0⟩
    · exact opensType_append _ _ (opensType_render element)
    · simp [single]
  | map r hr pair key value =>
    refine ⟨key.render ++ ([','] ++ value.render), ?_, ?_⟩
    · have hown := Mention.own r noGap rfl (key.render ++ ([','] ++ (value.render ++ ['>'])))
        (opensType_append _ _ (opensType_render key)) (by simp)
      simpa [expr, render, shape] using hown
    · rw [Balanced, depthFrom_append, depthFrom_render, Option.bind_some, depthFrom_append]
      exact depthFrom_render value 0

theorem inner_mention (t : FieldType) (s : ContainerShape) (hs : s ∈ known)
    (h : t.expr.mentions s = true) (hshape : s ≠ t.shape) :
    ∃ pre body, Mention s t.expr.render pre (body ++ ['>']) ∧ pre.count '>' < pre.count '<' := by
  cases t with
  | list r hr single element =>
    have hother := not_own r s hshape
    rw [expr, mentions, hother, Bool.false_or] at h
    obtain ⟨pre, tail, hmention⟩ := element.exists_mention s hs h
    refine ⟨_, tail, hmention.under hs r hr noGap hother ['>'], ?_⟩
    have hcount := Mention.head_count r hr noGap
    have hopened := hmention.opened
    rw [List.count_append, List.count_append]
    omega
  | map r hr pair key value =>
    have hother := not_own r s hshape
    have hcount := Mention.head_count r hr noGap
    rw [expr, mentions, hother, Bool.false_or] at h
    cases hkey : key.mentions s with
    | true =>
      obtain ⟨pre, tail, hmention⟩ := key.exists_mention s hs hkey
      refine ⟨head r noGap ++ pre, tail ++ ([','] ++ value.render), ?_, ?_⟩
      · have hunder := hmention.under hs r hr noGap hother ([','] ++ (value.render ++ ['>']))
        simpa [expr, render] using hunder
      · have hopened := hmention.opened
        rw [List.count_append, List.count_append]
        omega
    | false =>
      rw [hkey, Bool.false_or] at h
      obtain ⟨pre, tail, hmention⟩ := value.exists_mention s hs h
      refine ⟨_, tail, hmention.beside hs r hr noGap hother key hkey ['>'], ?_⟩
      have hopened := hmention.opened
      have hbalance := count_render key
      simp only [List.count_append, List.count_singleton]
      simp
      omega

/-- Behind an open bracket, what goes on to the last bracket of the type is not balanced. -/
theorem inner_not_balanced (t : FieldType) (s : ContainerShape) (hs : s ∈ known)
    (pre body : Line) (h : Mention s t.expr.render pre (body ++ ['>']))
    (hopened : pre.count '>' < pre.count '<') : ¬Balanced body := by
  intro hbalanced
  have htotal := count_render t.expr
  have hbody := hbalanced.count
  have hhead := Mention.head_count s hs noGap
  have htext : t.expr.render = pre ++ (head s noGap ++ (body ++ ['>'])) := by
    rw [h.text_eq]
    simp [head, noGap]
  rw [htext] at htotal
  simp only [List.count_append, List.count_singleton] at htotal
  simp at htotal
  omega

/-- Behind the mention of a shape the type goes on to its last bracket. What stands between is
balanced for the outermost shape only. -/
theorem exists_mention (t : FieldType) (s : ContainerShape) (hs : s ∈ known)
    (h : t.expr.mentions s = true) :
    ∃ pre body, Mention s t.expr.render pre (body ++ ['>']) ∧
      (Balanced body ↔ s = t.shape) := by
  by_cases hshape : s = t.shape
  · obtain ⟨body, hmention, hbalanced⟩ := t.own_mention
    exact ⟨[], body, hshape ▸ hmention, iff_of_true hbalanced hshape⟩
  · obtain ⟨pre, body, hmention, hopened⟩ := t.inner_mention s hs h hshape
    have hnot := t.inner_not_balanced s hs pre body hmention hopened
    exact ⟨pre, body, hmention, iff_of_false hnot hshape⟩

theorem mention_parts (t : FieldType) (s : ContainerShape) (pre body : Line)
    (h : Mention s t.expr.render pre (body ++ ['>'])) :
    ∃ a : s.Parts, a.text = body ∧ brackets a.types = brackets body := by
  have hsuffix : (body ++ ['>']) <:+ t.expr.render := by
    refine ⟨pre ++ (s.source.toList ++ ['<']), ?_⟩
    rw [h.text_eq]
    simp
  have htype : ∀ c ∈ body, Rules.typeText.mem c = true := fun c hc =>
    typeText_render t.expr c (hsuffix.subset (by simp [hc]))
  have hopens := h.opensType
  have hne : body ≠ [] := by
    rintro rfl
    exact absurd hopens (by unfold OpensType; decide)
  refine exists_parts s body htype hne ?_ ?_ ?_
  · intro hhead
    obtain ⟨rest, rfl⟩ := List.head?_eq_some_iff.1 hhead
    have hcomma : Unicode.isWord ',' = true := hopens
    exact absurd hcomma (by decide)
  · intro hs
    simpa using h.comma hs
  · intro v hv hblank
    have hcomma : (',' :: (v ++ ['>'])) <:+ t.expr.render ++ [] := by
      rw [List.append_nil]
      obtain ⟨xs, hxs⟩ := hv
      have hbody : (',' :: (v ++ ['>'])) <:+ body ++ ['>'] := ⟨xs, by simp [← hxs]⟩
      exact hbody.trans hsuffix
    rcases opensType_of_comma t.expr [] _ hcomma with hopen | hnil
    · rw [OpensType, List.dropWhile_append, hblank, List.isEmpty_nil, if_pos rfl] at hopen
      exact absurd hopen (by decide)
    · simp at hnil

/-- What a shape finds in a declaration: nothing if the type is without it, and otherwise the
name with the types behind its leftmost place. -/
theorem declarationsOf_declare (t : FieldType) (name : Word) (s : ContainerShape)
    (hs : s ∈ known) :
    if t.expr.mentions s then
      ∃ types, Index.declarationsOf (t.declare name) s = [(name.1, ⟨s.target, types⟩)] ∧
        (Balanced types ↔ s = t.shape)
    else Index.declarationsOf (t.declare name) s = [] := by
  split
  · next h =>
    obtain ⟨pre, body, hmention, hbalanced⟩ := t.exists_mention s hs h
    obtain ⟨a, htext, hbrackets⟩ := t.mention_parts s pre body hmention
    obtain ⟨hit, hmatch, hall, hname, htypes⟩ := declaration_hit s hs a (behind none pre)
      (hmention.outside none rfl) name.1 name.2.1 name.2.2
    have hline : t.declare name =
        pre ++ (s.source.toList ++ '<' :: (a.text ++ '>' :: (' ' :: name.1 ++ [';']))) := by
      rw [declare, hmention.text_eq, htext]
      simp
    have hquiet := hmention.quiet [space, .group 3 word, gap, ";"] none (' ' :: name.1 ++ [';'])
    rw [List.append_assoc, List.singleton_append, ← htext] at hquiet
    have hhits := hits_single (Index.declaration s) pre _ hit hquiet hmatch hall (by simp)
    refine ⟨a.types, ?_, ?_⟩
    · rw [Index.declarationsOf, hline, hhits, List.map_singleton, hname, htypes]
    · rw [balanced_congr _ _ hbrackets]
      exact hbalanced
  · next h =>
    have hnone : t.expr.mentions s = false := by simpa using h
    have hquiet : Quiet (Index.declaration s) none (t.declare name) [] := by
      refine .append (quiet_render s hs _ t.expr hnone none _ ?_ (by simp))
        (opening_quiet_name s hs _ _ name.1 name.2.2)
      exact endsWord_cons ' ' _ (by decide)
    rw [Index.declarationsOf, hits_quiet _ _ hquiet]
    rfl

def bound (t : FieldType) : ContainerShape :=
  (known.find? fun s => t.expr.mentions s).getD t.shape

theorem bound_first (t : FieldType) :
    t.expr.mentions t.bound = true ∧
      ∃ before after, known = before ++ t.bound :: after ∧
        ∀ s ∈ before, t.expr.mentions s = false := by
  cases hfind : known.find? fun s => t.expr.mentions s with
  | none =>
    have hnone := List.find?_eq_none.1 hfind t.shape t.shape_known
    exact absurd t.mentions_shape hnone
  | some s =>
    have hbound : t.bound = s := by rw [bound, hfind, Option.getD_some]
    rw [hbound]
    obtain ⟨hs, before, after, hknown, hbefore⟩ := List.find?_eq_some_iff_append.1 hfind
    exact ⟨hs, before, after, hknown, fun r hr => by simpa using hbefore r hr⟩

/-- The outermost shape is found if none of those within it is listed before it. -/
theorem bound_eq_shape_iff (t : FieldType) :
    t.bound = t.shape ↔
      ∀ s, t.expr.mentions s = true → known.idxOf t.shape ≤ known.idxOf s := by
  obtain ⟨hbound, before, after, hknown, hbefore⟩ := t.bound_first
  have hplace : ∀ s, t.expr.mentions s = true →
      known.idxOf s = (t.bound :: after).idxOf s + before.length := by
    intro s hs
    have hnot : s ∉ before := by
      intro hmem
      rw [hbefore s hmem] at hs
      exact nomatch hs
    rw [hknown, List.idxOf_append, if_neg hnot]
  constructor
  · intro heq s hs
    rw [hplace s hs, ← heq, hplace t.bound hbound, List.idxOf_cons_self]
    omega
  · intro hfirst
    have hle := hfirst t.bound hbound
    rw [hplace t.bound hbound, hplace t.shape t.mentions_shape, List.idxOf_cons_self,
      List.idxOf_cons] at hle
    by_cases heq : t.bound = t.shape
    · exact heq
    · rw [beq_false_of_ne heq] at hle
      simp only [cond_false] at hle
      omega

theorem get?_declare (t : FieldType) (name : Word) :
    ∃ types, (Index.build [t.declare name]).get? name.1 = some ⟨t.bound.target, types⟩ ∧
      (Balanced types ↔ t.bound = t.shape) := by
  obtain ⟨hbound, before, after, hknown, hbefore⟩ := t.bound_first
  have hfound := t.declarationsOf_declare name t.bound (by simp [hknown])
  rw [if_pos hbound] at hfound
  obtain ⟨types, hdeclared, hbalanced⟩ := hfound
  refine ⟨types, ?_, hbalanced⟩
  have hskip : (before.findSome? fun s =>
      (Index.declarationsOf (t.declare name) s).lookup name.1) = none := by
    rw [List.findSome?_eq_none_iff]
    intro s hs
    have hnone := t.declarationsOf_declare name s (by simp [hknown, hs])
    rw [if_neg (by simp [hbefore s hs])] at hnone
    rw [hnone]
    rfl
  rw [Index.get?_build_line, hknown, List.findSome?_append, hskip, Option.none_or,
    List.findSome?_cons, hdeclared, List.lookup_cons_self]

/-- The index binds a declared field to the first shape of the catalog that occurs in its
type. This is the outermost one, with balanced element types, exactly if no shape within it
is listed before it. -/
theorem bound_outermost_iff (t : FieldType) (name : Word) :
    ∃ b, (Index.build [t.declare name]).get? name.1 = some b ∧ b.container = t.bound.target ∧
      (b.container = t.shape.target ∧ Balanced b.elementTypes ↔
        ∀ s, t.expr.mentions s = true → known.idxOf t.shape ≤ known.idxOf s) := by
  obtain ⟨types, hget, hbalanced⟩ := t.get?_declare name
  refine ⟨_, hget, rfl, ?_⟩
  rw [← bound_eq_shape_iff]
  constructor
  · intro h
    exact hbalanced.1 h.2
  · intro h
    exact ⟨congrArg ContainerShape.target h, hbalanced.2 h⟩

def mapOfLists : FieldType :=
  .map ⟨"HashMap", "Dictionary", true⟩ (by decide) rfl
    (.name ⟨"String".toList, by decide, isWordText_of_all _ (by decide)⟩)
    (.padded ⟨[' '], blank_space⟩
      (.list ⟨"ArrayList", "List", false⟩ (by decide) rfl noGap
        (.name ⟨"Integer".toList, by decide, isWordText_of_all _ (by decide)⟩))
      noGap)

/-- A map of lists is bound to the list within it, with one bracket too many. -/
theorem map_of_lists_bound_to_list :
    let name : Word := ⟨"m".toList, by decide, isWordText_of_all _ (by decide)⟩
    mapOfLists.declare name = "HashMap<String, ArrayList<Integer>> m;".toList ∧
      (Index.build [mapOfLists.declare name]).get? name.1 = some ⟨"List", "int>".toList⟩ ∧
      mapOfLists.shape.target = "Dictionary" ∧ ¬Balanced "int>".toList := by
  decide

end FieldType

end JvsSharp
