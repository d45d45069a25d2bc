import JvsSharp.Proofs.Receivers

/-!
# No read of a scanner is left

A read is a call without arguments on a word. The parenthesis that closes it
is the first one of its kind behind the receiver, and what takes its place
ends in a read of the console, which is no read of a scanner. So in a pass
over the reads of one kind none of them is left, and of the other kind there
are none that were not there before.
-/

set_option autoImplicit false

namespace JvsSharp
open Pattern

structure EmptyCall where
  receiver : Word
  beforeDot : Blanks
  behindDot : Blanks
  method : Line
  beforeOpen : Blanks
  inside : Blanks

namespace EmptyCall

def called (call : EmptyCall) : Line :=
  call.behindDot.1 ++ (call.method ++ (call.beforeOpen.1 ++ '(' :: call.inside.1))

def head (call : EmptyCall) : Line :=
  call.receiver.1 ++ (call.beforeDot.1 ++ '.' :: call.called)

def text (call : EmptyCall) : Line := call.head ++ [')']

theorem text_append (call : EmptyCall) (rest : Line) :
    call.text ++ rest = call.receiver.1 ++ (call.beforeDot.1 ++ '.' :: (call.behindDot.1 ++
      (call.method ++ (call.beforeOpen.1 ++ '(' :: (call.inside.1 ++ ')' :: rest))))) := by
  simp only [text, head, called, List.append_assoc, List.cons_append, List.nil_append]

end EmptyCall

def typedReads : List Line :=
  ["nextInt", "nextDouble", "nextFloat", "nextLong", "nextBoolean", "nextByte", "nextShort"].map
    String.toList

def lineReads : List Line := ["nextLine", "next"].map String.toList

def HoldsCall (methods : List Line) (b : Option Char) (line : Line) : Prop :=
  ∃ (pre : Line) (call : EmptyCall) (post : Line), call.method ∈ methods ∧
    line = pre ++ (call.text ++ post) ∧ (behind b pre).any Unicode.isWord = false

def HoldsRead (line : Line) : Prop := HoldsCall (lineReads ++ typedReads) none line

theorem holdsCall_append (ms ms' : List Line) (b : Option Char) (line : Line) :
    HoldsCall (ms ++ ms') b line ↔ HoldsCall ms b line ∨ HoldsCall ms' b line := by
  constructor
  · rintro ⟨pre, call, post, hmem, hcall⟩
    exact (List.mem_append.1 hmem).imp (fun h => ⟨pre, call, post, h, hcall⟩)
      fun h => ⟨pre, call, post, h, hcall⟩
  · rintro (⟨pre, call, post, hmem, hcall⟩ | ⟨pre, call, post, hmem, hcall⟩)
    · exact ⟨pre, call, post, List.mem_append_left _ hmem, hcall⟩
    · exact ⟨pre, call, post, List.mem_append_right _ hmem, hcall⟩

structure IsReadMethod (m : Line) : Prop where
  isWord : IsWordText m
  ne : m ≠ []
  sign : 'x' ∈ m

theorem isReadMethod_of_mem : ∀ m ∈ lineReads ++ typedReads, IsReadMethod m := by
  have hwords : AreWords (lineReads ++ typedReads) := areWords_of_all _ (by decide)
  have hsigns : ∀ m ∈ lineReads ++ typedReads, 'x' ∈ m := by decide
  exact fun m hm => ⟨(hwords m hm).2, (hwords m hm).1, hsigns m hm⟩

def IsConsoleRead (text : Line) : Prop :=
  ∃ stem tail, text = stem ++ (".ReadLine(".toList ++ ')' :: tail) ∧ ')' ∉ stem ∧
    (tail = [] ∨ tail = [')'])

namespace EmptyCall

variable (call : EmptyCall) (hmethod : IsReadMethod call.method)
include hmethod

theorem close_not_mem_head : ')' ∉ call.head := by
  have hreceiver := sign_not_mem_word call.receiver.2.2 ')' (by decide)
  have hname := sign_not_mem_word hmethod.isWord ')' (by decide)
  have hblanks : ∀ g : Blanks, ')' ∉ g.1 := fun g => sign_not_mem_blanks g ')' (by decide)
  simp [head, called, hreceiver, hname, hblanks]

omit hmethod in
/-- No call begins in what closes the read of a console. -/
theorem behind_closing {tail rest vs post : Line} (htail : tail = [] ∨ tail = [')'])
    (h : tail ++ rest = vs ++ (call.text ++ post)) :
    ∃ vs', rest = vs' ++ (call.text ++ post) ∧
      behind (some ')') vs = behind (some ')') vs' := by
  rcases htail with rfl | rfl
  · exact ⟨vs, h, rfl⟩
  · cases vs with
    | cons v vs =>
      rw [List.singleton_append, List.cons_append, List.cons.injEq] at h
      obtain ⟨rfl, h⟩ := h
      exact ⟨vs, h, rfl⟩
    | nil =>
      have hout := not_endsWord_append _ (call.beforeDot.1 ++ '.' :: call.called ++ [')'] ++ post)
        call.receiver.2.1 call.receiver.2.2
      refine absurd (endsWord_cons ')' rest (by decide)) ?_
      have hstart : ')' :: rest = call.receiver.1 ++
          (call.beforeDot.1 ++ '.' :: call.called ++ [')'] ++ post) := by
        simpa [text, head] using h
      rwa [hstart]

/-- The console's read has none of the letters that all reads of a scanner have. -/
theorem head_ne (xs ys : Line) : xs ++ call.head ≠ ys ++ ".ReadLine(".toList := by
  have hdot : '.' ∉ call.called := by
    have hname := sign_not_mem_word hmethod.isWord '.' (by decide)
    have hblanks : ∀ g : Blanks, '.' ∉ g.1 := fun g => sign_not_mem_blanks g '.' (by decide)
    simp [called, hname, hblanks]
  have hconsole : ".ReadLine(".toList = '.' :: "ReadLine(".toList := by decide
  intro heq
  rw [head, hconsole, ← List.append_assoc, ← List.append_assoc] at heq
  have hcalled := last_sign_cancel '.' _ _ _ _ hdot (by decide) heq
  have hsign : 'x' ∈ call.called :=
    List.mem_append_right _ (List.mem_append_left _ hmethod.sign)
  rw [hcalled] at hsign
  exact absurd hsign (by decide)

end EmptyCall

namespace Pattern

theorem chooses_empty : Chooses .empty [[]] where
  only c m r h := by
    rw [ends, List.mem_singleton] at h
    exact ⟨[], by simp, h ▸ .refl c⟩
  any w hw c c' m h := by
    rw [List.mem_singleton.1 hw] at h
    obtain ⟨b, rest⟩ := c
    obtain ⟨b', rest'⟩ := c'
    obtain ⟨hrest, hb⟩ := h
    simp only [List.nil_append, behind] at hrest hb
    exact ⟨m, by rw [ends, hrest, hb, List.mem_singleton]⟩

theorem Chooses.seq {p q : Pattern} {ws vs : List Line} (hp : Chooses p ws) (hq : Chooses q vs) :
    Chooses (.seq p q) (ws.flatMap fun w => vs.map (w ++ ·)) where
  only c m r h := by
    rw [ends, List.mem_flatMap] at h
    obtain ⟨s, hs, hr⟩ := h
    obtain ⟨w, hw, hleads⟩ := hp.only c m s hs
    obtain ⟨v, hv, hleads'⟩ := hq.only s.1 s.2 r hr
    exact ⟨w ++ v, List.mem_flatMap.2 ⟨w, hw, List.mem_map_of_mem hv⟩, hleads.trans hleads'⟩
  any u hu c c' m h := by
    obtain ⟨w, hw, hu⟩ := List.mem_flatMap.1 hu
    obtain ⟨v, hv, rfl⟩ := List.mem_map.1 hu
    let between : Place := ⟨behind c.before w, v ++ c'.rest⟩
    obtain ⟨m₁, hfirst⟩ := hp.any w hw c between m ⟨by rw [h.1, List.append_assoc], rfl⟩
    obtain ⟨m₂, hsecond⟩ := hq.any v hv between c' m₁ ⟨rfl, by rw [h.2, behind_append]⟩
    exact ⟨m₂, by rw [ends, List.mem_flatMap]; exact ⟨_, hfirst, hsecond⟩⟩

theorem Chooses.of_eq {p : Pattern} {ws vs : List Line} (hp : Chooses p ws) (h : ws = vs) :
    Chooses p vs := h ▸ hp

theorem Chooses.matchK_isSome {α : Type} {q : Pattern} {ws : List Line} (hq : Chooses q ws)
    (w : Line) (hw : w ∈ ws) (b : Option Char) (rest : Line) (m : List Mark)
    (f : Place → List Mark → Option α)
    (hf : ∀ m', (f ⟨behind b w, rest⟩ m').isSome = true) :
    (q.matchK ⟨b, w ++ rest⟩ m f).isSome = true := by
  obtain ⟨m', hends⟩ := hq.any w hw ⟨b, w ++ rest⟩ ⟨behind b w, rest⟩ m ⟨rfl, rfl⟩
  rw [matchK_eq, List.findSome?_isSome_iff]
  exact ⟨_, hends, hf m'⟩

end Pattern

namespace Rules

theorem chooses_typedMethod : Chooses typedMethod typedReads := by
  have hkinds := chooses_anyOf "Int" ["Double", "Float", "Long", "Boolean", "Byte", "Short"]
  refine ((chooses_text "next".toList).seq ((hkinds.group 1).seq chooses_empty)).of_eq ?_
  decide

theorem chooses_lineMethod : Chooses lineMethod lineReads := by
  have hline := (chooses_text "Line".toList).alt chooses_empty
  refine ((chooses_text "next".toList).seq (hline.seq chooses_empty)).of_eq ?_
  decide

section
variable {q : Pattern} {ms : List Line} (hq : Chooses q ms)
include hq

theorem emptyCall_ends (c : Place) (r : Place × List Mark) (h : r ∈ (emptyCall q).ends c []) :
    c.before.any Unicode.isWord = false ∧
      ∃ call : EmptyCall, call.method ∈ ms ∧ c.rest = call.text ++ r.1.rest := by
  simp only [emptyCall, mem_ends_all_cons] at h
  obtain ⟨s₁, h₁, s₂, h₂, s₃, h₃, s₄, h₄, s₅, h₅, s₆, h₆, s₇, h₇, s₈, h₈, s₉, h₉, s₀, h₀, h⟩ := h
  obtain ⟨hedge, rfl⟩ := mem_ends_edge _ _ _ h₁
  obtain ⟨receiver, hne, hreceiver, hleads, -⟩ := mem_ends_chars .word _ _ s₂ h₂
  obtain ⟨beforeDot, hbeforeDot⟩ := mem_ends_gap _ _ s₃ h₃
  obtain ⟨behindDot, hbehindDot⟩ := mem_ends_gap _ _ s₅ h₅
  obtain ⟨method, hmem, hmethod⟩ := hq.only _ _ s₆ h₆
  obtain ⟨beforeOpen, hbeforeOpen⟩ := mem_ends_gap _ _ s₇ h₇
  obtain ⟨inside, hinside⟩ := mem_ends_gap _ _ s₉ h₉
  have hdot := mem_ends_text ['.'] _ _ s₄ h₄
  have hopen := mem_ends_text ['('] _ _ s₈ h₈
  have hclose := mem_ends_text [')'] _ _ s₀ h₀
  obtain rfl : r = s₀ := List.mem_singleton.1 h
  refine ⟨Place.outside_of_atEdge hleads hne hreceiver hedge,
    ⟨⟨receiver, hne, hreceiver⟩, beforeDot, behindDot, method, beforeOpen, inside⟩, hmem, ?_⟩
  rw [EmptyCall.text_append, hleads.1, hbeforeDot, hdot.1, hbehindDot, hmethod.1, hbeforeOpen,
    hopen.1, hinside, hclose.1]
  rfl

theorem emptyCall_of_matchAt (c : Place) (h : Hit) (hm : (emptyCall q).matchAt c = some h) :
    ∃ call : EmptyCall, call.method ∈ ms ∧ h.text = call.text := by
  rw [matchAt_eq, Option.map_eq_some_iff] at hm
  obtain ⟨r, hr, rfl⟩ := hm
  obtain ⟨-, call, hmem, hrest⟩ := emptyCall_ends hq c r (List.mem_of_mem_head? hr)
  refine ⟨call, hmem, ?_⟩
  change textBetween c.rest r.1.rest = call.text
  rw [hrest, textBetween_left]

theorem emptyCall_found (b : Option Char) (hb : b.any Unicode.isWord = false) (call : EmptyCall)
    (hmem : call.method ∈ ms) (hmethod : IsReadMethod call.method) (post : Line) :
    ((emptyCall q).matchAt ⟨b, call.text ++ post⟩).isSome = true := by
  have hdot : Stops .word (call.beforeDot.1 ++ '.' :: (call.behindDot.1 ++ (call.method ++
      (call.beforeOpen.1 ++ '(' :: (call.inside.1 ++ ')' :: post))))) :=
    TypeExpr.endsWord_blanks call.beforeDot _ (endsWord_cons '.' _ (by decide))
  rw [call.text_append, matchAt, emptyCall, matchK_all_cons,
    matchK_edge _ _ _ (Place.atEdge_word b _ _ hb call.receiver.2.1 call.receiver.2.2),
    matchK_all_cons, word,
    matchK_chars .word _ _ _ _ _ call.receiver.2.1 call.receiver.2.2 hdot, matchK_all_cons, gap,
    matchK_span .blank _ _ _ _ _ call.beforeDot.2 (stops_cons .blank '.' _ (by decide)),
    matchK_all_cons, lit, show ".".toList = ['.'] from rfl, matchK_char, matchK_all_cons,
    matchK_span .blank _ _ _ _ _ call.behindDot.2
      (ContainerShape.stops_blank_word call.method _ hmethod.ne hmethod.isWord), matchK_all_cons]
  refine hq.matchK_isSome _ hmem _ _ _ _ fun m => ?_
  rw [matchK_all_cons,
    matchK_span .blank _ _ _ _ _ call.beforeOpen.2 (stops_cons .blank '(' _ (by decide)),
    matchK_all_cons, lit, show "(".toList = ['('] from rfl, matchK_char, matchK_all_cons,
    matchK_span .blank _ _ _ _ _ call.inside.2 (stops_cons .blank ')' _ (by decide)),
    matchK_all_cons, lit, show ")".toList = [')'] from rfl, matchK_char, matchK_all_nil]
  rfl

theorem emptyCall_occursIn_iff (hms : ∀ m ∈ ms, IsReadMethod m) (line : Line) :
    (emptyCall q).occursIn line = true ↔ HoldsCall ms none line := by
  rw [occursIn_iff]
  constructor
  · rintro ⟨pre, rest, hline, hsome⟩
    obtain ⟨r, hr⟩ := (matchAt_isSome_iff _ _).1 hsome
    obtain ⟨hout, call, hmem, hrest⟩ := emptyCall_ends hq _ r hr
    exact ⟨pre, call, r.1.rest, hmem, hline.trans (congrArg (pre ++ ·) hrest), hout⟩
  · rintro ⟨pre, call, post, hmem, hline, hout⟩
    exact ⟨pre, _, hline, emptyCall_found hq _ hout call hmem (hms _ hmem) post⟩

section
variable {f : Hit → Line} (hf : ∀ h, IsConsoleRead (f h)) {b : Option Char} {line line' : Line}
  (h : (emptyCall q).Replaced f b line line')
include hf h

omit hq in
/-- A text up to the first closing parenthesis of the result was there before, or it ends in a
read of the console. -/
theorem before_first_close (xs rest : Line) (hxs : ')' ∉ xs) (hline : line' = xs ++ ')' :: rest) :
    (∃ rest', line = xs ++ ')' :: rest') ∨ ∃ ys, xs = ys ++ ".ReadLine(".toList := by
  induction h generalizing xs with
  | nil b => exact absurd hline (by simp)
  | keep hm hrest ih =>
    cases xs with
    | nil =>
      rw [List.nil_append, List.cons.injEq] at hline
      exact .inl ⟨_, by rw [hline.1, List.nil_append]⟩
    | cons x xs =>
      rw [List.cons_append, List.cons.injEq] at hline
      obtain ⟨rfl, hline⟩ := hline
      rcases ih xs (fun hmem => hxs (by simp [hmem])) hline with ⟨rest', heq⟩ | ⟨ys, heq⟩
      · exact .inl ⟨rest', congrArg (_ :: ·) heq⟩
      · exact .inr ⟨_ :: ys, congrArg (_ :: ·) heq⟩
  | hit hm hrest ih =>
    obtain ⟨stem, tail, htext, hstem, -⟩ := hf _
    rw [htext, List.append_assoc, List.append_assoc, ← List.append_assoc stem,
      List.cons_append] at hline
    have hwritten : ')' ∉ stem ++ ".ReadLine(".toList := by
      rw [List.mem_append, not_or]
      exact ⟨hstem, by decide⟩
    exact .inr ⟨stem, (append_cons_cancel ')' _ _ _ _ hwritten hxs hline).symm⟩

/-- A read in the result of a pass is none of those that are replaced, and it was there
before. -/
theorem read_left (pre : Line) (call : EmptyCall) (post : Line)
    (hmethod : IsReadMethod call.method) (hline : line' = pre ++ (call.text ++ post))
    (hout : (behind b pre).any Unicode.isWord = false) :
    call.method ∉ ms ∧ ∃ pre' post', line = pre' ++ (call.text ++ post') ∧
      (behind b pre').any Unicode.isWord = false := by
  induction h generalizing pre with
  | nil b => simp [EmptyCall.text] at hline
  | @keep b c rest rest' hm hrest ih =>
    cases pre with
    | cons x pre =>
      rw [List.cons_append, List.cons.injEq] at hline
      obtain ⟨rfl, hline⟩ := hline
      obtain ⟨hnot, pre', post', rfl, hout'⟩ := ih pre hline hout
      exact ⟨hnot, c :: pre', post', rfl, hout'⟩
    | nil =>
      rw [List.nil_append, EmptyCall.text, List.append_assoc] at hline
      rcases before_first_close hf (.keep hm hrest) call.head post
        (call.close_not_mem_head hmethod) hline with ⟨post', hkept⟩ | ⟨ys, hwritten⟩
      · have hcut : c :: rest = call.text ++ post' := by
          rw [hkept, EmptyCall.text, List.append_assoc, List.singleton_append]
        refine ⟨fun hmem => ?_, [], post', hcut, hout⟩
        have hfound := emptyCall_found hq b hout call hmem hmethod post'
        rw [← hcut, hm] at hfound
        exact Bool.false_ne_true hfound
      · exact absurd hwritten (call.head_ne hmethod [] ys)
  | @hit b g rest' hm hrest ih =>
    obtain ⟨stem, tail, htext, hstem, htail⟩ := hf g
    obtain ⟨read, -, hread⟩ := emptyCall_of_matchAt hq _ _ hm
    have hwritten : ')' ∉ stem ++ ".ReadLine(".toList := by
      rw [List.mem_append, not_or]
      exact ⟨hstem, by decide⟩
    rw [htext, List.append_assoc, List.append_assoc, ← List.append_assoc stem,
      List.cons_append] at hline
    by_cases hmem : ')' ∈ pre
    · -- The call stands behind the first parenthesis that was written, and behind the other one.
      obtain ⟨us, vs, rfl, hus⟩ := List.eq_append_cons_of_mem hmem
      rw [List.append_assoc us, List.cons_append] at hline
      have hhead := append_cons_cancel ')' _ _ _ _ hwritten hus hline
      rw [hhead, List.append_cancel_left_eq, List.cons.injEq] at hline
      obtain ⟨vs', hrest', hbehind⟩ := call.behind_closing htail hline.2
      have hlast : ∀ xs : Line, behind b (read.text ++ xs) = behind (some ')') xs := fun xs => by
        rw [EmptyCall.text, behind_append, behind_concat]
      have hpast : (behind (behind b g.text) vs').any Unicode.isWord = false := by
        rw [hread, ← behind_append, hlast, ← hbehind]
        rwa [behind_append] at hout
      obtain ⟨hnot, pre', post', hafter, hout'⟩ := ih vs' hrest' hpast
      rw [← behind_append] at hout'
      exact ⟨hnot, g.text ++ pre', post', by rw [hafter, List.append_assoc], hout'⟩
    · have hhead : stem ++ ".ReadLine(".toList = pre ++ call.head := by
        refine append_cons_cancel ')' _ _ (tail ++ rest') post hwritten ?_ ?_
        · simp [hmem, call.close_not_mem_head hmethod]
        · rw [hline, EmptyCall.text]
          simp
      exact absurd hhead.symm (call.head_ne hmethod pre stem)

end

end

/-! ### The passes of a line -/

theorem not_mem_parsedKeyword (kind : Line) : ∀ d ∈ [')', 'x', 'S'], d ∉ parsedKeyword kind := by
  have hkeywords : parsedKeyword kind ∈ ["int", "double", "float", "long", "bool", "byte",
      "short"].map String.toList := by
    unfold parsedKeyword
    repeat' split
    all_goals decide
  have hnone : ∀ w ∈ ["int", "double", "float", "long", "bool", "byte", "short"].map String.toList,
      ∀ d ∈ [')', 'x', 'S'], d ∉ w := by decide
  exact hnone _ hkeywords

theorem render_typedRead (h : Hit) : typedRead.render h =
    parsedKeyword (h.group 1) ++ ".Parse(Console.ReadLine())".toList := by
  simp only [Edit.render, typedRead, List.flatMap_cons, List.flatMap_nil, Part.render,
    List.append_nil]

theorem isConsoleRead_typedRead (h : Hit) : IsConsoleRead (typedRead.render h) := by
  refine ⟨parsedKeyword (h.group 1) ++ ".Parse(Console".toList, [')'], ?_, ?_, .inr rfl⟩
  · rw [render_typedRead, List.append_assoc]
    exact congrArg _ (by decide)
  · rw [List.mem_append, not_or]
    exact ⟨not_mem_parsedKeyword _ ')' (by simp), by decide⟩

theorem isConsoleRead_lineRead (h : Hit) : IsConsoleRead (lineRead.render h) :=
  ⟨"Console".toList, [], rfl, by decide, .inl rfl⟩

def isReadLetter (c : Char) : Bool := ['x', 'S'].contains c

theorem countP_of_needs (d : Char) (hd : isReadLetter d = true) (e : Edit)
    (hneeds : e.pattern.needs [[d]] = true)
    (hrender : ∀ h, ∀ c ∈ ['x', 'S'], c ∉ e.render h) (c : Place) (h : Hit)
    (hm : e.pattern.matchAt c = some h) :
    (e.render h).countP isReadLetter < h.text.countP isReadLetter := by
  have hnone : (e.render h).countP isReadLetter = 0 := by
    rw [List.countP_eq_zero]
    intro x hx hmem
    exact hrender h x (List.contains_iff_mem.1 hmem) hx
  rw [hnone, List.countP_pos_iff]
  rw [matchAt_eq, Option.map_eq_some_iff] at hm
  obtain ⟨r, hr, rfl⟩ := hm
  obtain ⟨xs, hleads, w, hw, hpart⟩ :=
    ends_of_needs [[d]] e.pattern hneeds c [] r (List.mem_of_mem_head? hr)
  rw [List.mem_singleton.1 hw] at hpart
  refine ⟨d, ?_, hd⟩
  change d ∈ textBetween c.rest r.1.rest
  rw [hleads.1, textBetween_left]
  exact hpart.subset (by simp)

theorem scannerEdits_shed : ∀ e ∈ scannerEdits, ∀ c h, e.pattern.matchAt c = some h →
    (e.render h).countP isReadLetter < h.text.countP isReadLetter := by
  rw [scannerEdits, List.forall_mem_cons, List.forall_mem_cons, List.forall_mem_singleton]
  refine ⟨countP_of_needs 'S' rfl _ (by decide) fun h c hc => List.not_mem_nil,
    countP_of_needs 'x' rfl _ (by decide) fun h c hc => ?_,
    countP_of_needs 'x' rfl _ (by decide) fun h c hc => ?_⟩
  · have htail : ∀ c ∈ ['x', 'S'], c ∉ ".Parse(Console.ReadLine())".toList := by decide
    rw [render_typedRead, List.mem_append, not_or]
    exact ⟨not_mem_parsedKeyword _ c (List.mem_cons_of_mem _ hc), htail c hc⟩
  · have hline : ∀ c ∈ ['x', 'S'], c ∉ "Console.ReadLine()".toList := by decide
    exact hline c hc

theorem scannerInput_eq_self_iff (line : Line) : scannerInput line = line ↔
    scannerDeclaration.pattern.occursIn line = false ∧ ¬HoldsRead line := by
  have hfilled : ∀ e ∈ scannerEdits, e.pattern.isFilled = true := by decide
  have hsheds : ∀ e ∈ scannerEdits, ∀ line, Sheds isReadLetter line (e.apply line) := fun e he =>
    e.apply_sheds fun c h hm => .inl (scannerEdits_shed e he c h hm)
  have heach : ∀ e ∈ scannerEdits, (e.apply line = line ↔ e.pattern.occursIn line = false) :=
    fun e he => e.apply_eq_iff_of_lt (scannerEdits_shed e he) (hfilled e he) line
  have htyped : typedRead.pattern.occursIn line = false ↔ ¬HoldsCall typedReads none line := by
    rw [← Bool.not_eq_true, not_congr]
    exact emptyCall_occursIn_iff chooses_typedMethod (fun m hm =>
      isReadMethod_of_mem m (List.mem_append_right _ hm)) line
  have hline : lineRead.pattern.occursIn line = false ↔ ¬HoldsCall lineReads none line := by
    rw [← Bool.not_eq_true, not_congr]
    exact emptyCall_occursIn_iff chooses_lineMethod (fun m hm =>
      isReadMethod_of_mem m (List.mem_append_left _ hm)) line
  rw [scannerInput, Edit.applyAll_eq_iff _ hsheds, forall₂_congr heach, scannerEdits,
    List.forall_mem_cons, List.forall_mem_cons, List.forall_mem_singleton, htyped, hline, HoldsRead,
    holdsCall_append, not_or, and_comm (a := ¬HoldsCall typedReads none line)]

/-- No read of a scanner is left in a line, and a line is left as it is if and only if it holds
neither a read nor the declaration of a scanner. -/
theorem scanner_reads_replaced (line : Line) :
    ¬HoldsRead (scannerInput line) ∧
      (scannerInput line = line ↔
        scannerDeclaration.pattern.occursIn line = false ∧ ¬HoldsRead line) := by
  refine ⟨?_, scannerInput_eq_self_iff line⟩
  rintro ⟨pre, call, post, hmem, hline, hout⟩
  have hmethod := isReadMethod_of_mem _ hmem
  let declared := scannerDeclaration.apply line
  rw [scannerInput_eq] at hline
  obtain ⟨hnotLine, pre', post', hline', hout'⟩ :=
    read_left chooses_lineMethod isConsoleRead_lineRead
      (lineRead.replaced (by decide) (typedRead.apply declared)) pre call post hmethod hline hout
  obtain ⟨hnotTyped, -⟩ :=
    read_left chooses_typedMethod isConsoleRead_typedRead
      (typedRead.replaced (by decide) declared) pre' call post' hmethod hline' hout'
  exact (List.mem_append.1 hmem).elim hnotLine hnotTyped

end Rules

end JvsSharp
