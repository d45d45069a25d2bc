import JvsSharp.Proofs.CharClass
import JvsSharp.Proofs.Quiet

/-!
# Outlines of lines

An outline says of a line which classes its characters come from: one
character of a class, or any number of them. A pattern can be run over an
outline as it is run over a line, with all the ways taken at once. If no way
leads through from any place of the outline, the pattern does not occur in any
line of that outline. The test is a computation, so for a given pattern and
outline it is settled by evaluation.
-/

set_option autoImplicit false

namespace JvsSharp

def Place.Leads (c : Place) (xs : Line) (c' : Place) : Prop :=
  c.rest = xs ++ c'.rest ∧ c'.before = Pattern.behind c.before xs

namespace Place

theorem Leads.refl (c : Place) : c.Leads [] c := ⟨rfl, rfl⟩

theorem Leads.trans {a b c : Place} {xs ys : Line} (h : a.Leads xs b) (h' : b.Leads ys c) :
    a.Leads (xs ++ ys) c := by
  constructor
  · rw [h.1, h'.1, List.append_assoc]
  · rw [h'.2, h.2, Pattern.behind_append]

theorem leads_cons (b : Option Char) (x : Char) (rest : Line) :
    Place.Leads ⟨b, x :: rest⟩ [x] ⟨some x, rest⟩ := ⟨rfl, rfl⟩

end Place

namespace Pattern

theorem skip?_leads (cs : List Char) (c c' : Place) (h : c.skip? cs = some c') :
    c.Leads cs c' := by
  induction cs generalizing c with
  | nil =>
    cases h
    exact .refl _
  | cons x cs ih =>
    obtain ⟨b, rest⟩ := c
    cases rest with
    | nil => simp [Place.skip?] at h
    | cons y rest =>
      rw [Place.skip?] at h
      split at h
      · next hy => exact hy ▸ (Place.leads_cons b y rest).trans (ih _ h)
      · simp at h

def Passes (k : CharClass) (c c' : Place) : Prop :=
  ∃ xs, c.Leads xs c' ∧ ∀ x ∈ xs, k.mem x = true

theorem Passes.refl (k : CharClass) (c : Place) : Passes k c c := ⟨[], .refl c, by simp⟩

theorem Passes.cons (k : CharClass) (b : Option Char) (x : Char) (rest : Line) (c : Place)
    (hx : k.mem x = true) (h : Passes k ⟨some x, rest⟩ c) : Passes k ⟨b, x :: rest⟩ c := by
  obtain ⟨xs, hl, hk⟩ := h
  refine ⟨[x] ++ xs, (Place.leads_cons b x rest).trans hl, ?_⟩
  intro y hy
  rcases List.mem_append.1 hy with hy | hy
  · exact List.mem_singleton.1 hy ▸ hx
  · exact hk y hy

theorem skipWhile_passes (k : CharClass) (b : Option Char) (line : Line) :
    Passes k ⟨b, line⟩ (Place.skipWhile k b line) := by
  induction line generalizing b with
  | nil => exact .refl k _
  | cons x rest ih =>
    rw [Place.skipWhile]
    split
    · next hx => exact .cons k b x rest _ hx (ih _)
    · exact .refl k _

theorem runEnds_passes (k : CharClass) (b : Option Char) (line : Line) (c : Place)
    (h : c ∈ runEnds k b line) : Passes k ⟨b, line⟩ c := by
  induction line generalizing b with
  | nil =>
    rw [runEnds, List.mem_singleton] at h
    exact h ▸ .refl k _
  | cons x rest ih =>
    rw [runEnds] at h
    split at h
    · next hx =>
      rcases List.mem_append.1 h with h | h
      · exact .cons k b x rest c hx (ih _ h)
      · exact List.mem_singleton.1 h ▸ .refl k _
    · exact List.mem_singleton.1 h ▸ .refl k _

theorem fewestEnds_passes (k : CharClass) (b : Option Char) (line : Line) (c : Place)
    (h : c ∈ fewestEnds k b line) : Passes k ⟨b, line⟩ c := by
  induction line generalizing b with
  | nil =>
    rw [fewestEnds, List.mem_singleton] at h
    exact h ▸ .refl k _
  | cons x rest ih =>
    rw [fewestEnds] at h
    rcases List.mem_cons.1 h with h | h
    · exact h ▸ .refl k _
    · split at h
      · next hx => exact .cons k b x rest c hx (ih _ h)
      · simp at h

theorem mem_ends_one (k : CharClass) (c : Place) (m : List Mark) (r : Place × List Mark)
    (h : r ∈ (Pattern.one k).ends c m) :
    ∃ x rest, c.rest = x :: rest ∧ k.mem x = true ∧ r = (⟨some x, rest⟩, m) := by
  obtain ⟨b, rest⟩ := c
  rw [ends] at h
  cases rest with
  | nil => simp at h
  | cons x rest =>
    simp only at h
    split at h
    · next hx => exact ⟨x, rest, rfl, hx, List.mem_singleton.1 h⟩
    · simp at h

theorem mem_ends_edge (c : Place) (m : List Mark) (r : Place × List Mark)
    (h : r ∈ Pattern.edge.ends c m) : c.atEdge = true ∧ r = (c, m) := by
  rw [ends] at h
  split at h
  · next hedge => exact ⟨hedge, List.mem_singleton.1 h⟩
  · simp at h

theorem mem_ends_start (c : Place) (m : List Mark) (r : Place × List Mark)
    (h : r ∈ Pattern.start.ends c m) : c.before.isNone = true ∧ r = (c, m) := by
  rw [ends] at h
  split at h
  · next hstart => exact ⟨hstart, List.mem_singleton.1 h⟩
  · simp at h

theorem starEnds_leads (step : Place → List Mark → List (Place × List Mark))
    (hs : ∀ c m r, r ∈ step c m → ∃ xs, c.Leads xs r.1) (n : Nat) (c : Place) (m : List Mark)
    (r : Place × List Mark) (h : r ∈ starEnds step n c m) : ∃ xs, c.Leads xs r.1 := by
  refine starEnds_related step (fun a b => ∃ xs, a.1.Leads xs b.1) (fun a => ⟨[], .refl a.1⟩) ?_ hs
    n c m r h
  rintro a b c ⟨xs, hx⟩ ⟨ys, hy⟩
  exact ⟨xs ++ ys, hx.trans hy⟩

/-- A match goes over the text between its ends, character by character. -/
theorem ends_leads (p : Pattern) (c : Place) (m : List Mark) (r : Place × List Mark)
    (h : r ∈ p.ends c m) : ∃ xs, c.Leads xs r.1 := by
  induction p generalizing c m r with
  | empty =>
    rw [ends, List.mem_singleton] at h
    exact ⟨[], h ▸ .refl c⟩
  | text cs =>
    rw [ends, List.mem_map] at h
    obtain ⟨c', hc, rfl⟩ := h
    exact ⟨cs, skip?_leads cs c c' (by simpa using hc)⟩
  | one k =>
    obtain ⟨x, rest, hrest, -, rfl⟩ := mem_ends_one k c m r h
    have hlead := Place.leads_cons c.before x rest
    rw [← hrest] at hlead
    exact ⟨[x], hlead⟩
  | span k =>
    rw [ends, List.mem_singleton] at h
    obtain ⟨xs, hl, -⟩ := skipWhile_passes k c.before c.rest
    exact ⟨xs, h ▸ hl⟩
  | run k =>
    rw [ends, List.mem_map] at h
    obtain ⟨c', hc, rfl⟩ := h
    obtain ⟨xs, hl, -⟩ := runEnds_passes k _ _ c' hc
    exact ⟨xs, hl⟩
  | fewest k =>
    rw [ends, List.mem_map] at h
    obtain ⟨c', hc, rfl⟩ := h
    obtain ⟨xs, hl, -⟩ := fewestEnds_passes k _ _ c' hc
    exact ⟨xs, hl⟩
  | edge =>
    obtain ⟨-, rfl⟩ := mem_ends_edge c m r h
    exact ⟨[], .refl c⟩
  | start =>
    obtain ⟨-, rfl⟩ := mem_ends_start c m r h
    exact ⟨[], .refl c⟩
  | seq p q ihp ihq =>
    rw [ends, List.mem_flatMap] at h
    obtain ⟨s, hs, h⟩ := h
    obtain ⟨xs, hx⟩ := ihp _ _ _ hs
    obtain ⟨ys, hy⟩ := ihq _ _ _ h
    exact ⟨xs ++ ys, hx.trans hy⟩
  | alt p q ihp ihq =>
    rw [ends, List.mem_append] at h
    exact h.elim (ihp _ _ _) (ihq _ _ _)
  | star p ih =>
    rw [ends] at h
    exact starEnds_leads _ ih _ c m r h
  | group i p ih =>
    rw [ends, List.mem_map] at h
    obtain ⟨s, hs, rfl⟩ := h
    exact ih c m s hs

end Pattern

inductive Piece where
  | one (k : CharClass)
  | many (k : CharClass)
  deriving DecidableEq, Repr

def Piece.charClass : Piece → CharClass
  | .one k => k
  | .many k => k

abbrev Outline := List Piece

namespace Outline

def lit (text : Line) : Outline := text.map fun c => .one (.only c)

def Fits : Outline → Line → Prop
  | [], line => line = []
  | .one k :: o, line => ∃ x rest, line = x :: rest ∧ k.mem x = true ∧ Fits o rest
  | .many k :: o, line =>
      ∃ xs rest, line = xs ++ rest ∧ (∀ x ∈ xs, k.mem x = true) ∧ Fits o rest

theorem Fits.append {o o' : Outline} {xs ys : Line} (h : Fits o xs) (h' : Fits o' ys) :
    Fits (o ++ o') (xs ++ ys) := by
  induction o generalizing xs with
  | nil =>
    rw [Fits] at h
    rw [h]
    exact h'
  | cons piece o ih =>
    cases piece with
    | one k =>
      obtain ⟨x, rest, rfl, hx, h⟩ := h
      exact ⟨x, rest ++ ys, rfl, hx, ih h⟩
    | many k =>
      obtain ⟨zs, rest, rfl, hz, h⟩ := h
      exact ⟨zs, rest ++ ys, List.append_assoc zs rest ys, hz, ih h⟩

theorem fits_lit (text : Line) : Fits (lit text) text := by
  induction text with
  | nil => rfl
  | cons c text ih => exact ⟨c, text, rfl, by simp [CharClass.mem], ih⟩

theorem fits_one (k : CharClass) (x : Char) (h : k.mem x = true) : Fits [.one k] [x] :=
  ⟨x, [], rfl, h, rfl⟩

theorem fits_many (k : CharClass) (xs : Line) (h : ∀ x ∈ xs, k.mem x = true) :
    Fits [.many k] xs := ⟨xs, [], (List.append_nil xs).symm, h, rfl⟩

def lacks (c : Char) (o : Outline) : Bool := o.all fun piece => !piece.charClass.mem c

theorem not_mem_of_lacks (c : Char) (o : Outline) (ho : o.lacks c = true) (line : Line)
    (h : o.Fits line) : c ∉ line := by
  induction o generalizing line with
  | nil =>
    rw [Fits] at h
    simp [h]
  | cons piece o ih =>
    rw [lacks, List.all_cons, Bool.and_eq_true] at ho
    cases piece with
    | one k =>
      obtain ⟨x, rest, rfl, hx, hrest⟩ := h
      intro hmem
      rcases List.mem_cons.1 hmem with rfl | hmem
      · simp [Piece.charClass, hx] at ho
      · exact ih ho.2 rest hrest hmem
    | many k =>
      obtain ⟨xs, rest, rfl, hx, hrest⟩ := h
      intro hmem
      rcases List.mem_append.1 hmem with hmem | hmem
      · simp [Piece.charClass, hx c hmem] at ho
      · exact ih ho.2 rest hrest hmem

end Outline

/-- A place of which only the class of the character before it, if any, and the outline of
the rest are known. -/
structure View where
  before : Option CharClass
  rest : Outline
  deriving DecidableEq, Repr

namespace View

def Knows (b : Option CharClass) (x : Option Char) : Prop :=
  ∀ k, b = some k → ∃ c, x = some c ∧ k.mem c = true

def Sees (v : View) (c : Place) : Prop := v.rest.Fits c.rest ∧ Knows v.before c.before

theorem knows_none (x : Option Char) : Knows none x := fun _ h => nomatch h

theorem knows_some (k : CharClass) (c : Char) (h : k.mem c = true) : Knows (some k) (some c) := by
  rintro j hj
  cases hj
  exact ⟨c, rfl, h⟩

def join (b : Option CharClass) (k : CharClass) : Option CharClass :=
  if b = some k then b else none

theorem knows_join_left (b : Option CharClass) (k : CharClass) (x : Option Char)
    (h : Knows b x) : Knows (join b k) x := by
  unfold join
  split
  · exact h
  · exact knows_none x

theorem knows_join_right (b : Option CharClass) (k : CharClass) (c : Char)
    (h : k.mem c = true) : Knows (join b k) (some c) := by
  unfold join
  split
  · next hb => exact hb ▸ knows_some k c h
  · exact knows_none _

def next (k : CharClass) : Outline → List View
  | [] => []
  | .one j :: o => if j.disjoint k then [] else [⟨some j, o⟩]
  | .many j :: o => (if j.disjoint k then [] else [⟨some j, .many j :: o⟩]) ++ next k o

def runs (k : CharClass) : Option CharClass → Outline → List View
  | b, [] => [⟨b, []⟩]
  | b, .one j :: o => ⟨b, .one j :: o⟩ :: if j.disjoint k then [] else runs k (some j) o
  | b, .many j :: o =>
      if j.disjoint k then ⟨b, .many j :: o⟩ :: runs k b o
      else ⟨join b j, .many j :: o⟩ :: runs k (join b j) o

def texts : List Char → View → List View
  | [], v => [v]
  | c :: cs, v => (next (.only c) v.rest).flatMap (texts cs)

def wordness (k : CharClass) : Option Bool :=
  if k.inWord then some true else if k.offWord then some false else none

def headWordness : Outline → Option Bool
  | [] => some false
  | .one k :: _ => wordness k
  | .many k :: o => if wordness k = headWordness o then wordness k else none

def noEdge (v : View) : Bool :=
  match v.before.bind wordness, headWordness v.rest with
  | some a, some b => a == b
  | _, _ => false

end View

namespace View

theorem next_sound (k : CharClass) (o : Outline) (x : Char) (rest : Line)
    (h : o.Fits (x :: rest)) (hx : k.mem x = true) : ∃ v ∈ next k o, v.Sees ⟨some x, rest⟩ := by
  induction o with
  | nil => exact nomatch h
  | cons piece o ih =>
    cases piece with
    | one j =>
      obtain ⟨y, rest', heq, hj, h⟩ := h
      cases heq
      have hd := CharClass.disjoint_of_common j k x hj hx
      exact ⟨⟨some j, o⟩, by simp [next, hd], h, knows_some j x hj⟩
    | many j =>
      obtain ⟨ys, rest', heq, hj, h⟩ := h
      cases ys with
      | nil =>
        obtain ⟨v, hv, hs⟩ := ih (heq ▸ h)
        exact ⟨v, by simp [next, hv], hs⟩
      | cons y ys =>
        cases heq
        have hjx := hj x (by simp)
        have hd := CharClass.disjoint_of_common j k x hjx hx
        refine ⟨⟨some j, .many j :: o⟩, by simp [next, hd], ?_, knows_some j x hjx⟩
        exact ⟨ys, rest', rfl, fun z hz => hj z (by simp [hz]), h⟩

theorem knows_join_behind (b : Option CharClass) (j : CharClass) (x : Option Char) (xs : Line)
    (hb : Knows b x) (hj : ∀ y ∈ xs, j.mem y = true) :
    Knows (join b j) (Pattern.behind x xs) := by
  rcases List.eq_nil_or_concat xs with rfl | ⟨ys, y, rfl⟩
  · exact knows_join_left b j x hb
  · rw [List.concat_eq_append, Pattern.behind_append]
    exact knows_join_right b j y (hj y (by simp))

theorem runs_sound (k : CharClass) (o : Outline) (b : Option CharClass) (x : Option Char)
    (xs rest : Line) (h : o.Fits (xs ++ rest)) (hb : Knows b x)
    (hk : ∀ y ∈ xs, k.mem y = true) :
    ∃ v ∈ runs k b o, v.Sees ⟨Pattern.behind x xs, rest⟩ := by
  induction o generalizing b x xs with
  | nil =>
    obtain ⟨rfl, rfl⟩ := List.append_eq_nil_iff.1 h
    exact ⟨⟨b, []⟩, by simp [runs], rfl, hb⟩
  | cons piece o ih =>
    cases piece with
    | one j =>
      cases xs with
      | nil => exact ⟨⟨b, .one j :: o⟩, by simp [runs], h, hb⟩
      | cons y xs =>
        obtain ⟨z, rest', heq, hj, h⟩ := h
        cases heq
        have hd := CharClass.disjoint_of_common j k y hj (hk y (by simp))
        obtain ⟨v, hv, hs⟩ := ih (some j) (some y) xs h (knows_some j y hj)
          fun z hz => hk z (by simp [hz])
        exact ⟨v, by simp [runs, hd, hv], hs⟩
    | many j =>
      obtain ⟨zs, rest', heq, hj, h⟩ := h
      -- Either the run ends among the characters of this piece, or it goes beyond them.
      rcases List.append_eq_append_iff.1 heq with ⟨ws, rfl, rfl⟩ | ⟨ws, rfl, rfl⟩
      · have hfits : Outline.Fits (.many j :: o) (ws ++ rest') :=
          ⟨ws, rest', rfl, fun z hz => hj z (by simp [hz]), h⟩
        cases hd : j.disjoint k with
        | false =>
          refine ⟨⟨join b j, .many j :: o⟩, by simp [runs, hd], hfits, ?_⟩
          exact knows_join_behind b j x xs hb fun z hz => hj z (by simp [hz])
        | true =>
          cases xs with
          | nil => exact ⟨⟨b, .many j :: o⟩, by simp [runs, hd], hfits, hb⟩
          | cons y xs =>
            have hfalse := CharClass.disjoint_of_common j k y (hj y (by simp)) (hk y (by simp))
            exact nomatch hd.symm.trans hfalse
      · cases hd : j.disjoint k with
        | false =>
          obtain ⟨v, hv, hs⟩ := ih (join b j) (Pattern.behind x zs) ws h
            (knows_join_behind b j x zs hb hj) fun z hz => hk z (by simp [hz])
          refine ⟨v, by simp [runs, hd, hv], ?_⟩
          rwa [Pattern.behind_append]
        | true =>
          cases zs with
          | nil =>
            obtain ⟨v, hv, hs⟩ := ih b x ws h hb fun z hz => hk z (by simp [hz])
            exact ⟨v, by simp [runs, hd, hv], hs⟩
          | cons y zs =>
            have hfalse := CharClass.disjoint_of_common j k y (hj y (by simp)) (hk y (by simp))
            exact nomatch hd.symm.trans hfalse

theorem texts_sound (cs : List Char) (v : View) (c c' : Place) (hv : v.Sees c)
    (h : c.skip? cs = some c') : ∃ v' ∈ texts cs v, v'.Sees c' := by
  induction cs generalizing v c with
  | nil =>
    cases h
    exact ⟨v, by simp [texts], hv⟩
  | cons x cs ih =>
    obtain ⟨b, rest⟩ := c
    cases rest with
    | nil => simp [Place.skip?] at h
    | cons y rest =>
      rw [Place.skip?] at h
      split at h
      · next hy =>
        obtain ⟨w, hw, hs⟩ := next_sound (.only x) v.rest y rest hv.1 (by simp [CharClass.mem, hy])
        obtain ⟨v', hv', hs'⟩ := ih w _ hs h
        exact ⟨v', by simpa [texts] using ⟨w, hw, hv'⟩, hs'⟩
      · simp at h

theorem isWord_of_wordness (k : CharClass) (b : Bool) (h : wordness k = some b) (x : Char)
    (hx : k.mem x = true) : Unicode.isWord x = b := by
  unfold wordness at h
  split at h
  · next hk =>
    cases h
    exact CharClass.isWord_of_inWord k hk x hx
  · split at h
    · next hk =>
      cases h
      exact CharClass.isWord_of_offWord k hk x hx
    · simp at h

theorem head_of_headWordness (o : Outline) (b : Bool) (line : Line)
    (h : headWordness o = some b) (hf : o.Fits line) :
    line.head?.any Unicode.isWord = b := by
  induction o generalizing line with
  | nil =>
    rw [Outline.Fits] at hf
    cases h
    rw [hf]
    rfl
  | cons piece o ih =>
    cases piece with
    | one k =>
      obtain ⟨x, rest, rfl, hx, -⟩ := hf
      exact isWord_of_wordness k b h x hx
    | many k =>
      obtain ⟨xs, rest, rfl, hx, hf⟩ := hf
      rw [headWordness] at h
      split at h
      · next heq =>
        cases xs with
        | nil => exact ih rest (heq ▸ h) hf
        | cons x xs => exact isWord_of_wordness k b h x (hx x (by simp))
      · simp at h

theorem atEdge_of_noEdge (v : View) (c : Place) (hv : v.Sees c) (h : v.noEdge = true) :
    c.atEdge = false := by
  unfold noEdge at h
  split at h
  · next a b ha hb =>
    obtain ⟨k, hk, hw⟩ := Option.bind_eq_some_iff.1 ha
    obtain ⟨x, hx, hmem⟩ := hv.2 k hk
    have hbefore := isWord_of_wordness k a hw x hmem
    have hrest := head_of_headWordness v.rest b c.rest hb hv.1
    rw [Place.atEdge, hx, hrest, Option.any_some, hbefore]
    simpa using h
  · simp at h

end View

def Pattern.reach : Pattern → View → List View
  | .empty, v => [v]
  | .text cs, v => View.texts cs v
  | .one k, v => View.next k v.rest
  | .span k, v => View.runs k v.before v.rest
  | .run k, v => View.runs k v.before v.rest
  | .fewest k, v => View.runs k v.before v.rest
  | .edge, v => if v.noEdge then [] else [v]
  | .start, v => if v.before.isSome then [] else [v]
  | .seq p q, v => (p.reach v).flatMap q.reach
  | .alt p q, v => p.reach v ++ q.reach v
  | .star _, v => View.runs (.except []) v.before v.rest
  | .group _ p, v => p.reach v

namespace Pattern

theorem runs_passes (k : CharClass) (v : View) (c c' : Place) (hv : v.Sees c)
    (h : Passes k c c') : ∃ v' ∈ View.runs k v.before v.rest, v'.Sees c' := by
  obtain ⟨xs, hl, hk⟩ := h
  obtain ⟨v', hv', hs⟩ := View.runs_sound k v.rest v.before c.before xs c'.rest (hl.1 ▸ hv.1)
    hv.2 hk
  refine ⟨v', hv', ?_⟩
  rw [← hl.2] at hs
  exact hs

/-- Where the pattern may come to from a place is seen by what it reaches from a view of it. -/
theorem reach_sound (p : Pattern) (v : View) (c : Place) (hv : v.Sees c) (m : List Mark)
    (r : Place × List Mark) (h : r ∈ p.ends c m) : ∃ v' ∈ p.reach v, v'.Sees r.1 := by
  induction p generalizing v c m r with
  | empty =>
    rw [ends, List.mem_singleton] at h
    exact ⟨v, by simp [reach], h ▸ hv⟩
  | text cs =>
    rw [ends, List.mem_map] at h
    obtain ⟨c', hc, rfl⟩ := h
    exact View.texts_sound cs v c c' hv (by simpa using hc)
  | one k =>
    obtain ⟨x, rest, hrest, hx, rfl⟩ := mem_ends_one k c m r h
    exact View.next_sound k v.rest x rest (hrest ▸ hv.1) hx
  | span k =>
    rw [ends, List.mem_singleton] at h
    exact runs_passes k v c r.1 hv (h ▸ skipWhile_passes k c.before c.rest)
  | run k =>
    rw [ends, List.mem_map] at h
    obtain ⟨c', hc, rfl⟩ := h
    exact runs_passes k v c c' hv (runEnds_passes k _ _ c' hc)
  | fewest k =>
    rw [ends, List.mem_map] at h
    obtain ⟨c', hc, rfl⟩ := h
    exact runs_passes k v c c' hv (fewestEnds_passes k _ _ c' hc)
  | edge =>
    obtain ⟨hedge, rfl⟩ := mem_ends_edge c m r h
    have hno : v.noEdge = false := by
      cases hno : v.noEdge with
      | false => rfl
      | true =>
        rw [View.atEdge_of_noEdge v c hv hno] at hedge
        exact absurd hedge Bool.false_ne_true
    exact ⟨v, by simp [reach, hno], hv⟩
  | start =>
    obtain ⟨hstart, rfl⟩ := mem_ends_start c m r h
    have hnone : v.before.isSome = false := by
      cases hb : v.before with
      | none => rfl
      | some k =>
        obtain ⟨x, hx, -⟩ := hv.2 k hb
        simp [hx] at hstart
    exact ⟨v, by simp [reach, hnone], hv⟩
  | seq p q ihp ihq =>
    rw [ends, List.mem_flatMap] at h
    obtain ⟨s, hs, h⟩ := h
    obtain ⟨w, hw, hsees⟩ := ihp v c hv m s hs
    obtain ⟨v', hv', hsees'⟩ := ihq w s.1 hsees s.2 r h
    exact ⟨v', by simpa [reach] using ⟨w, hw, hv'⟩, hsees'⟩
  | alt p q ihp ihq =>
    rw [ends, List.mem_append] at h
    rcases h with h | h
    · obtain ⟨v', hv', hs⟩ := ihp v c hv m r h
      exact ⟨v', by simp [reach, hv'], hs⟩
    · obtain ⟨v', hv', hs⟩ := ihq v c hv m r h
      exact ⟨v', by simp [reach, hv'], hs⟩
  | star p ih =>
    -- Of a repetition no more is known than that it moves on.
    obtain ⟨xs, hl⟩ := ends_leads (.star p) c m r h
    exact runs_passes _ v c r.1 hv ⟨xs, hl, by simp [CharClass.mem]⟩
  | group i p ih =>
    rw [ends, List.mem_map] at h
    obtain ⟨s, hs, rfl⟩ := h
    exact ih v c hv m s hs

theorem matchAt_of_reach (p : Pattern) (v : View) (c : Place) (hv : v.Sees c)
    (h : p.reach v = []) : p.matchAt c = none := by
  rw [matchAt_eq]
  cases he : p.ends c [] with
  | nil => rfl
  | cons r rs =>
    obtain ⟨v', hv', -⟩ := reach_sound p v c hv [] r (by simp [he])
    simp [h] at hv'

end Pattern

namespace View

def starts : Option CharClass → Outline → Outline → List View
  | _, [], _ => []
  | b, .one k :: o, rest => ⟨b, .one k :: (o ++ rest)⟩ :: starts (some k) o rest
  | b, .many k :: o, rest =>
      ⟨join b k, .one k :: .many k :: (o ++ rest)⟩ :: starts (join b k) o rest

end View

namespace Pattern

def misses (p : Pattern) (b : Option CharClass) (o rest : Outline) : Bool :=
  (View.starts b o rest).all fun v => (p.reach v).isEmpty

theorem quiet_many (p : Pattern) (b : Option CharClass) (k : CharClass) (o : Outline)
    (h : p.reach ⟨View.join b k, .one k :: .many k :: o⟩ = []) (x : Option Char) (xs ys : Line)
    (hb : View.Knows (View.join b k) x) (hx : ∀ c ∈ xs, k.mem c = true) (hy : o.Fits ys) :
    Quiet p x xs ys := by
  induction xs generalizing x with
  | nil => trivial
  | cons c xs ih =>
    have hc := hx c (by simp)
    have hxs : ∀ d ∈ xs, k.mem d = true := fun d hd => hx d (by simp [hd])
    constructor
    · refine matchAt_of_reach p _ _ ⟨?_, hb⟩ h
      exact ⟨c, xs ++ ys, rfl, hc, xs, ys, rfl, hxs, hy⟩
    · exact ih (some c) (View.knows_join_right b k c hc) hxs

theorem quiet_of_misses (p : Pattern) (b : Option CharClass) (o rest : Outline)
    (h : p.misses b o rest = true) (x : Option Char) (xs ys : Line) (hb : View.Knows b x)
    (hx : o.Fits xs) (hy : rest.Fits ys) : Quiet p x xs ys := by
  induction o generalizing b x xs with
  | nil =>
    rw [Outline.Fits] at hx
    rw [hx]
    trivial
  | cons piece o ih =>
    cases piece with
    | one k =>
      obtain ⟨c, zs, rfl, hc, hz⟩ := hx
      simp only [misses, View.starts, List.all_cons, Bool.and_eq_true, List.isEmpty_iff] at h
      constructor
      · refine matchAt_of_reach p _ _ ⟨?_, hb⟩ h.1
        exact ⟨c, zs ++ ys, rfl, hc, hz.append hy⟩
      · exact ih (some k) h.2 (some c) zs (View.knows_some k c hc) hz
    | many k =>
      obtain ⟨ws, zs, rfl, hw, hz⟩ := hx
      simp only [misses, View.starts, List.all_cons, Bool.and_eq_true, List.isEmpty_iff] at h
      rw [quiet_append]
      constructor
      · exact quiet_many p b k (o ++ rest) h.1 x ws (zs ++ ys) (View.knows_join_left b k x hb) hw
          (hz.append hy)
      · exact ih (View.join b k) h.2 _ zs (View.knows_join_behind b k x ws hb hw) hz

def passes (p : Pattern) (o : Outline) : Bool :=
  p.misses none o [] && (p.reach ⟨none, []⟩).isEmpty

theorem absent_of_passes (p : Pattern) (o : Outline) (line : Line) (h : p.passes o = true)
    (hf : o.Fits line) : p.Absent line := by
  rw [passes, Bool.and_eq_true] at h
  have hquiet := quiet_of_misses p none o [] h.1 none line [] (View.knows_none _) hf rfl
  have hend : p.matchAt ⟨behind none line, []⟩ = none :=
    matchAt_of_reach p ⟨none, []⟩ _ ⟨rfl, View.knows_none _⟩ (by simpa using h.2)
  exact (searchFrom_eq_none_iff p none line).2 ⟨hquiet, hend⟩

end Pattern

end JvsSharp
