import JvsSharp.Proofs.Outline

/-!
# What a pattern takes of a known text

If it is known what stands at a place, the matcher can be followed step by
step: a text is passed over, a span takes all it can, and a run that has to
give back ends at the last place where its continuation can go on.
-/

set_option autoImplicit false

namespace JvsSharp.Pattern

variable {α : Type}

def Stops (k : CharClass) (rest : Line) : Prop := rest.head?.any k.mem = false

instance (k : CharClass) (rest : Line) : Decidable (Stops k rest) :=
  inferInstanceAs (Decidable (_ = _))

theorem stops_cons (k : CharClass) (c : Char) (rest : Line) (h : k.mem c = false) :
    Stops k (c :: rest) := h

theorem matchK_all_cons (p : Pattern) (ps : List Pattern) (c : Place) (m : List Mark)
    (f : Place → List Mark → Option α) :
    (all (p :: ps)).matchK c m f = p.matchK c m fun c' m' => (all ps).matchK c' m' f := rfl

theorem matchK_all_nil (c : Place) (m : List Mark) (f : Place → List Mark → Option α) :
    (all []).matchK c m f = f c m := rfl

theorem matchK_text (cs : List Char) (b : Option Char) (rest : Line) (m : List Mark)
    (f : Place → List Mark → Option α) :
    (Pattern.text cs).matchK ⟨b, cs ++ rest⟩ m f = f ⟨behind b cs, rest⟩ m := by
  have hskip : ∀ b, Place.skip? cs ⟨b, cs ++ rest⟩ = some ⟨behind b cs, rest⟩ := by
    induction cs with
    | nil => exact fun _ => rfl
    | cons c cs ih =>
      intro b
      rw [List.cons_append, Place.skip?, if_pos rfl, ih]
      rfl
  rw [matchK, hskip]
  rfl

theorem matchK_char (d : Char) (b : Option Char) (rest : Line) (m : List Mark)
    (f : Place → List Mark → Option α) :
    (Pattern.text [d]).matchK ⟨b, d :: rest⟩ m f = f ⟨some d, rest⟩ m :=
  matchK_text [d] b rest m f

theorem matchK_char_none (d : Char) (b : Option Char) (rest : Line) (m : List Mark)
    (f : Place → List Mark → Option α) (h : rest.head? ≠ some d) :
    (Pattern.text [d]).matchK ⟨b, rest⟩ m f = none := by
  cases rest with
  | nil => rfl
  | cons x rest =>
    have hx : x ≠ d := fun hx => h (by rw [hx]; rfl)
    rw [matchK, Place.skip?, if_neg hx]
    rfl

theorem skipWhile_all (k : CharClass) (b : Option Char) (xs rest : Line)
    (hx : ∀ x ∈ xs, k.mem x = true) (hr : Stops k rest) :
    Place.skipWhile k b (xs ++ rest) = ⟨behind b xs, rest⟩ := by
  induction xs generalizing b with
  | nil =>
    cases rest with
    | nil => rfl
    | cons c rest =>
      have hc : k.mem c = false := hr
      rw [List.nil_append, Place.skipWhile, hc]
      rfl
  | cons x xs ih =>
    rw [List.cons_append, Place.skipWhile, if_pos (hx x (by simp)),
      ih (some x) fun y hy => hx y (by simp [hy])]
    rfl

theorem matchK_span (k : CharClass) (b : Option Char) (xs rest : Line) (m : List Mark)
    (f : Place → List Mark → Option α) (hx : ∀ x ∈ xs, k.mem x = true) (hr : Stops k rest) :
    (Pattern.span k).matchK ⟨b, xs ++ rest⟩ m f = f ⟨behind b xs, rest⟩ m := by
  rw [matchK, skipWhile_all k b xs rest hx hr]

theorem matchK_span_none (k : CharClass) (b : Option Char) (rest : Line) (m : List Mark)
    (f : Place → List Mark → Option α) (hr : Stops k rest) :
    (Pattern.span k).matchK ⟨b, rest⟩ m f = f ⟨b, rest⟩ m :=
  matchK_span k b [] rest m f (by simp) hr

theorem matchK_chars (k : CharClass) (b : Option Char) (xs rest : Line) (m : List Mark)
    (f : Place → List Mark → Option α) (hne : xs ≠ []) (hx : ∀ x ∈ xs, k.mem x = true)
    (hr : Stops k rest) : (chars k).matchK ⟨b, xs ++ rest⟩ m f = f ⟨behind b xs, rest⟩ m := by
  cases xs with
  | nil => exact absurd rfl hne
  | cons x xs =>
    have hspan := matchK_span k (some x) xs rest m f (fun y hy => hx y (by simp [hy])) hr
    have hmem : k.mem x = true := hx x (by simp)
    simp only [chars, matchK, List.cons_append, hmem, if_true] at hspan ⊢
    exact hspan

theorem runK_stops (k : CharClass) (f : Place → Option α) (d : Char)
    (hf : ∀ b v, v.head? ≠ some d → f ⟨b, v⟩ = none) (b : Option Char) (tail rest : Line)
    (htail : ∀ x ∈ tail, k.mem x = true ∧ x ≠ d) (hr : Stops k rest)
    (hd : rest.head? ≠ some d) : runK k f b (tail ++ rest) = none := by
  induction tail generalizing b with
  | nil =>
    cases rest with
    | nil => exact hf b [] hd
    | cons c rest =>
      have hc : k.mem c = false := hr
      rw [List.nil_append, runK, hc]
      exact hf b _ hd
  | cons x tail ih =>
    obtain ⟨hx, hne⟩ := htail x (by simp)
    have hhere : f ⟨b, x :: (tail ++ rest)⟩ = none := hf b _ (by simpa using hne)
    rw [List.cons_append, runK, if_pos hx, ih _ fun y hy => htail y (by simp [hy]), hhere]
    rfl

theorem runK_all (k : CharClass) (f : Place → Option α) (b : Option Char)
    (xs rest : Line) (hx : ∀ x ∈ xs, k.mem x = true) (hr : Stops k rest) (r : α)
    (hf : f ⟨behind b xs, rest⟩ = some r) : runK k f b (xs ++ rest) = some r := by
  induction xs generalizing b with
  | nil =>
    cases rest with
    | nil => exact hf
    | cons c rest =>
      have hc : k.mem c = false := hr
      rw [List.nil_append, runK, hc]
      exact hf
  | cons x xs ih =>
    rw [List.cons_append, runK, if_pos (hx x (by simp)),
      ih (some x) (fun y hy => hx y (by simp [hy])) hf]
    rfl

/-- A run whose continuation has to start with `d` gives back all behind the last `d`. -/
theorem runK_last (k : CharClass) (f : Place → Option α) (d : Char)
    (hf : ∀ b v, v.head? ≠ some d → f ⟨b, v⟩ = none) (hk : k.mem d = true) (b : Option Char)
    (xs tail rest : Line) (hx : ∀ x ∈ xs, k.mem x = true)
    (htail : ∀ x ∈ tail, k.mem x = true ∧ x ≠ d) (hr : Stops k rest) (r : α)
    (hlast : f ⟨behind b xs, d :: (tail ++ rest)⟩ = some r) :
    runK k f b (xs ++ d :: (tail ++ rest)) = some r := by
  have hd : rest.head? ≠ some d := by
    intro hd
    rw [Stops, hd, Option.any_some, hk] at hr
    exact nomatch hr
  induction xs generalizing b with
  | nil =>
    rw [List.nil_append, runK, if_pos hk, runK_stops k f d hf _ tail rest htail hr hd, hlast.symm]
    rfl
  | cons x xs ih =>
    rw [List.cons_append, runK, if_pos (hx x (by simp)),
      ih (some x) (fun y hy => hx y (by simp [hy])) hlast]
    rfl

theorem matchK_stretch (k : CharClass) (d : Char) (hk : k.mem d = true) (b : Option Char)
    (xs tail rest : Line) (m : List Mark) (f : Place → List Mark → Option α)
    (hf : ∀ b v, v.head? ≠ some d → f ⟨b, v⟩ m = none) (hne : xs ≠ [])
    (hx : ∀ x ∈ xs, k.mem x = true) (htail : ∀ x ∈ tail, k.mem x = true ∧ x ≠ d)
    (hr : Stops k rest) (r : α) (hlast : f ⟨behind b xs, d :: (tail ++ rest)⟩ m = some r) :
    (stretch k).matchK ⟨b, xs ++ d :: (tail ++ rest)⟩ m f = some r := by
  cases xs with
  | nil => exact absurd rfl hne
  | cons x xs =>
    have hrun := runK_last k (fun c => f c m) d (fun b v => hf b v) hk (some x) xs tail rest
      (fun y hy => hx y (by simp [hy])) htail hr r hlast
    have hmem : k.mem x = true := hx x (by simp)
    simp only [stretch, matchK, List.cons_append, hmem, if_true]
    exact hrun

theorem matchK_edge (c : Place) (m : List Mark) (f : Place → List Mark → Option α)
    (h : c.atEdge = true) : Pattern.edge.matchK c m f = f c m := by
  rw [matchK, if_pos h]

theorem textBetween_left (xs rest : Line) : textBetween (xs ++ rest) rest = xs := by
  simp [textBetween]

theorem textBetween_nil (xs : Line) : textBetween xs [] = xs := by simp [textBetween]

end JvsSharp.Pattern
