import JvsSharp.Disk

/-!
# What a write does to a tree

A write sets one entry and keeps all others. The directories on the way to the
file are not the file itself, so the path that was written leads to the new
content afterwards.
-/

set_option autoImplicit false

namespace JvsSharp.Tree

theorem bind_ok {ε α β : Type} {x : Except ε α} {f : α → Except ε β} {b : β}
    (h : x >>= f = .ok b) : ∃ a, x = .ok a ∧ f a = .ok b := by
  cases x with
  | error e => exact nomatch h
  | ok a => exact ⟨a, rfl, h⟩

theorem lookup_set_self (tree : Tree) (path : Path) (e : Entry) :
    (tree.set path e).lookup path = some e := by
  induction tree with
  | nil => simp [set]
  | cons head rest ih =>
    obtain ⟨p, old⟩ := head
    by_cases h : p = path
    · simp [set, h]
    · have hb : (path == p) = false := beq_false_of_ne (Ne.symm h)
      simp [set, h, List.lookup_cons, hb, ih]

theorem lookup_set_other (tree : Tree) (path other : Path) (e : Entry) (h : other ≠ path) :
    (tree.set path e).lookup other = tree.lookup other := by
  have hb : (other == path) = false := beq_false_of_ne h
  induction tree with
  | nil => simp [set, List.lookup_cons, hb]
  | cons head rest ih =>
    obtain ⟨p, old⟩ := head
    by_cases hp : p = path
    · simp [set, hp, List.lookup_cons, hb]
    · simp [set, hp, List.lookup_cons, ih]

theorem entry_set_self (tree : Tree) (path : Path) (e : Entry) (h : path ≠ []) :
    Tree.entry? (tree.set path e) path = some e := by
  unfold entry?
  rw [if_neg h, lookup_set_self]

theorem entry_set_other (tree : Tree) (path other : Path) (e : Entry) (h : other ≠ path) :
    Tree.entry? (tree.set path e) other = tree.entry? other := by
  unfold entry?
  rw [lookup_set_other tree path other e h]

def NoDirectory (tree : Tree) (path : Path) : Prop := tree.entry? path ≠ some .directory

theorem step_directory (tree : Tree) (spot spot' : Path) (name : Line)
    (h : tree.step spot name = .ok spot') : tree.entry? spot = some .directory := by
  rw [step] at h
  cases he : tree.entry? spot with
  | none => simp [he] at h
  | some entry =>
    cases entry with
    | directory => rfl
    | file bytes => simp [he] at h

section
variable (tree : Tree) (path : Path) (e : Entry) (hp : NoDirectory tree path)
include hp

theorem step_set (spot spot' : Path) (name : Line) (h : tree.step spot name = .ok spot') :
    (tree.set path e).step spot name = .ok spot' := by
  have hdir := step_directory tree spot spot' name h
  have hne : spot ≠ path := fun heq => hp (heq ▸ hdir)
  rw [step] at h ⊢
  rw [entry_set_other tree path spot e hne]
  exact h

theorem steps_set (names : List Line) (spot spot' : Path)
    (h : names.foldlM tree.step spot = .ok spot') :
    names.foldlM (tree.set path e).step spot = .ok spot' := by
  induction names generalizing spot with
  | nil => exact h
  | cons name names ih =>
    rw [List.foldlM_cons] at h ⊢
    obtain ⟨next, hs, hrest⟩ := bind_ok h
    rw [step_set tree path e hp spot next name hs]
    exact ih next hrest

theorem walk_set (home : Path) (names : List Line) (spot : Path)
    (h : tree.walk home names = .ok spot) : (tree.set path e).walk home names = .ok spot := by
  unfold walk at h ⊢
  split
  · exact steps_set tree path e hp _ _ _ h
  · next names' hn =>
    split at h
    · exact absurd rfl (hn _)
    · exact steps_set tree path e hp _ _ _ h

end

theorem walk_concat (tree : Tree) (home : Path) (init : List Line) (last : Line)
    (hlast : last ≠ []) :
    tree.walk home (init ++ [last]) = tree.walk home init >>= fun spot => tree.step spot last := by
  have hone (spot : Path) : [last].foldlM tree.step spot = tree.step spot last := by
    rw [List.foldlM_cons]
    exact bind_pure _
  cases init with
  | nil =>
    cases last with
    | nil => exact absurd rfl hlast
    | cons c cs => exact hone _
  | cons first rest =>
    cases first with
    | nil =>
      simp only [List.cons_append, walk, List.foldlM_append, hone]
    | cons c cs =>
      simp only [List.cons_append, walk]
      rw [← List.cons_append, List.foldlM_append]
      simp only [hone]

theorem named_eq (all : List Line)
    (h : all.length ≤ (all.reverse.dropWhile List.isEmpty).reverse.length) :
    (all.reverse.dropWhile List.isEmpty).reverse = all := by
  have hsuffix := List.dropWhile_suffix (l := all.reverse) List.isEmpty
  have heq := hsuffix.eq_of_length_le (by simpa using h)
  rw [heq, List.reverse_reverse]

theorem named_last_ne_nil (all : List Line) (last : Line)
    (h : (all.reverse.dropWhile List.isEmpty).reverse.getLast? = some last) : last ≠ [] := by
  rw [List.getLast?_reverse] at h
  have hnot := List.head?_dropWhile_not List.isEmpty all.reverse
  rw [h] at hnot
  rintro rfl
  simp at hnot

theorem entryAt_ok (tree : Tree) (spot : Path) (entry : Entry)
    (h : tree.entryAt spot = .ok entry) : tree.entry? spot = some entry := by
  unfold entryAt at h
  cases he : tree.entry? spot with
  | none => simp [he] at h
  | some entry => simpa [he] using h

/-- What it takes for a path to be written: all but the last name lead to a directory, and
the last one is the name of a file there. -/
theorem target_ok (tree : Tree) (home : Path) (path : String) (place : Path)
    (h : tree.target home path = .ok place) :
    ∃ (init : List Line) (last : Line) (parent : Path),
      names path = .ok (init ++ [last]) ∧ last ≠ [] ∧ last ≠ ['.'] ∧ last ≠ ['.', '.'] ∧
      isTooLong last = false ∧ tree.walk home init = .ok parent ∧
      tree.entry? parent = some .directory ∧ place = parent ++ [last] ∧
      NoDirectory tree place := by
  unfold target at h
  obtain ⟨all, hall, h⟩ := bind_ok h
  generalize hnamed : (all.reverse.dropWhile List.isEmpty).reverse = named at h
  cases hlast : named.getLast? with
  | none => simp [hlast] at h
  | some last =>
    simp only [hlast] at h
    obtain ⟨parent, hwalk, h⟩ := bind_ok h
    obtain ⟨entry, hentry, h⟩ := bind_ok h
    have hparent := entryAt_ok tree parent entry hentry
    cases entry with
    | file bytes => simp at h
    | directory =>
      simp only at h
      split at h
      · simp at h
      · next hdots =>
        split at h
        · simp at h
        · next hlong =>
          have hplace : place = parent ++ [last] ∧ NoDirectory tree place := by
            split at h
            · simp at h
            · next hnot =>
              cases h
              exact ⟨rfl, hnot⟩
          -- No empty name was dropped, since a path that ends in a slash has been refused.
          have hwhole := named_eq all (by rw [hnamed]; omega)
          have hsplit : all = named.dropLast ++ [last] := by
            obtain ⟨init, rfl⟩ := List.getLast?_eq_some_iff.1 hlast
            rw [List.dropLast_concat, ← hnamed, hwhole]
          refine ⟨named.dropLast, last, parent, hsplit ▸ hall, ?_, ?_, ?_, ?_, hwalk, hparent,
            hplace.1, hplace.2⟩
          · exact named_last_ne_nil all last (hnamed ▸ hlast)
          · exact fun hd => hdots (Or.inl hd)
          · exact fun hd => hdots (Or.inr (Or.inl hd))
          · simpa using hlong

theorem write_ok (tree : Tree) (access : Access) (path : String) (bytes : List UInt8)
    (tree' : Tree) (h : tree.write access path bytes = .ok tree') :
    ∃ place, tree.target access.home path = .ok place ∧ access.refuses place bytes = none ∧
      tree' = tree.set place (.file bytes) := by
  obtain ⟨place, hplace, h⟩ := bind_ok h
  cases hrefused : access.refuses place bytes with
  | some fault => simp [hrefused] at h
  | none =>
    simp only [hrefused] at h
    cases h
    exact ⟨place, hplace, hrefused, rfl⟩

theorem find_write (tree : Tree) (access : Access) (path : String) (bytes : List UInt8)
    (tree' : Tree) (h : tree.write access path bytes = .ok tree') :
    tree'.find access.home path = .ok (.file bytes) := by
  obtain ⟨place, hplace, -, rfl⟩ := write_ok tree access path bytes tree' h
  obtain ⟨init, last, parent, hnames, hne, hdot, hdots, hlong, hwalk, hdir, rfl, hno⟩ :=
    target_ok tree access.home path place hplace
  have hparent : parent ≠ parent ++ [last] := by simp
  have hstep : (tree.set (parent ++ [last]) (.file bytes)).step parent last =
      .ok (parent ++ [last]) := by
    rw [step, entry_set_other tree _ _ _ hparent, hdir]
    simp [hne, hdot, hdots, hlong]
  have hfull : (tree.set (parent ++ [last]) (.file bytes)).walk access.home (init ++ [last]) =
      .ok (parent ++ [last]) := by
    rw [walk_concat _ _ _ _ hne, walk_set tree _ _ hno _ init _ hwalk]
    exact hstep
  simp only [find, hnames, hfull, bind, Except.bind, entryAt]
  rw [entry_set_self tree _ _ (by simp)]

theorem read_of_isFile (tree : Tree) (home : Path) (path : String)
    (h : tree.isFile home path = true) : ∃ bytes, tree.read home path = .ok bytes := by
  unfold isFile at h
  unfold read
  cases hf : tree.find home path with
  | error fault => simp [hf] at h
  | ok entry =>
    cases entry with
    | directory => simp [hf] at h
    | file bytes => exact ⟨bytes, rfl⟩

end JvsSharp.Tree
