import JvsSharp.Proofs.MethodCasing
import JvsSharp.Proofs.SettledCalls

/-!
# The naming rules change nothing but case

The rules for methods, constants and bare calls put the pieces of a match
together again with the name in another case. The rule for packages cases
every step of the path and keeps its dots, so the path can be read off the
namespace and no two packages share one.
-/

set_option autoImplicit false

namespace JvsSharp
open Pattern

namespace Pattern

def groupsInTurn (gs : List (Nat × Pattern)) : Pattern := all (gs.map fun g => .group g.1 g.2)

theorem not_mem_groupsInTurn (i : Nat) (gs : List (Nat × Pattern))
    (h : ∀ g ∈ gs, i ≠ g.1 ∧ i ∉ g.2.groups) : i ∉ (groupsInTurn gs).groups := by
  induction gs with
  | nil => exact List.not_mem_nil
  | cons g gs ih =>
    obtain ⟨hne, hnot⟩ := h g (by simp)
    intro hmem
    rcases List.mem_append.1 hmem with hfirst | hrest
    · exact (List.mem_cons.1 hfirst).elim hne hnot
    · exact ih (fun g' hg => h g' (by simp [hg])) hrest

/-- What groups in turn hold is all that they go over. -/
theorem ends_groupsInTurn (gs : List (Nat × Pattern))
    (hgs : gs.Pairwise fun g g' => g.1 ≠ g'.1 ∧ g.1 ∉ g'.2.groups) (c : Place) (m : List Mark)
    (r : Place × List Mark) (h : r ∈ (groupsInTurn gs).ends c m) :
    c.rest = (gs.flatMap fun g => groupText r.2 g.1) ++ r.1.rest := by
  induction gs generalizing c m with
  | nil =>
    rw [List.mem_singleton.1 h]
    rfl
  | cons g gs ih =>
    obtain ⟨hfirst, hpairs⟩ := List.pairwise_cons.1 hgs
    obtain ⟨s, hs, hr⟩ := List.mem_flatMap.1 h
    have hrest := ih hpairs _ _ hr
    have hkept := ends_groupText _ _ _ r hr g.1 (not_mem_groupsInTurn g.1 gs hfirst)
    rw [ends, List.mem_map] at hs
    obtain ⟨t, ht, rfl⟩ := hs
    have hown : groupText r.2 g.1 = textBetween c.rest t.1.rest := by
      rw [hkept, groupText, List.find?_cons, beq_self_eq_true]
      rfl
    rw [List.flatMap_cons, List.append_assoc, ← hrest, hown]
    exact (textBetween_append _ _ (ends_suffix g.2 c m t ht)).symm

theorem text_groupsInTurn (gs : List (Nat × Pattern))
    (hgs : gs.Pairwise fun g g' => g.1 ≠ g'.1 ∧ g.1 ∉ g'.2.groups) (c : Place) (h : Hit)
    (hm : (groupsInTurn gs).matchAt c = some h) : h.text = gs.flatMap fun g => h.group g.1 := by
  rw [matchAt_eq, Option.map_eq_some_iff] at hm
  obtain ⟨r, hr, rfl⟩ := hm
  change textBetween c.rest r.1.rest = gs.flatMap fun g => groupText r.2 g.1
  rw [ends_groupsInTurn gs hgs c [] r (List.mem_of_mem_head? hr), textBetween_left]

end Pattern

def OnlyCaseChanged (xs ys : Line) : Prop := ys.length = xs.length ∧ SameLetters xs ys

theorem SameLetters.onlyCase {xs ys : Line} (h : SameLetters xs ys) : OnlyCaseChanged xs ys :=
  ⟨h.length, h⟩

theorem join_letters (separator : Char) (f : Line → Line) (pieces : List Line)
    (hf : ∀ piece ∈ pieces, SameLetters piece (f piece)) :
    SameLetters (Text.join separator pieces) (Text.join separator (pieces.map f)) := by
  induction pieces with
  | nil => rfl
  | cons piece pieces ih =>
    have hpiece := hf piece (by simp)
    have hpieces := ih fun p hp => hf p (by simp [hp])
    cases pieces with
    | nil => simpa [Text.join] using hpiece
    | cons next pieces =>
      rw [List.map_cons, join_cons separator piece (next :: pieces) (by simp),
        join_cons separator (f piece) ((next :: pieces).map f) (by simp)]
      exact hpiece.append (SameLetters.append (.refl [separator]) hpieces)

theorem mem_of_mem_split (separator : Char) (xs piece : Line)
    (h : piece ∈ Text.split separator xs) : ∀ c ∈ piece, c ∈ xs ∧ c ≠ separator := by
  induction xs generalizing piece with
  | nil =>
    rw [Text.split, List.mem_singleton] at h
    simp [h]
  | cons x xs ih =>
    have hlater : ∀ piece ∈ Text.split separator xs, ∀ c ∈ piece, c ∈ x :: xs ∧ c ≠ separator :=
      fun piece hpiece c hc => (ih piece hpiece c hc).imp_left (List.mem_cons_of_mem x)
    rw [Text.split] at h
    split at h
    · rcases List.mem_cons.1 h with rfl | h
      · simp
      · exact hlater piece h
    · next hx =>
      cases hs : Text.split separator xs with
      | nil => exact absurd hs (split_ne_nil separator xs)
      | cons first pieces =>
        rw [hs] at h hlater
        rcases List.mem_cons.1 h with rfl | h
        · refine List.forall_mem_cons.2 ⟨⟨by simp, by simpa using hx⟩, hlater first (by simp)⟩
        · exact hlater piece (by simp [h])

def packageChar : CharClass := .union .lower (.union .digit (.oneOf ['_', '.']))

structure PackagePath where
  text : Line
  ne : text ≠ []
  form : ∀ c ∈ text, packageChar.mem c = true

namespace PackagePath

variable (p : PackagePath)

def header : Line := "package ".toList ++ (p.text ++ [';'])

theorem char_facts (c : Char) (h : packageChar.mem c = true) :
    c.toLower = c ∧ Unicode.isBlank c = false ∧ (c ≠ '.' → nameChar.mem c = true) := by
  have hcode : c.toNat < 0x80 := by
    by_cases hdot : c = '.'
    · rw [hdot]
      decide
    · refine nameChar_code ?_
      simp only [packageChar, CharClass.mem, Bool.or_eq_true, List.contains_iff_mem, List.mem_cons,
        List.not_mem_nil, or_false, hdot] at h
      simp only [nameChar, CharClass.mem, Bool.or_eq_true, beq_iff_eq]
      tauto
  refine Unicode.forall_ascii (P := fun c => packageChar.mem c = true → c.toLower = c ∧
    Unicode.isBlank c = false ∧ (c ≠ '.' → nameChar.mem c = true)) ?_ c hcode h
  decide

theorem map_toLower : p.text.map Char.toLower = p.text := by
  have hself := List.map_congr_left fun c hc => (char_facts c (p.form c hc)).1
  rwa [List.map_id'] at hself

theorem pascalPath_letters : SameLetters p.text (Casing.pascalPath p.text) := by
  have hletters := join_letters '.' Casing.pascal (Text.split '.' p.text) fun piece hpiece => by
    refine (pascal_letters piece fun c hc => ?_).2
    obtain ⟨hmem, hdot⟩ := mem_of_mem_split '.' p.text piece hpiece c hc
    exact (char_facts c (p.form c hmem)).2.2 hdot
  rwa [join_split] at hletters

/-- The path can be read off the namespace. -/
theorem toLower_pascalPath : (Casing.pascalPath p.text).map Char.toLower = p.text :=
  p.pascalPath_letters.trans p.map_toLower

end PackagePath

def namespaceOpening (path : Line) : Line := "namespace ".toList ++ (path ++ " \x7b".toList)

namespace Rules

theorem packageLine_hit (p : PackagePath) :
    ∃ h, packageLine.pattern.matchAt ⟨none, p.header⟩ = some h ∧ h.text = p.header ∧
      h.group 1 = p.text := by
  let path : Line := p.text ++ [';']
  refine ⟨⟨none, p.header, [⟨1, path, [';']⟩], []⟩, ?_, rfl, textBetween_left p.text [';']⟩
  have hstop : Stops .blank path := by
    have hform := p.form
    cases hp : p.text with
    | nil => exact absurd hp p.ne
    | cons c rest =>
      have hc := (PackagePath.char_facts c (hform c (by simp [hp]))).2.1
      simpa [path, hp, Stops, CharClass.mem] using hc
  have hline : p.header = "package".toList ++ ([' '] ++ path) := rfl
  rw [hline, matchAt, packageLine, matchK_all_cons]
  refine (matchK_text "package".toList _ _ _ _).trans ?_
  rw [matchK_all_cons]
  refine (matchK_chars .blank _ [' '] _ _ _ (by decide) (by decide) hstop).trans ?_
  rw [matchK_all_cons, matchK]
  refine (matchK_chars packageChar _ p.text [';'] _ _ p.ne p.form
    (stops_cons _ ';' _ (by decide))).trans ?_
  rw [matchK_all_cons]
  refine (matchK_char ';' _ _ _ _).trans ?_
  rw [matchK_all_nil, textBetween_nil]

theorem namespaceHeader_package (p : PackagePath) :
    namespaceHeader p.header = namespaceOpening (Casing.pascalPath p.text) := by
  obtain ⟨h, hm, htext, hgroup⟩ := packageLine_hit p
  have hne : p.header ≠ [] := List.append_ne_nil_of_left_ne_nil (by decide) _
  have hrender : packageLine.render h =
      "namespace ".toList ++ (Casing.pascalPath (h.group 1) ++ " \x7b".toList) := rfl
  have hwhole := replaceAll_whole packageLine.pattern packageLine.render p.header h hm htext hne
  rw [hrender, hgroup] at hwhole
  exact hwhole

theorem namespaceHeader_injective (p p' : PackagePath)
    (h : namespaceHeader p.header = namespaceHeader p'.header) : p.text = p'.text := by
  rw [namespaceHeader_package p, namespaceHeader_package p'] at h
  have hpath : Casing.pascalPath p.text = Casing.pascalPath p'.text :=
    List.append_cancel_right (List.append_cancel_left h)
  calc p.text
    _ = (Casing.pascalPath p.text).map Char.toLower := p.toLower_pascalPath.symm
    _ = (Casing.pascalPath p'.text).map Char.toLower := by rw [hpath]
    _ = p'.text := p'.toLower_pascalPath

theorem methodNames_keepsLetters (line : Line) : KeepsLetters line (methodNames line) := by
  refine replaceAll_piecewise KeepsLetters.piecewise (fun c h hm => ?_) line
  intro hascii
  split
  · exact ⟨hascii, rfl⟩
  · -- The match is what its three groups hold.
    have htext : h.text = h.group 1 ++ (h.group 3 ++ h.group 4) := by
      have hgroups := text_groupsInTurn
        [(1, all [.edge, .star modifier, .group 2 memberType, space]), (3, memberName),
          (4, all [gap, "("])] (by decide) c h hm
      simpa using hgroups
    rw [htext, isAscii_append, isAscii_append] at hascii
    obtain ⟨hbefore, hname, hafter⟩ := hascii
    have hword := group_mem .word 3 methodHeader (by decide) c h hm
    obtain ⟨hcased, hletters⟩ := pascal_letters _ (isNameText_of_ascii _ hname hword)
    rw [htext, List.append_assoc]
    refine ⟨?_, (SameLetters.refl _).append (hletters.append (.refl _))⟩
    rw [isAscii_append, isAscii_append]
    exact ⟨hbefore, isAscii_of_name _ hcased, hafter⟩

theorem constants_keepsLetters (line : Line) : KeepsLetters line (constants line) := by
  refine replaceAll_piecewise KeepsLetters.piecewise (fun c h hm => ?_) line
  intro hascii
  have hgroup : h.group 1 = h.text := wholeWord_group 1 _ c h hm
  have hname : IsNameText (h.group 1) :=
    group_mem nameChar 1 constantWord.pattern (by decide) c h hm
  obtain ⟨hcased, hletters⟩ := constantName_letters _ hname
  have hrender : constantWord.render h = constantName (h.group 1) := by
    simp [Edit.render, constantWord, Part.render]
  rw [hrender, ← hgroup]
  exact ⟨isAscii_of_name _ hcased, hletters⟩

def HoldsElsePair (line : Line) : Prop :=
  ∃ (pre : Line) (pair : ElsePair) (post : Line), line = pre ++ (pair.text ++ post) ∧
    (behind none pre).any Unicode.isWord = false ∧ EndsWord post

theorem elseIf_keeps (line : Line) (h : ¬HoldsElsePair line) : elseIf.apply line = line := by
  refine elseIf.apply_absent line (absent_of_forall _ _ fun pre rest hline => ?_)
  refine matchAt_eq_none _ _ fun r hr => ?_
  obtain ⟨hout, pair, hrest, hpost⟩ := pair_of_ends _ r hr
  exact h ⟨pre, pair, r.1.rest, by rw [hline, ← hrest], hout, hpost⟩

/-- The rules for the names of methods and constants change nothing of an ASCII line but the case
of letters, and so does the rule for bare calls if there is no `else` with its `if` to be mended.
The line of a package becomes a namespace whose path in lower case is that of the package, so
different packages never share a namespace. -/
theorem naming_rules_change_case_only :
    (∀ line, IsAscii line → OnlyCaseChanged line (methodNames line) ∧
      OnlyCaseChanged line (constants line) ∧
      (¬HoldsElsePair line → OnlyCaseChanged line (standaloneCalls line))) ∧
    ∀ p : PackagePath,
      (∃ path, namespaceHeader p.header = namespaceOpening path ∧
        path.map Char.toLower = p.text) ∧
      ∀ p' : PackagePath, namespaceHeader p.header = namespaceHeader p'.header →
        p.text = p'.text := by
  refine ⟨fun line hline => ⟨?_, ?_, fun hnone => ?_⟩, fun p => ⟨?_, namespaceHeader_injective p⟩⟩
  · exact (methodNames_keepsLetters line hline).2.onlyCase
  · exact (constants_keepsLetters line hline).2.onlyCase
  · rw [standaloneCalls, elseIf_keeps line hnone]
    exact (called_keepsLetters (called_apply line) hline).2.onlyCase
  · exact ⟨_, namespaceHeader_package p, p.toLower_pascalPath⟩

/-- A header with a constant and a call in its body, and two packages. -/
theorem method_line_changes_case :
    let line := "static int load_all(int MAX_SIZE) \x7b new_page(x); \x7d".toList
    let app : PackagePath := ⟨"com.acme.my_app".toList, by decide, by decide⟩
    let base : PackagePath := ⟨"com.acme.base".toList, by decide, by decide⟩
    (IsAscii line ∧ ¬HoldsElsePair line) ∧
      (OnlyCaseChanged line (methodNames line) ∧ methodNames line ≠ line) ∧
      (OnlyCaseChanged line (constants line) ∧ constants line ≠ line) ∧
      (OnlyCaseChanged line (standaloneCalls line) ∧ standaloneCalls line ≠ line) ∧
      (∃ path, namespaceHeader app.header = namespaceOpening path ∧
        path.map Char.toLower = app.text) ∧
      namespaceHeader app.header ≠ namespaceHeader base.header := by
  intro line app base
  have hascii : IsAscii line := by decide
  have hnone : ¬HoldsElsePair line := by
    rintro ⟨pre, pair, post, hline, -, -⟩
    -- There is no `f` in the line.
    have hall : ∀ c ∈ line, foldCase c ≠ 'f' := by decide
    have hmem : 'f' ∈ pair.second.map foldCase := pair.isElseIf.2 ▸ (by decide)
    obtain ⟨c, hc, hfold⟩ := List.mem_map.1 hmem
    exact hall c (by simp [hline, ElsePair.text, hc]) hfold
  obtain ⟨hmethods, hconstants, hcalls⟩ := naming_rules_change_case_only.1 line hascii
  have hpackage := naming_rules_change_case_only.2 app
  refine ⟨⟨hascii, hnone⟩, ⟨hmethods, ?_⟩, ⟨hconstants, ?_⟩, ⟨hcalls hnone, ?_⟩, hpackage.1,
    fun hsame => absurd (hpackage.2 base hsame) (by decide)⟩
  · decide
  · decide
  · decide

end Rules

end JvsSharp
