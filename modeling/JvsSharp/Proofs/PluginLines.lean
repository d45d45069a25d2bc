import JvsSharp.Proofs.Locality
import JvsSharp.Proofs.Newlines
import Mathlib.Logic.Equiv.Defs

/-!
# Plugin scripts are converted line by line

Two rules look at more than the text of a line: one reads the index, one reads
and sets the override state. Rules without these two are a function on lines,
and a run of them over a file is the map of that function. Plugin scripts have
neither of the two rules, and the last of their rules trims the line.
-/

set_option autoImplicit false

namespace JvsSharp.LineByLine

def Plain (r : Rule) : Prop := r ≠ .diamondInference ∧ r ≠ .override

def alone (rules : List Rule) (line : Line) : Line := (convertLine rules [] ⟨line, .idle⟩).line

theorem apply_plain (r : Rule) (hr : Plain r) (index : Index) (line : Line)
    (state : OverrideState) :
    r.apply index ⟨line, state⟩ = ⟨(r.apply [] ⟨line, .idle⟩).line, state⟩ := by
  cases r with
  | diamondInference => exact absurd rfl hr.1
  | override => exact absurd rfl hr.2
  | _ => simp only [Rule.apply, Progress.mapLine]

theorem convertLine_plain_rules (rules : List Rule) (hr : ∀ r ∈ rules, Plain r) (index : Index)
    (line : Line) (state : OverrideState) :
    convertLine rules index ⟨line, state⟩ = ⟨alone rules line, state⟩ := by
  induction rules generalizing line with
  | nil => rfl
  | cons r rules ih =>
    have hfirst := apply_plain r (hr r (by simp))
    have hrest := ih fun other hother => hr other (by simp [hother])
    have halone : alone (r :: rules) line = alone rules (r.apply [] ⟨line, .idle⟩).line := by
      change (convertLine rules [] (r.apply [] ⟨line, .idle⟩)).line = _
      rw [hfirst [] line .idle]
      rfl
    change convertLine rules index (r.apply index ⟨line, state⟩) = _
    rw [hfirst index line state, hrest, halone]

/-- The state goes through a file as it came, and every line is converted alone. -/
theorem convertLines_plain_rules (rules : List Rule) (hr : ∀ r ∈ rules, Plain r) (index : Index)
    (state : OverrideState) (lines : List Line) :
    convertLines rules index state lines = lines.map fun line => ⟨alone rules line, state⟩ := by
  induction lines with
  | nil => rfl
  | cons line lines ih =>
    rw [convertLines, convertLine_plain_rules rules hr index line state, ih, List.map_cons]

theorem domain_rules_plain : ∀ r ∈ Mode.domain.rules, Plain r := by
  unfold Plain
  decide

def pluginLine : Line → Line := alone Mode.domain.rules

def pluginBody (lines : List Line) : List Line :=
  (lines.map pluginLine).filter fun line => !Text.isBlankLine line

def pluginResults (lines : List Line) : List Progress :=
  convertLines Mode.domain.rules (Index.build lines) .idle lines

theorem pluginResults_eq (lines : List Line) :
    pluginResults lines = lines.map fun line => ⟨pluginLine line, .idle⟩ :=
  convertLines_plain_rules _ domain_rules_plain _ .idle lines

theorem body_domain (c : Conversion) (hc : c.mode = .domain) (lines : List Line) :
    c.body lines = pluginBody lines := by
  have hlines : (pluginResults lines).map Progress.line = lines.map pluginLine := by
    rw [pluginResults_eq, List.map_map, Function.comp_def]
  rw [Conversion.body, Conversion.rules, hc, pluginBody, ← hlines, pluginResults]

theorem pluginBody_append (xs ys : List Line) :
    pluginBody (xs ++ ys) = pluginBody xs ++ pluginBody ys := by
  rw [pluginBody, List.map_append, List.filter_append]
  rfl

def permuted (lines : List Line) (σ : Equiv.Perm (Fin lines.length)) : List Line :=
  List.ofFn fun i => lines.get (σ i)

theorem pluginResults_permuted (lines : List Line) (σ : Equiv.Perm (Fin lines.length))
    (i : Fin lines.length) :
    (pluginResults (permuted lines σ))[i.val]? = (pluginResults lines)[(σ i).val]? := by
  rw [pluginResults_eq, pluginResults_eq, List.getElem?_map, List.getElem?_map]
  simp [permuted]

theorem getLast?_trimEnd (line : Line) :
    (Text.trimEnd line).getLast?.any Unicode.isBlank = false := by
  have hhead := List.head?_dropWhile_not Unicode.isBlank line.reverse
  rw [Text.trimEnd, Text.trimStart, List.getLast?_reverse]
  cases hd : (line.reverse.dropWhile Unicode.isBlank).head? with
  | none => rfl
  | some c =>
    rw [hd] at hhead
    simpa using hhead

theorem getLast?_pluginLine (line : Line) :
    (pluginLine line).getLast?.any Unicode.isBlank = false := by
  have hrules : Mode.domain.rules = Mode.domain.rules.dropLast ++ [.trimTrailing] := rfl
  have htrim : ∀ s : Progress, (convertLine [.trimTrailing] [] s).line = Text.trimEnd s.line :=
    fun _ => rfl
  rw [pluginLine, alone, hrules, Locality.convertLine_append, htrim]
  exact getLast?_trimEnd _

/-- A plugin script is converted line by line: there is a function on lines that all of its
rules come to, whatever the index and the state are. The prelude and the closing brace stand
around the results that are not blank, parts of a script are converted apart, lines may change
places, no line leaves a mark on the next one, and none ends in white space. -/
theorem plugin_conversion_line_by_line :
    (∀ index state line,
      convertLine Mode.domain.rules index ⟨line, state⟩ = ⟨pluginLine line, state⟩) ∧
    ∀ (prelude : List Line) (close : Bool) (xs ys : List Line),
      (⟨.domain, prelude, close⟩ : Conversion).run xs =
        prelude ++ pluginBody xs ++ (if close then ["\x7d".toList] else []) ∧
      pluginBody (xs ++ ys) = pluginBody xs ++ pluginBody ys ∧
      (∀ σ : Equiv.Perm (Fin xs.length),
        (pluginResults (permuted xs σ)).length = xs.length ∧
        ∀ i : Fin xs.length,
          (pluginResults (permuted xs σ))[i.val]? = (pluginResults xs)[(σ i).val]?) ∧
      pluginResults xs = xs.map (fun line => ⟨pluginLine line, .idle⟩) ∧
      ∀ line ∈ pluginBody xs,
        (∃ d ∈ line, Unicode.isBlank d = false) ∧
          line.getLast?.any Unicode.isBlank = false := by
  constructor
  · exact fun index state line =>
      convertLine_plain_rules _ domain_rules_plain index line state
  · intro prelude close xs ys
    let c : Conversion := ⟨.domain, prelude, close⟩
    have hbody : c.body xs = pluginBody xs := body_domain c rfl xs
    refine ⟨?_, pluginBody_append xs ys, fun σ => ⟨?_, pluginResults_permuted xs σ⟩,
      pluginResults_eq xs, fun line hline => ⟨?_, ?_⟩⟩
    · exact congrArg (fun body => prelude ++ body ++ c.closing) hbody
    · rw [pluginResults_eq, List.length_map, permuted, List.length_ofFn]
    · rw [← hbody] at hline
      exact c.body_not_blank xs line hline
    · rw [pluginBody, List.mem_filter, List.mem_map] at hline
      obtain ⟨⟨source, -, rfl⟩, -⟩ := hline
      exact getLast?_pluginLine source

end JvsSharp.LineByLine
