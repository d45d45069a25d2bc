import JvsSharp.Conversion

/-!
# What a converted line depends on

Of all rules only the last one of the general mode looks at the override
state, and the state it leaves is decided by the text of its own line. A line
is therefore converted from itself, from the line before it and from the
look-ups in the index, whatever else the file holds.
-/

set_option autoImplicit false

namespace JvsSharp.Locality

def SameLookups (index index' : Index) : Prop := ∀ name, index.get? name = index'.get? name

theorem diamond_lookups (index index' : Index) (h : SameLookups index index') (line : Line) :
    Rules.diamondInference index line = Rules.diamondInference index' line := by
  unfold Rules.diamondInference
  simp only [h _]

theorem apply_lookups (index index' : Index) (h : SameLookups index index') (r : Rule)
    (s : Progress) : r.apply index s = r.apply index' s := by
  cases r with
  | diamondInference =>
    simp only [Rule.apply, Progress.mapLine, diamond_lookups index index' h]
  | _ => rfl

theorem convertLine_lookups (index index' : Index) (h : SameLookups index index')
    (rules : List Rule) (s : Progress) :
    convertLine rules index s = convertLine rules index' s := by
  unfold convertLine
  simp only [apply_lookups index index' h]

/-- Every rule but the tracker of overrides changes the line alone, and in the same way in
either state. -/
theorem apply_of_ne_override (index : Index) (r : Rule) (hr : r ≠ .override) (line : Line)
    (state : OverrideState) :
    r.apply index ⟨line, state⟩ = ⟨(r.apply index ⟨line, .idle⟩).line, state⟩ := by
  cases r with
  | override => exact absurd rfl hr
  | _ => simp only [Rule.apply, Progress.mapLine]

theorem convertLine_append (rules rest : List Rule) (index : Index) (s : Progress) :
    convertLine (rules ++ rest) index s = convertLine rest index (convertLine rules index s) :=
  List.foldl_append

theorem convertLine_plain (index : Index) (rules : List Rule) (hr : Rule.override ∉ rules)
    (line : Line) (state : OverrideState) :
    convertLine rules index ⟨line, state⟩ =
      ⟨(convertLine rules index ⟨line, .idle⟩).line, state⟩ := by
  induction rules generalizing line with
  | nil => rfl
  | cons r rules ih =>
    have hne : r ≠ .override := fun h => hr (by simp [h])
    have hrest : Rule.override ∉ rules := fun h => hr (by simp [h])
    have hstep := apply_of_ne_override index r hne line
    change convertLine rules index (r.apply index ⟨line, state⟩) =
      ⟨(convertLine rules index (r.apply index ⟨line, .idle⟩)).line, state⟩
    rw [hstep state, hstep .idle]
    exact ih hrest _

def plainRules : List Rule := Mode.general.rules.dropLast

theorem general_rules : Mode.general.rules = plainRules ++ [.override] := rfl

theorem trackOverride_state (line : Line) (s t : OverrideState) :
    (Rules.trackOverride ⟨line, s⟩).state = (Rules.trackOverride ⟨line, t⟩).state := by
  unfold Rules.trackOverride
  by_cases h : Rules.overrideMarker.occursIn line
  · simp only [h, if_true]
  · cases s <;> cases t <;> simp [h]

def leaves (index : Index) (line : Line) : OverrideState :=
  (convertLine Mode.general.rules index ⟨line, .idle⟩).state

theorem convertLine_state (index : Index) (line : Line) (state : OverrideState) :
    (convertLine Mode.general.rules index ⟨line, state⟩).state = leaves index line := by
  have hp : Rule.override ∉ plainRules := by decide
  rw [leaves, general_rules, convertLine_append, convertLine_append,
    convertLine_plain index plainRules hp line state,
    convertLine_plain index plainRules hp line .idle]
  simp only [convertLine, List.foldl_cons, List.foldl_nil, Rule.apply]
  rw [trackOverride_state]

def entering (index : Index) (state : OverrideState) (lines : List Line) : Nat → OverrideState
  | 0 => state
  | i + 1 => (lines[i]?.map (leaves index)).getD state

theorem convertLines_getElem? (index : Index) (state : OverrideState) (lines : List Line)
    (i : Nat) :
    (convertLines Mode.general.rules index state lines)[i]? =
      lines[i]?.map fun line =>
        convertLine Mode.general.rules index ⟨line, entering index state lines i⟩ := by
  induction lines generalizing state i with
  | nil => rfl
  | cons line lines ih =>
    cases i with
    | zero => rfl
    | succ i =>
      rw [convertLines, List.getElem?_cons_succ, List.getElem?_cons_succ, ih]
      cases i with
      | zero => simp [entering, convertLine_state]
      | succ i =>
        cases h : lines[i]? with
        | none =>
          have hnext : lines[i + 1]? = none := by
            rw [List.getElem?_eq_none_iff] at h ⊢
            omega
          simp [hnext]
        | some prev => simp [entering, h]

/-- The line at `i` and the state behind it are decided by the lines at `i` and before it. -/
theorem convertLines_local (index index' : Index) (h : SameLookups index index')
    (state : OverrideState) (xs ys : List Line) (i : Nat) (hi : xs[i]? = ys[i]?)
    (hprev : i = 0 ∨ xs[i - 1]? = ys[i - 1]?) :
    (convertLines Mode.general.rules index state xs)[i]? =
      (convertLines Mode.general.rules index' state ys)[i]? := by
  -- The state comes from the line before and from nothing else.
  have hentering : entering index state xs i = entering index' state ys i := by
    cases i with
    | zero => rfl
    | succ i =>
      have hxy : xs[i]? = ys[i]? := hprev.resolve_left (by omega)
      have hleaves : leaves index = leaves index' := by
        funext line
        rw [leaves, leaves, convertLine_lookups index index' h]
      simp only [entering, hxy, hleaves]
  rw [convertLines_getElem?, convertLines_getElem?, hi, hentering]
  simp only [convertLine_lookups index index' h]

def general (lines : List Line) : List Progress :=
  convertLines Mode.general.rules (Index.build lines) .idle lines

/-- Lines of two files agree after conversion where they and the lines before them agree, if
the indexes of the files do. An edit of one line that keeps the index therefore shows in
that line and the next one only. -/
theorem general_conversion_local (xs ys : List Line)
    (hindex : SameLookups (Index.build xs) (Index.build ys)) :
    (∀ i, xs[i]? = ys[i]? → (i = 0 ∨ xs[i - 1]? = ys[i - 1]?) →
      (general xs)[i]? = (general ys)[i]?) ∧
    ∀ k, (∀ j, j ≠ k → xs[j]? = ys[j]?) →
      ∀ i, i ≠ k → i ≠ k + 1 → (general xs)[i]? = (general ys)[i]? := by
  have hlocal : ∀ i, xs[i]? = ys[i]? → (i = 0 ∨ xs[i - 1]? = ys[i - 1]?) →
      (general xs)[i]? = (general ys)[i]? :=
    fun i hi hprev => convertLines_local _ _ hindex .idle xs ys i hi hprev
  refine ⟨hlocal, fun k hother i hk hk' => hlocal i (hother i hk) ?_⟩
  by_cases h0 : i = 0
  · exact Or.inl h0
  · exact Or.inr (hother (i - 1) (by omega))

/-- The line below an override marker is converted alike whatever stands above the marker. -/
theorem general_local_below_marker :
    let xs := ["int a;".toList, "@Override".toList, "public void run() \x7b".toList]
    let ys := ["@Override int a;".toList, "@Override".toList, "public void run() \x7b".toList]
    SameLookups (Index.build xs) (Index.build ys) ∧ xs[2]? = ys[2]? ∧ xs[1]? = ys[1]? ∧
      (general xs)[2]? = (general ys)[2]? := by
  intro xs ys
  have hindex : Index.build xs = Index.build ys := by decide
  have hlookups : SameLookups (Index.build xs) (Index.build ys) := fun name => by rw [hindex]
  exact ⟨hlookups, rfl, rfl, (general_conversion_local xs ys hlookups).1 2 rfl (Or.inr rfl)⟩

end JvsSharp.Locality
