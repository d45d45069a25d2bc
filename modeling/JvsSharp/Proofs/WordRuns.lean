import JvsSharp.Proofs.TargetForm
import Mathlib.Data.List.SplitBy

/-!
# Primitive types, run by run

A line is cut where words begin and end. Mapping the words of the line is the
same as mapping the runs that this cut leaves, because a run that lies outside
of all words is no name of a type. Two texts may be mapped apart if no word
goes on from one into the other.
-/

set_option autoImplicit false

namespace JvsSharp

def sameSide (a b : Char) : Bool := Unicode.isWord a == Unicode.isWord b

def runsOf (line : Line) : List Line := line.splitBy sameSide

theorem run_sides (run : Line) (h : run.IsChain fun a b => sameSide a b = true) :
    IsWordText run ∨ ∀ c ∈ run, Unicode.isWord c = false := by
  induction run with
  | nil => exact .inl (by simp [IsWordText])
  | cons c run ih =>
    cases run with
    | nil =>
      cases hc : Unicode.isWord c with
      | true => exact .inl (by simp [IsWordText, hc])
      | false => exact .inr (by simp [hc])
    | cons d run =>
      obtain ⟨hside, hchain⟩ := List.isChain_cons_cons.1 h
      have hcd : Unicode.isWord c = Unicode.isWord d := eq_of_beq hside
      rcases ih hchain with hword | hother
      · exact .inl (List.forall_mem_cons.2 ⟨hcd.trans (hword d (by simp)), hword⟩)
      · exact .inr (List.forall_mem_cons.2 ⟨hcd.trans (hother d (by simp)), hother⟩)

theorem endsWord_behind_cut (run : Line) (hword : IsWordText run) (cut : List Line)
    (h : (run :: cut).IsChain fun a b => ∃ ha hb, sameSide (a.getLast ha) (b.head hb) = false) :
    EndsWord cut.flatten := by
  cases cut with
  | nil => rfl
  | cons next cut =>
    obtain ⟨⟨ha, hb, hside⟩, -⟩ := List.isChain_cons_cons.1 h
    have hlast : Unicode.isWord (run.getLast ha) = true := hword _ (List.getLast_mem ha)
    have hhead : Unicode.isWord (next.head hb) = false := by
      rw [sameSide, hlast] at hside
      simpa using hside
    cases next with
    | nil => exact absurd rfl hb
    | cons c next => exact endsWord_cons c _ hhead

section
variable (f : Line → Line) (hf : ∀ run : Line, (∀ c ∈ run, Unicode.isWord c = false) → f run = run)
include hf

theorem mapWords_flatten (cut : List Line) (hne : [] ∉ cut)
    (hrun : ∀ run ∈ cut, run.IsChain fun a b => sameSide a b = true)
    (hcut : cut.IsChain fun a b => ∃ ha hb, sameSide (a.getLast ha) (b.head hb) = false) :
    mapWords f cut.flatten = cut.flatMap f := by
  induction cut with
  | nil => rfl
  | cons run cut ih =>
    rw [List.mem_cons, not_or] at hne
    have hrest := ih hne.2 (fun r hr => hrun r (by simp [hr])) hcut.tail
    have hnil : run ≠ [] := Ne.symm hne.1
    rw [List.flatten_cons, List.flatMap_cons]
    rcases run_sides run (hrun run (by simp)) with hword | hother
    · rw [mapWords_run f run _ hword (endsWord_behind_cut run hword cut hcut), flush,
        if_neg hnil, hrest]
    · rw [mapWords_others f run _ hother, hf run hother, hrest]

theorem mapWords_eq_flatMap_runsOf (line : Line) :
    mapWords f line = (runsOf line).flatMap f := by
  have hflatten := mapWords_flatten f hf (runsOf line) (List.nil_notMem_splitBy _ line)
    (fun _ hrun => List.isChain_of_mem_splitBy hrun) (List.isChain_getLast_head_splitBy _ line)
  rwa [runsOf, List.flatten_splitBy] at hflatten

end

theorem mapWords_apart (f : Line → Line) (xs ys : Line)
    (h : xs.getLast?.any Unicode.isWord = false ∨ ys.head?.any Unicode.isWord = false) :
    mapWords f (xs ++ ys) = mapWords f xs ++ mapWords f ys := by
  rcases h with h | h
  · rcases List.eq_nil_or_concat xs with rfl | ⟨xs, c, rfl⟩
    · rfl
    · have hc : Unicode.isWord c = false := by simpa using h
      rw [List.concat_eq_append, List.append_assoc, List.singleton_append,
        mapWords_cut f xs c ys hc, mapWords_cut f xs c [] hc, mapWords_nil, List.append_assoc,
        List.singleton_append]
  · cases ys with
    | nil => rw [mapWords_nil, List.append_nil, List.append_nil]
    | cons c ys =>
      have hc : Unicode.isWord c = false := h
      rw [mapWords_cut f xs c ys hc, mapWords_other f c ys hc]

namespace Rules

theorem primitiveKeyword_eq_self (w : Line) (h : ∀ p ∈ primitives, p.1.toList ≠ w) :
    primitiveKeyword w = w := by
  have hnone : (primitives.find? fun p => p.1.toList == w) = none := by
    rw [List.find?_eq_none]
    intro p hp heq
    exact h p hp (eq_of_beq heq)
  rw [primitiveKeyword, hnone]

theorem primitiveKeyword_other (run : Line) (h : ∀ c ∈ run, Unicode.isWord c = false) :
    primitiveKeyword run = run := by
  have hnames : ∀ p ∈ primitives, p.1.toList.any Unicode.isWord = true := by decide
  refine primitiveKeyword_eq_self run fun p hp heq => ?_
  obtain ⟨c, hc, hword⟩ := List.any_eq_true.1 (hnames p hp)
  rw [heq] at hc
  exact Bool.false_ne_true ((h c hc).symm.trans hword)

/-- Primitive types are mapped run by run: each run that is one of the source names becomes its
keyword and all else stays. A second mapping finds nothing to do, and texts that meet at
another character than one of a word are mapped apart. -/
theorem primitive_types_run_by_run :
    (∀ line, primitiveTypes line = (runsOf line).flatMap primitiveKeyword) ∧
      (∀ p ∈ primitives, primitiveKeyword p.1.toList = p.2.toList) ∧
      (∀ w, (∀ p ∈ primitives, p.1.toList ≠ w) → primitiveKeyword w = w) ∧
      (∀ line, primitiveTypes (primitiveTypes line) = primitiveTypes line) ∧
      ∀ xs ys : Line,
        xs.getLast?.any Unicode.isWord = false ∨ ys.head?.any Unicode.isWord = false →
          primitiveTypes (xs ++ ys) = primitiveTypes xs ++ primitiveTypes ys := by
  refine ⟨fun line => ?_, by decide, primitiveKeyword_eq_self, primitiveTypes_twice,
    fun xs ys h => ?_⟩
  · rw [primitiveTypes_eq, mapWords_eq_flatMap_runsOf _ primitiveKeyword_other]
  · rw [primitiveTypes_eq, primitiveTypes_eq, primitiveTypes_eq, mapWords_apart _ xs ys h]

/-- A name within a longer word stays, also behind a mark that belongs to the word. -/
theorem names_in_longer_words_stay :
    let xs := "Map<String,My_String".toList
    let ys := ">Integer\u0301 String-String Boolean".toList
    (xs.getLast?.any Unicode.isWord = true ∧ ys.head?.any Unicode.isWord = false) ∧
      primitiveTypes (xs ++ ys) =
        "Map<string,My_String".toList ++ ">Integer\u0301 string-string bool".toList := by
  intro xs ys
  have hends : xs.getLast?.any Unicode.isWord = true ∧ ys.head?.any Unicode.isWord = false := by
    decide
  have hxs : primitiveTypes xs = "Map<string,My_String".toList := by decide
  have hys : primitiveTypes ys = ">Integer\u0301 string-string bool".toList := by decide
  refine ⟨hends, ?_⟩
  rw [primitive_types_run_by_run.2.2.2.2 xs ys (.inr hends.2), hxs, hys]

end Rules

end JvsSharp
