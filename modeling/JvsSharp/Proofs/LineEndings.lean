import JvsSharp.Document
import JvsSharp.Proofs.Caseless

/-!
# Line endings do not matter

An ASCII byte ends whatever sequence stands before it, so the bytes on its two
sides are decoded apart, and no other bytes are decoded to an ASCII character.
A file is therefore cut into lines by its newline bytes, and a carriage return
before such a byte is dropped, whatever else the file holds.
-/

set_option autoImplicit false

namespace JvsSharp

namespace Utf8

/-- What holds of every state that the decoder comes to: no ASCII byte goes on with its
sequence, and the character that the sequence ends with is not an ASCII character. -/
def State.Sound : State → Prop
  | .ground => True
  | .inside left low _ value =>
      0x80 ≤ low ∧ 2 ≤ value * 0x40 + (low - 0x80) ∧ (left ≤ 1 → 2 ≤ value)

theorem first_sound (b : Nat) : (first b).2.Sound := by
  unfold first
  repeat' split
  all_goals simp only [State.Sound]
  all_goals omega

theorem step_sound (s : State) (hs : s.Sound) (b : Nat) : (step s b).2.Sound := by
  cases s with
  | ground => exact first_sound b
  | inside left low high value =>
    obtain ⟨hlow, hvalue, -⟩ := hs
    rw [step]
    split
    · split
      · trivial
      · simp only [State.Sound]
        omega
    · exact first_sound b

theorem first_ascii (b : Nat) (hb : b < 0x80) : first b = ([some (Char.ofNat b)], .ground) :=
  if_pos hb

theorem decodeFrom_cons (s : State) (b : UInt8) (bytes : List UInt8) :
    decodeFrom s (b :: bytes) = (step s b.toNat).1 ++ decodeFrom (step s b.toNat).2 bytes := by
  rw [decodeFrom]

/-- An ASCII byte ends the sequence before it and is a character of its own. -/
theorem decodeFrom_ascii (s : State) (hs : s.Sound) (b : UInt8) (hb : b.toNat < 0x80)
    (bytes : List UInt8) :
    decodeFrom s (b :: bytes) =
      decodeFrom s [] ++ some (Char.ofNat b.toNat) :: decodeFrom .ground bytes := by
  cases s with
  | ground =>
    rw [decodeFrom_cons, step, first_ascii _ hb]
    rfl
  | inside left low high value =>
    have hlow : 0x80 ≤ low := hs.1
    have hout : ¬(low ≤ b.toNat ∧ b.toNat ≤ high) := by omega
    rw [decodeFrom_cons, step, if_neg hout, first_ascii _ hb]
    rfl

theorem ofNat_ne (n : Nat) (hn : 0x80 ≤ n) (d : Char) (hpos : 0 < d.toNat) (hd : d.toNat < 0x80) :
    Char.ofNat n ≠ d := by
  intro heq
  have := Unicode.eq_toNat_of_ofNat n d (by omega) heq
  omega

theorem first_mem (b : Nat) (d : Char) (hpos : 0 < d.toNat) (hd : d.toNat < 0x80)
    (h : some d ∈ (first b).1) : b = d.toNat := by
  unfold first at h
  repeat' split at h
  all_goals simp only [List.mem_singleton, Option.some.injEq, List.not_mem_nil, reduceCtorEq] at h
  exact Unicode.eq_toNat_of_ofNat b d (by omega) h.symm

/-- An ASCII character is the byte that has just been read. -/
theorem step_mem (s : State) (hs : s.Sound) (b : Nat) (d : Char) (hpos : 0 < d.toNat)
    (hd : d.toNat < 0x80) (h : some d ∈ (step s b).1) : b = d.toNat := by
  cases s with
  | ground => exact first_mem b d hpos hd h
  | inside left low high value =>
    obtain ⟨hlow, hvalue, hlast⟩ := hs
    rw [step] at h
    split at h
    · split at h
      · next hleft =>
        have hchar : 0x80 ≤ value * 0x40 + (b - 0x80) := by
          have := hlast hleft
          omega
        simp only [List.mem_singleton, Option.some.injEq] at h
        exact absurd h.symm (ofNat_ne _ hchar d hpos hd)
      · exact nomatch h
    · exact first_mem b d hpos hd (by simpa using h)

theorem decodeFrom_nil_mem (s : State) (d : Char) : some d ∉ decodeFrom s [] := by
  cases s <;> simp [decodeFrom]

def run : State → List UInt8 → Output × State
  | s, [] => ([], s)
  | s, b :: bytes =>
      let r := run (step s b.toNat).2 bytes
      ((step s b.toNat).1 ++ r.1, r.2)

theorem run_sound (s : State) (hs : s.Sound) (bytes : List UInt8) : (run s bytes).2.Sound := by
  induction bytes generalizing s with
  | nil => exact hs
  | cons b bytes ih => exact ih _ (step_sound s hs b.toNat)

theorem decodeFrom_append (s : State) (xs ys : List UInt8) :
    decodeFrom s (xs ++ ys) = (run s xs).1 ++ decodeFrom (run s xs).2 ys := by
  induction xs generalizing s with
  | nil => rfl
  | cons b xs ih => rw [List.cons_append, decodeFrom_cons, ih, run, List.append_assoc]

/-- The bytes on the two sides of an ASCII byte are decoded apart. -/
theorem decodeLossy_ascii (xs ys : List UInt8) (b : UInt8) (hb : b.toNat < 0x80) :
    decodeLossy (xs ++ b :: ys) = decodeLossy xs ++ Char.ofNat b.toNat :: decodeLossy ys := by
  have hstate := run_sound .ground trivial xs
  have hleft := decodeFrom_append .ground xs []
  rw [List.append_nil] at hleft
  rw [decodeLossy, decode, decodeFrom_append, decodeFrom_ascii _ hstate b hb, ← List.append_assoc,
    ← hleft, List.map_append]
  rfl

theorem decodeFrom_mem (s : State) (hs : s.Sound) (bytes : List UInt8) (d : Char)
    (hpos : 0 < d.toNat) (hd : d.toNat < 0x80) (h : some d ∈ decodeFrom s bytes) :
    ∃ b ∈ bytes, b.toNat = d.toNat := by
  induction bytes generalizing s with
  | nil => exact absurd h (decodeFrom_nil_mem s d)
  | cons b bytes ih =>
    rw [decodeFrom_cons, List.mem_append] at h
    rcases h with h | h
    · exact ⟨b, by simp, step_mem s hs b.toNat d hpos hd h⟩
    · obtain ⟨b', hb', heq⟩ := ih _ (step_sound s hs b.toNat) h
      exact ⟨b', by simp [hb'], heq⟩

/-- A byte is written at once, or it opens or goes on with a sequence. -/
theorem step_progress (s : State) (b : Nat) (h : (step s b).1 = []) : (step s b).2 ≠ .ground := by
  have hfirst : (first b).1 = [] → (first b).2 ≠ .ground := by
    unfold first
    repeat' split
    all_goals simp
  cases s with
  | ground => exact hfirst h
  | inside left low high value =>
    rw [step] at h ⊢
    split at h
    · split at h
      · exact nomatch h
      · next hb hleft => simp [hb, hleft]
    · exact nomatch h

theorem decodeFrom_single_ne_nil (s : State) (b : UInt8) : decodeFrom s [b] ≠ [] := by
  intro hnil
  rw [decodeFrom_cons, List.append_eq_nil_iff] at hnil
  have hstate := step_progress s b.toNat hnil.1
  cases hs : (step s b.toNat).2 with
  | ground => exact hstate hs
  | inside left low high value => simp [hs, decodeFrom] at hnil

theorem decodeLossy_concat (xs : List UInt8) (b : UInt8) :
    ∃ s ys, s.Sound ∧ decodeLossy (xs ++ [b]) = ys ++ (decodeFrom s [b]).map (·.getD '\uFFFD') := by
  refine ⟨(run .ground xs).2, (run .ground xs).1.map (·.getD '\uFFFD'),
    run_sound .ground trivial xs, ?_⟩
  rw [decodeLossy, decode, decodeFrom_append, List.map_append]

theorem decodeLossy_ne_nil (bytes : List UInt8) (h : bytes ≠ []) : decodeLossy bytes ≠ [] := by
  obtain ⟨xs, b, hbytes⟩ := (List.eq_nil_or_concat bytes).resolve_left h
  obtain ⟨s, ys, -, htext⟩ := decodeLossy_concat xs b
  rw [hbytes, List.concat_eq_append, htext]
  simp [decodeFrom_single_ne_nil]

theorem some_mem_of_getD (out : Output) (d : Char) (hd : d.toNat < 0x80)
    (h : d ∈ out.map (·.getD '\uFFFD')) : some d ∈ out := by
  obtain ⟨o, ho, heq⟩ := List.mem_map.1 h
  cases o with
  | none =>
    have hd' : '\uFFFD' = d := heq
    rw [← hd'] at hd
    exact absurd hd (by decide)
  | some c =>
    have hc : c = d := heq
    exact hc ▸ ho

theorem mem_of_mem_decodeLossy (bytes : List UInt8) (d : Char) (hpos : 0 < d.toNat)
    (hd : d.toNat < 0x80) (h : d ∈ decodeLossy bytes) : ∃ b ∈ bytes, b.toNat = d.toNat :=
  decodeFrom_mem .ground trivial bytes d hpos hd (some_mem_of_getD _ d hd h)

/-- A text ends in an ASCII character only if the last byte is that character. -/
theorem decodeLossy_last (xs : List UInt8) (b : UInt8) (d : Char) (hpos : 0 < d.toNat)
    (hd : d.toNat < 0x80) (h : (decodeLossy (xs ++ [b])).getLast? = some d) :
    b.toNat = d.toNat := by
  obtain ⟨s, ys, hs, htext⟩ := decodeLossy_concat xs b
  have hsome : ((decodeFrom s [b]).map (·.getD '\uFFFD')).getLast?.isSome = true := by
    simp [decodeFrom_single_ne_nil]
  rw [htext, List.getLast?_append, Option.or_of_isSome hsome] at h
  have hmem := some_mem_of_getD _ d hd (List.mem_of_getLast? h)
  obtain ⟨b', hb', heq⟩ := decodeFrom_mem s hs [b] d hpos hd hmem
  rwa [List.mem_singleton.1 hb'] at heq

end Utf8

namespace Text

def dropReturn (line : Line) : Line := if line.getLast? = some '\r' then line.dropLast else line

theorem dropReturn_concat (line : Line) : dropReturn (line ++ ['\r']) = line := by
  simp [dropReturn]

theorem dropReturn_cons (c : Char) (line : Line) (h : line ≠ []) :
    dropReturn (c :: line) = c :: dropReturn line := by
  unfold dropReturn
  rw [List.getLast?_cons_of_ne_nil h, List.dropLast_cons_of_ne_nil h]
  split <;> rfl

theorem lines_cons (c : Char) (rest : List Char) (hc : c ≠ '\n')
    (hrest : c = '\r' → rest.head? ≠ some '\n') : lines (c :: rest) = consFirst c (lines rest) := by
  rw [lines]
  · exact hc
  · intro more hcr hmore
    exact hrest hcr (by rw [hmore]; rfl)

theorem lines_line (line : Line) (h : '\n' ∉ line) (rest : List Char) :
    lines (line ++ '\n' :: rest) = dropReturn line :: lines rest := by
  induction line with
  | nil => rfl
  | cons c line ih =>
    have hc : c ≠ '\n' := fun heq => h (by simp [heq])
    have hline : '\n' ∉ line := fun hmem => h (by simp [hmem])
    by_cases hlast : c = '\r' ∧ line = []
    · rw [hlast.1, hlast.2]
      rfl
    · have hhead : c = '\r' → (line ++ '\n' :: rest).head? ≠ some '\n' := by
        intro hcr
        cases line with
        | nil => exact absurd ⟨hcr, rfl⟩ hlast
        | cons d line =>
          have hd : d ≠ '\n' := fun heq => hline (by simp [heq])
          simpa using hd
      rw [List.cons_append, lines_cons c _ hc hhead, ih hline, consFirst]
      cases line with
      | nil =>
        have hcr : c ≠ '\r' := fun heq => hlast ⟨heq, rfl⟩
        simp [dropReturn, hcr]
      | cons d line => rw [dropReturn_cons c (d :: line) (by simp)]

theorem lines_last (line : Line) (h : '\n' ∉ line) (hne : line ≠ []) : lines line = [line] := by
  induction line with
  | nil => exact absurd rfl hne
  | cons c line ih =>
    have hc : c ≠ '\n' := fun heq => h (by simp [heq])
    have hline : '\n' ∉ line := fun hmem => h (by simp [hmem])
    have hhead : c = '\r' → line.head? ≠ some '\n' := fun _ hhead =>
      hline (List.mem_of_mem_head? hhead)
    rw [lines_cons c line hc hhead]
    cases line with
    | nil => rfl
    | cons d line => rw [ih hline (by simp), consFirst]

end Text

/-- A file is a last line without a newline, or a line and a newline before the rest of it. -/
theorem newline_induction {motive : List UInt8 → Prop}
    (last : ∀ xs, 10 ∉ xs → motive xs)
    (line : ∀ xs ys, 10 ∉ xs → motive ys → motive (xs ++ 10 :: ys)) (bytes : List UInt8) :
    motive bytes := by
  induction hn : bytes.length using Nat.strongRecOn generalizing bytes with
  | ind n ih =>
    by_cases h : 10 ∈ bytes
    · obtain ⟨xs, ys, rfl, hxs⟩ := List.eq_append_cons_of_mem h
      have hlen : ys.length < n := by
        rw [← hn, List.length_append, List.length_cons]
        omega
      exact line xs ys hxs (ih ys.length hlen ys rfl)
    · exact last bytes h

theorem newline_not_mem_decodeLossy (bytes : List UInt8) (h : 10 ∉ bytes) :
    '\n' ∉ Utf8.decodeLossy bytes := by
  intro hmem
  obtain ⟨b, hb, heq⟩ := Utf8.mem_of_mem_decodeLossy bytes '\n' (by decide) (by decide) hmem
  exact h (UInt8.toNat_inj.1 (show b.toNat = (10 : UInt8).toNat from heq) ▸ hb)

theorem sourceLines_line (xs ys : List UInt8) (h : 10 ∉ xs) :
    sourceLines (xs ++ 10 :: ys) =
      Text.dropReturn (Utf8.decodeLossy xs) :: sourceLines ys := by
  rw [sourceLines, Utf8.decodeLossy_ascii xs ys 10 (by decide)]
  exact Text.lines_line _ (newline_not_mem_decodeLossy xs h) _

theorem dropReturn_decodeLossy (xs : List UInt8) (h : xs.getLast? ≠ some 13) :
    Text.dropReturn (Utf8.decodeLossy xs) = Utf8.decodeLossy xs := by
  refine if_neg fun hlast => ?_
  rcases List.eq_nil_or_concat xs with rfl | ⟨zs, b, rfl⟩
  · exact nomatch hlast
  · rw [List.concat_eq_append] at h hlast
    have heq := Utf8.decodeLossy_last zs b '\r' (by decide) (by decide) hlast
    have hb : b = 13 := UInt8.toNat_inj.1 (show b.toNat = (13 : UInt8).toNat from heq)
    exact h (by simp [hb])

theorem dropReturn_decodeLossy_return (xs : List UInt8) :
    Text.dropReturn (Utf8.decodeLossy (xs ++ [13])) = Utf8.decodeLossy xs := by
  rw [Utf8.decodeLossy_ascii xs [] 13 (by decide)]
  exact Text.dropReturn_concat _

/-- A carriage return before every newline that none precedes; `before` is the byte before
the text. -/
def withReturnsAfter : Option UInt8 → List UInt8 → List UInt8
  | _, [] => []
  | before, b :: rest =>
      (if b = 10 ∧ before ≠ some 13 then [13, 10] else [b]) ++ withReturnsAfter (some b) rest

def withReturns (bytes : List UInt8) : List UInt8 := withReturnsAfter none bytes

theorem withReturnsAfter_line (before : Option UInt8) (xs ys : List UInt8) (h : 10 ∉ xs) :
    withReturnsAfter before (xs ++ 10 :: ys) =
      xs ++ ((if xs.getLast?.or before = some 13 then [10] else [13, 10]) ++
        withReturnsAfter (some 10) ys) := by
  induction xs generalizing before with
  | nil =>
    rw [List.nil_append, withReturnsAfter]
    by_cases hb : before = some 13 <;> simp [hb]
  | cons b xs ih =>
    have hb : b ≠ 10 := fun heq => h (by simp [heq])
    have hlast : (b :: xs).getLast?.or before = xs.getLast?.or (some b) := by
      cases xs with
      | nil => rfl
      | cons c xs => simp [List.getLast?_cons]
    rw [List.cons_append, withReturnsAfter, if_neg fun hand => hb hand.1,
      ih _ fun hmem => h (by simp [hmem]), hlast]
    rfl

theorem withReturnsAfter_last (before : Option UInt8) (xs : List UInt8) (h : 10 ∉ xs) :
    withReturnsAfter before xs = xs := by
  induction xs generalizing before with
  | nil => rfl
  | cons b xs ih =>
    have hb : b ≠ 10 := fun heq => h (by simp [heq])
    rw [withReturnsAfter, if_neg fun hand => hb hand.1, ih _ fun hmem => h (by simp [hmem])]
    rfl

theorem sourceLines_withReturnsAfter (bytes : List UInt8) :
    ∀ before, before ≠ some 13 →
      sourceLines (withReturnsAfter before bytes) = sourceLines bytes := by
  induction bytes using newline_induction with
  | last xs hxs =>
    intro before _
    rw [withReturnsAfter_last before xs hxs]
  | line xs ys hxs ih =>
    intro before hbefore
    have hrest := ih (some 10) (by decide)
    rw [withReturnsAfter_line before xs ys hxs]
    by_cases hcr : xs.getLast? = some 13
    · rw [hcr, Option.some_or, if_pos rfl, List.singleton_append, sourceLines_line xs _ hxs, hrest,
        sourceLines_line xs ys hxs]
    · have hnone : xs.getLast?.or before ≠ some 13 := by
        cases hx : xs.getLast? with
        | none => exact hbefore
        | some b => rwa [hx] at hcr
      have hxs' : 10 ∉ xs ++ [13] := by
        rw [List.mem_append, not_or]
        exact ⟨hxs, by decide⟩
      have hline := sourceLines_line (xs ++ [13]) (withReturnsAfter (some 10) ys) hxs'
      rw [List.append_assoc, List.singleton_append, dropReturn_decodeLossy_return, hrest] at hline
      rw [if_neg hnone, sourceLines_line xs ys hxs, dropReturn_decodeLossy xs hcr]
      exact hline

theorem sourceLines_final_newline (bytes : List UInt8) :
    ∀ b, bytes.getLast? = some b → b ≠ 10 → b ≠ 13 →
      sourceLines (bytes ++ [10]) = sourceLines bytes := by
  induction bytes using newline_induction with
  | last xs hxs =>
    intro b hb _ hcr
    have hne : xs ≠ [] := by
      rintro rfl
      exact nomatch hb
    have hlast : xs.getLast? ≠ some 13 := by
      rw [hb]
      simpa using hcr
    have hsingle : sourceLines xs = [Utf8.decodeLossy xs] :=
      Text.lines_last _ (newline_not_mem_decodeLossy xs hxs) (Utf8.decodeLossy_ne_nil xs hne)
    rw [sourceLines_line xs [] hxs, dropReturn_decodeLossy xs hlast, hsingle]
    rfl
  | line xs ys hxs ih =>
    intro b hb hlf hcr
    have hlast : ys.getLast? = some b := by
      cases ys with
      | nil =>
        have heq : (10 : UInt8) = b := by simpa using hb
        exact absurd heq.symm hlf
      | cons c ys => simpa using hb
    rw [List.append_assoc, List.cons_append, sourceLines_line xs _ hxs, ih b hlast hlf hcr,
      sourceLines_line xs ys hxs]

/-- A conversion writes the same text and the same count whichever of the two line endings a
file has, and whether or not its last line is ended. -/
theorem line_endings_do_not_matter (c : Conversion) (bytes : List UInt8) :
    c.convertBytes (withReturns bytes) = c.convertBytes bytes ∧
      ∀ b, bytes.getLast? = some b → b ≠ 10 → b ≠ 13 →
        c.convertBytes (bytes ++ [10]) = c.convertBytes bytes := by
  have hcongr : ∀ bytes', sourceLines bytes' = sourceLines bytes →
      c.convertBytes bytes' = c.convertBytes bytes := by
    intro bytes' h
    rw [Conversion.convertBytes, h]
    rfl
  constructor
  · exact hcongr _ (sourceLines_withReturnsAfter bytes none (by decide))
  · intro b hb hlf hcr
    exact hcongr _ (sourceLines_final_newline bytes b hb hlf hcr)

/-- Sequences that break off before a newline, before a return and at the end of the file. -/
theorem broken_sequences_endings :
    let c := Conversion.ofMode .general
    let bytes := [0x63, 0xE2, 0x82, 10, 0xF0, 13, 10, 0x78, 0xE9]
    withReturns bytes = [0x63, 0xE2, 0x82, 13, 10, 0xF0, 13, 10, 0x78, 0xE9] ∧
      c.convertBytes bytes = (3, "c\uFFFD\n\uFFFD\nx\uFFFD\n".toList) ∧
      c.convertBytes (withReturns bytes) = c.convertBytes bytes ∧
      bytes.getLast? = some 0xE9 ∧ c.convertBytes (bytes ++ [10]) = c.convertBytes bytes := by
  intro c bytes
  obtain ⟨hreturns, hnewline⟩ := line_endings_do_not_matter c bytes
  refine ⟨by decide, by decide +kernel, hreturns, rfl, ?_⟩
  exact hnewline 0xE9 rfl (by decide) (by decide)

end JvsSharp
