import JvsSharp.Proofs.Triggers
import JvsSharp.Proofs.TypeArguments

/-!
# Declarations and assignments of container fields

A field of a container type is declared on one line and may be created on
another one. Both lines have a fixed form around the container, its element
types and the name, so their outlines are known and their words can be mapped
one by one.
-/

set_option autoImplicit false

namespace JvsSharp
open Pattern (AreWords areWords_of_all)

def reservedWords : List String :=
  ["abstract", "assert", "boolean", "break", "byte", "case", "catch", "char", "class", "const",
   "continue", "default", "do", "double", "else", "enum", "extends", "final", "finally", "float",
   "for", "goto", "if", "implements", "import", "instanceof", "int", "interface", "long", "native",
   "new", "package", "private", "protected", "public", "return", "short", "static", "strictfp",
   "super", "switch", "synchronized", "this", "throw", "throws", "transient", "try", "void",
   "volatile", "while", "true", "false", "null"]

def IsReserved (w : Line) : Prop := w ∈ reservedWords.map String.toList

def alnum : CharClass := .union .lower (.union .upper .digit)

abbrev AsciiWord := { w : Line // w ≠ [] ∧ ∀ c ∈ w, alnum.mem c = true }

theorem AsciiWord.isWordText (w : AsciiWord) : IsWordText w.1 := fun c hc =>
  CharClass.isWord_of_inWord alnum (by decide) c (w.2.2 c hc)

theorem AsciiWord.stops_blank (w : AsciiWord) : Pattern.Stops .blank w.1 := by
  have hstop := ContainerShape.stops_blank_word w.1 [] w.2.1 w.isWordText
  rwa [List.append_nil] at hstop

def AsciiWord.keyword (w : AsciiWord) : AsciiWord :=
  ⟨Rules.primitiveKeyword w.1, by
    have hkeywords : ∀ p ∈ Rules.primitives,
        p.2.toList ≠ [] ∧ ∀ c ∈ p.2.toList, alnum.mem c = true := by decide
    rw [Rules.primitiveKeyword]
    split
    · next p hp => exact hkeywords p (List.mem_of_find?_eq_some hp)
    · exact w.2⟩

structure Identifier where
  text : Line
  form : ∃ c rest, text = c :: rest ∧ c.isLower = true ∧ ∀ d ∈ rest, alnum.mem d = true
  free : ¬IsReserved text

namespace Identifier

theorem ne (n : Identifier) : n.text ≠ [] := by
  obtain ⟨c, rest, h, -, -⟩ := n.form
  simp [h]

theorem ascii (n : Identifier) : ∀ c ∈ n.text, alnum.mem c = true := by
  obtain ⟨c, rest, h, hc, hrest⟩ := n.form
  intro d hd
  rw [h] at hd
  rcases List.mem_cons.1 hd with rfl | hd
  · simp [alnum, CharClass.mem, hc]
  · exact hrest d hd

theorem isWordText (n : Identifier) : IsWordText n.text :=
  AsciiWord.isWordText ⟨n.text, n.ne, n.ascii⟩

end Identifier

inductive Elements where
  | one (type : AsciiWord)
  | two (key : AsciiWord) (gap : Blanks) (value : AsciiWord)

namespace Elements

def isPair : Elements → Bool
  | .one _ => false
  | .two _ _ _ => true

def names : Elements → List Line
  | .one type => [type.1]
  | .two key _ value => [key.1, value.1]

def textWith (f : Line → Line) : Elements → Line
  | .one type => f type.1
  | .two key gap value => f key.1 ++ ',' :: (gap.1 ++ f value.1)

def text (e : Elements) : Line := e.textWith id

def keywords : Elements → Elements
  | .one type => .one type.keyword
  | .two key gap value => .two key.keyword gap value.keyword

def spaced : Elements → Elements
  | .one type => .one type
  | .two key _ value => .two key ⟨[' '], blank_space⟩ value

theorem keywords_text (e : Elements) :
    e.keywords.text = e.textWith Rules.primitiveKeyword := by
  cases e with
  | one type => rfl
  | two key gap value => rfl

theorem textWith_eq_text (f : Line → Line) (e : Elements) (h : ∀ w ∈ e.names, f w = w) :
    e.textWith f = e.text := by
  cases e with
  | one type => exact h type.1 (by simp [names])
  | two key gap value =>
    rw [text, textWith, textWith, h key.1 (by simp [names]), h value.1 (by simp [names])]
    rfl

theorem isPair_keywords (e : Elements) : e.keywords.isPair = e.isPair := by
  cases e with
  | one _ => rfl
  | two _ _ _ => rfl

theorem isPair_spaced (e : Elements) : e.spaced.isPair = e.isPair := by
  cases e with
  | one _ => rfl
  | two _ _ _ => rfl

theorem names_spaced (e : Elements) : e.spaced.names = e.names := by
  cases e with
  | one _ => rfl
  | two _ _ _ => rfl

theorem names_keywords (e : Elements) :
    e.keywords.names = e.names.map Rules.primitiveKeyword := by
  cases e with
  | one _ => rfl
  | two _ _ _ => rfl

theorem mapWords_text (f : Line → Line) (e : Elements) (c : Char) (rest : Line)
    (hc : Unicode.isWord c = false) :
    mapWords f (e.text ++ c :: rest) = e.textWith f ++ c :: mapWords f rest := by
  cases e with
  | one type => exact mapWords_word f type.1 c rest type.2.1 type.isWordText hc
  | two key gap value =>
    have hgap : ∀ c ∈ gap.1, Unicode.isWord c = false := fun c hc =>
      Unicode.isWord_of_isBlank c (gap.2 c hc)
    simp only [text, textWith, id, List.append_assoc, List.cons_append]
    rw [mapWords_word f key.1 ',' _ key.2.1 key.isWordText (by decide),
      mapWords_others f gap.1 _ hgap,
      mapWords_word f value.1 c rest value.2.1 value.isWordText hc]

def parts (e : Elements) (s : ContainerShape) (h : e.isPair = s.mapLike) : s.Parts :=
  match e with
  | .one type =>
      { first := type.1, gap := [], second := []
        first_ne := type.2.1
        first_type := fun c hc => ContainerShape.typeText_word c (type.isWordText c hc)
        gap_blank := blank_nil
        second_ne := fun hs => nomatch h.trans hs
        second_type := by simp
        second_start := rfl }
  | .two key gap value =>
      { first := key.1, gap := gap.1, second := value.1
        first_ne := key.2.1
        first_type := fun c hc => ContainerShape.typeText_word c (key.isWordText c hc)
        gap_blank := gap.2
        second_ne := fun _ => value.2.1
        second_type := fun c hc => ContainerShape.plain_word c (value.isWordText c hc)
        second_start := value.stops_blank }

theorem parts_text (e : Elements) (s : ContainerShape) (h : e.isPair = s.mapLike) :
    (e.parts s h).text = e.text := by
  cases e with
  | one type => simp [parts, ContainerShape.Parts.text, ← h, isPair, text, textWith]
  | two key gap value => simp [parts, ContainerShape.Parts.text, ← h, isPair, text, textWith]

theorem parts_written (e : Elements) (s : ContainerShape) (h : e.isPair = s.mapLike) :
    (e.parts s h).written = e.spaced.text := by
  cases e with
  | one type => simp [parts, ContainerShape.Parts.written, ← h, isPair, text, textWith, spaced]
  | two key gap value =>
    simp [parts, ContainerShape.Parts.written, ← h, isPair, text, textWith, spaced]

theorem trim_word (w : Line) (h : IsWordText w) : Text.trim w = w := by
  have hstart : ∀ v, IsWordText v → Text.trimStart v = v := by
    intro v hv
    cases v with
    | nil => rfl
    | cons c v =>
      have hstop := ContainerShape.stops_blank_word (c :: v) [] (by simp) hv
      have hc : Unicode.isBlank c = false := hstop
      rw [Text.trimStart, List.dropWhile_cons, hc]
      rfl
  have hreverse : IsWordText w.reverse := fun c hc => h c (List.mem_reverse.1 hc)
  rw [Text.trim, hstart w h, Text.trimEnd, hstart _ hreverse, List.reverse_reverse]

theorem type_of_word (w : AsciiWord) :
    Rules.primitiveTypes (Text.trim w.1) = Rules.primitiveKeyword w.1 := by
  have hmap := mapWords_run Rules.primitiveKeyword w.1 [] w.isWordText rfl
  rw [List.append_nil, flush, if_neg w.2.1, mapWords_nil, List.append_nil] at hmap
  rw [trim_word w.1 w.isWordText, Rules.primitiveTypes_eq, hmap]

/-- The types that the index keeps are those that the declaration is given. -/
theorem parts_types (e : Elements) (s : ContainerShape) (h : e.isPair = s.mapLike) :
    (e.parts s h).types = e.keywords.spaced.text := by
  cases e with
  | one type =>
    simp [parts, ContainerShape.Parts.types, ← h, isPair, type_of_word, keywords, spaced, text,
      textWith, AsciiWord.keyword]
  | two key gap value =>
    simp [parts, ContainerShape.Parts.types, ← h, isPair, type_of_word, keywords, spaced, text,
      textWith, AsciiWord.keyword]

end Elements

structure Field where
  indent : Blanks
  modifier : String
  modifier_mem : modifier ∈ ["", "private ", "protected "]
  shape : ContainerShape
  shape_known : shape ∈ ContainerShape.known
  elements : Elements
  arity : elements.isPair = shape.mapLike
  elements_free : ∀ w ∈ elements.names, ¬IsReserved w
  name : Line
  name_form : ∃ c rest, name = c :: rest ∧ c.isLower = true ∧ ∀ d ∈ rest, alnum.mem d = true
  name_free : ¬IsReserved name

def fieldLine (pre container types name : Line) : Line :=
  pre ++ ContainerShape.generic container types (' ' :: name ++ [';'])

def newLine (indent name container types : Line) : Line :=
  indent ++ ("this.".toList ++ (name ++ (" = ".toList ++
    ContainerShape.creation container types [';'])))

namespace Field

def opening (f : Field) : Line := f.indent.1 ++ f.modifier.toList

def declaration (f : Field) : Line :=
  fieldLine f.opening f.shape.source.toList f.elements.text f.name

def types (f : Field) : Line := f.elements.keywords.spaced.text

def declared (f : Field) : Line := fieldLine f.opening f.shape.target.toList f.types f.name

def assignment (f : Field) (indent : Blanks) (container : Word) : Line :=
  newLine indent.1 f.name container.1 []

def assigned (f : Field) (indent : Blanks) : Line :=
  newLine indent.1 f.name f.shape.target.toList f.types

def identifier (f : Field) : Identifier := ⟨f.name, f.name_form, f.name_free⟩

theorem name_ne (f : Field) : f.name ≠ [] := f.identifier.ne

theorem name_word (f : Field) : IsWordText f.name := f.identifier.isWordText

end Field

theorem mapWords_generic (f : Line → Line) (container : Line) (hne : container ≠ [])
    (hw : IsWordText container) (e : Elements) (after : Line) :
    mapWords f (ContainerShape.generic container e.text after) =
      ContainerShape.generic (f container) (e.textWith f) (mapWords f after) := by
  rw [ContainerShape.generic, mapWords_word f container '<' _ hne hw (by decide),
    e.mapWords_text f '>' after (by decide), ContainerShape.generic]

theorem mapWords_modifier (f : Line → Line) (modifier : String)
    (hmem : modifier ∈ ["", "private ", "protected "])
    (hf : ∀ w ∈ ["private".toList, "protected".toList], f w = w) (rest : Line) :
    mapWords f (modifier.toList ++ rest) = modifier.toList ++ mapWords f rest := by
  have hword : ∀ w ∈ ["private".toList, "protected".toList],
      mapWords f (w ++ ' ' :: rest) = w ++ ' ' :: mapWords f rest := by
    intro w hw
    have hwords : AreWords ["private".toList, "protected".toList] :=
      areWords_of_all _ (by decide)
    rw [mapWords_word f w ' ' rest (hwords w hw).1 (hwords w hw).2 (by decide), hf w hw]
  simp only [List.mem_cons, List.not_mem_nil, or_false] at hmem
  rcases hmem with rfl | rfl | rfl
  · rfl
  · exact hword "private".toList (by simp)
  · exact hword "protected".toList (by simp)

theorem mapWords_fieldLine (f : Line → Line) (indent : Blanks) (modifier : String)
    (hmem : modifier ∈ ["", "private ", "protected "])
    (hf : ∀ w ∈ ["private".toList, "protected".toList], f w = w) (container : Line)
    (hne : container ≠ []) (hw : IsWordText container) (e : Elements) (name : Line)
    (hname : name ≠ []) (hname' : IsWordText name) :
    mapWords f (fieldLine (indent.1 ++ modifier.toList) container e.text name) =
      fieldLine (indent.1 ++ modifier.toList) (f container) (e.textWith f) (f name) := by
  have hindent : ∀ c ∈ indent.1, Unicode.isWord c = false := fun c hc =>
    Unicode.isWord_of_isBlank c (indent.2 c hc)
  have hend : mapWords f (' ' :: name ++ [';']) = ' ' :: f name ++ [';'] := by
    rw [List.cons_append, mapWords_other f ' ' _ (by decide),
      mapWords_word f name ';' [] hname hname' (by decide)]
    rfl
  rw [fieldLine, List.append_assoc, mapWords_others f indent.1 _ hindent,
    mapWords_modifier f modifier hmem hf, mapWords_generic f container hne hw, hend, fieldLine,
    List.append_assoc]

theorem mapWords_newLine (f : Line → Line) (hf : ∀ w ∈ ["this".toList, "new".toList], f w = w)
    (indent : Blanks) (name : Line) (hname : name ≠ []) (hname' : IsWordText name)
    (container : Line) (hne : container ≠ []) (hw : IsWordText container) (e : Elements) :
    mapWords f (newLine indent.1 name container e.text) =
      newLine indent.1 (f name) (f container) (e.textWith f) := by
  have hindent : ∀ c ∈ indent.1, Unicode.isWord c = false := fun c hc =>
    Unicode.isWord_of_isBlank c (indent.2 c hc)
  have hword : ∀ w ∈ ["this".toList, "new".toList], ∀ c rest, Unicode.isWord c = false →
      mapWords f (w ++ c :: rest) = w ++ c :: mapWords f rest := by
    intro w hw c rest hc
    have hwords : AreWords ["this".toList, "new".toList] := areWords_of_all _ (by decide)
    rw [mapWords_word f w c rest (hwords w hw).1 (hwords w hw).2 hc, hf w hw]
  have hthis : ∀ rest, mapWords f ("this.".toList ++ rest) = "this.".toList ++ mapWords f rest :=
    fun rest => hword "this".toList (by simp) '.' rest (by decide)
  have hequals : ∀ rest, mapWords f (name ++ (" = ".toList ++ rest)) =
      f name ++ (" = ".toList ++ mapWords f rest) := by
    intro rest
    have hspace := mapWords_word f name ' ' ("= ".toList ++ rest) hname hname' (by decide)
    have hrest := mapWords_others f "= ".toList rest (by decide)
    rw [hrest] at hspace
    exact hspace
  have hend : mapWords f ['(', ')', ';'] = ['(', ')', ';'] :=
    mapWords_others f ['(', ')', ';'] [] (by decide)
  have hnew : mapWords f (ContainerShape.creation container e.text [';']) =
      ContainerShape.creation (f container) (e.textWith f) [';'] := by
    rw [ContainerShape.creation, hword "new".toList (by simp) ' ' _ (by decide),
      mapWords_generic f container hne hw, hend, ContainerShape.creation]
  rw [newLine, mapWords_others f indent.1 _ hindent, hthis, hequals, hnew, newLine]

end JvsSharp
