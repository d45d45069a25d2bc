import JvsSharp.Pattern.Edit
import JvsSharp.Rules.Statement
import JvsSharp.Casing

/-!
# Members of types

Names of methods, constants and public fields, and the modifier `final`.
-/

set_option autoImplicit false

namespace JvsSharp.Rules
open Pattern

def memberType : Pattern := all [.one .word, .span (.union .word (.oneOf ['<', '>']))]

def memberName : Pattern := all [.one .lower, .span .word]

def modifier : Pattern :=
  all [.edge,
    anyOf ["public", "private", "protected", "static", "final", "synchronized", "abstract"], space]

/-- The header of a method up to its parenthesis: all before the name, in it the type, then
the name and what follows it. -/
def methodHeader : Pattern :=
  all [.group 1 (all [.edge, .star modifier, .group 2 memberType, space]), .group 3 memberName,
    .group 4 (all [gap, "("])]

/-- Capitalizes the name of a declared method. A name that equals its type is taken for a
constructor and stays. -/
def methodNames (line : Line) : Line :=
  methodHeader.replaceAll
    (fun h =>
      if h.group 2 == h.group 3 then h.text
      else h.group 1 ++ Casing.pascal (h.group 3) ++ h.group 4)
    line

def constantName (name : Line) : Line :=
  if name.contains '_' then Casing.pascal (name.map Char.toLower) else name

def constantWord : Edit where
  pattern := wholeWord
    (.group 1 (all [.one .upper, chars (.union .upper (.union .digit (.only '_')))]))
  template := [.mapped constantName 1]

def constants (line : Line) : Line := constantWord.apply line

def publicField : Edit where
  pattern := all
    ["public", space, .group 1 memberType, space, .group 2 memberName, gap, ";"]
  template := ["public ", 1, " ", .mapped Casing.pascal 2, ";"]

def publicFields (line : Line) : Line := publicField.apply line

def finalClassHeader : Edit where
  pattern := all [.edge, "final", space, "class", .edge]
  template := ["sealed class"]

def finalClass (line : Line) : Line := finalClassHeader.apply line

/-- The type keeps all white space behind it but the last character. -/
def finalFieldHeader : Edit where
  pattern := all
    ["final", space, .group 1 (all [.one .word, .run typeText]), .one .blank,
      .group 2 (all [.one (.union .lower (.union .upper (.only '_'))),
        .span (.union .lower (.union .upper (.union .digit (.only '_'))))]),
      .group 3 (all [gap, .one (.oneOf [';', '='])])]
  template := ["readonly ", 1, " ", 2, 3]

def finalField (line : Line) : Line :=
  finalFieldHeader.pattern.replaceUnlessAfter (fun c => !Unicode.isBlank c)
    finalFieldHeader.render line

end JvsSharp.Rules
