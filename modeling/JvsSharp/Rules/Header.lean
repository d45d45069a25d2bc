import JvsSharp.Pattern.Edit
import JvsSharp.Text.Trim
import JvsSharp.Casing

/-!
# Headers of files and types

Packages, imports, the names and bases of types, and the entry point.
-/

set_option autoImplicit false

namespace JvsSharp.Rules
open Pattern

def packageLine : Edit where
  pattern := all
    ["package", space,
      .group 1 (chars (.union .lower (.union .digit (.oneOf ['_', '.'])))), ";"]
  template := ["namespace ", .mapped Casing.pascalPath 1, " \x7b"]

def namespaceHeader (line : Line) : Line := packageLine.apply line

def otherImport : Edit := ⟨all ["import ", stretch .inLine, ";"], []⟩

def importEdits : List Edit :=
  [⟨all ["import java.", anyOf ["util", "time", "math", "lang"], ".", .run .inLine, ";"],
      ["using System;"]⟩,
   ⟨all ["import java.io.", .run .inLine, ";"], ["using System.IO;"]⟩,
   ⟨all ["import java.sql.", .run .inLine, ";"], ["using System.Data;"]⟩,
   otherImport]

def imports (line : Line) : Line := Edit.applyAll importEdits line

def stripImports (line : Line) : Line :=
  if "import ".toList.isPrefixOf (Text.trimStart line) then [] else line

def implementsSeparator (line : Line) : Line :=
  if (lit "extends").occursIn line && (lit "implements").occursIn line then [','] else [':']

def inheritance (line : Line) : Line :=
  Edit.applyAll
    [⟨wholeWord "extends", [":"]⟩, ⟨wholeWord "implements", [.text (implementsSeparator line)]⟩]
    line

def typeName : Pattern :=
  all [.one (.union .lower (.union .upper (.only '_'))), .span .word]

def typeNameEdits : List Edit :=
  [⟨all [.edge, "class", space, .group 1 typeName], ["class ", .mapped Casing.pascal 1]⟩,
   ⟨all [.edge, "interface", space, .group 1 typeName],
      ["interface I", .mapped Casing.pascal 1]⟩]

def typeNames (line : Line) : Line := Edit.applyAll typeNameEdits line

def entryPoint : Edit where
  pattern := all
    ["public static void main", gap, "(", gap, .one (.oneOf ['S', 's']), "tring[]", gap, "args",
      gap, ")"]
  template := ["public static void Main(string[] args)"]

def mainSignature (line : Line) : Line := entryPoint.apply line

end JvsSharp.Rules
