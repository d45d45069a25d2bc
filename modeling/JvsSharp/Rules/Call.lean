import JvsSharp.Rules.Header
import JvsSharp.Rules.Member

/-!
# Calls

Calls on a receiver and bare calls are cased by different rules: the first
capitalize one letter, the second every segment of the name unless it is a
keyword. Calls of collection helpers and of dictionary methods are recognised
by the name of the method, whatever the receiver is.
-/

set_option autoImplicit false

namespace JvsSharp.Rules
open Pattern

def memberCall : Edit where
  pattern := all [.group 1 (wholeWord word), ".", .group 2 memberName, gap, "("]
  template := [1, ".", .mapped Casing.capitalizeFirst 2, "("]

def callCasing (line : Line) : Line := memberCall.apply line

def keywords : List String :=
  ["if", "else", "for", "foreach", "while", "do", "switch", "case", "default", "break",
   "continue", "return", "try", "catch", "finally", "throw", "throws", "public", "private",
   "protected", "static", "final", "void", "int", "long", "float", "double", "boolean", "char",
   "byte", "short", "new", "class", "interface", "enum", "extends", "implements", "import",
   "package", "abstract", "synchronized", "volatile", "const", "goto", "instanceof", "this",
   "super", "namespace", "using", "readonly", "sealed", "var", "out", "ref", "in", "params",
   "get", "set", "add", "remove", "partial", "yield", "lock", "async", "await", "true", "false",
   "null"]

def isKeyword (name : Line) : Bool := keywords.any fun k => k.toList == name.map Char.toLower

def bareCallName (name : Line) : Line :=
  if isKeyword name then name.map Char.toLower else Casing.pascal name

def elseIf : Edit where
  pattern := all [.edge, anyCase "else", space, anyCase "if", .edge]
  template := ["else if"]

def bareCall : Edit where
  pattern := all [.group 1 typeName, .group 2 gap, "("]
  template := [.mapped bareCallName 1, 2, "("]

def isReceiverPart (c : Char) : Bool := c == '.' || Unicode.isNamePart c

def standaloneCalls (line : Line) : Line :=
  bareCall.pattern.replaceUnlessAfter isReceiverPart bareCall.render (elseIf.apply line)

def sortEdit : Edit where
  pattern := all ["Collections.sort(", .group 1 argument, ")"]
  template := [1, ".Sort()"]

def copyEdit : Edit where
  pattern := all
    ["Arrays.copyOf(", .group 1 (chars (.except [','])), ",", slack, .group 2 argument, ")"]
  template := ["Array.Copy(", 1, ", ", 2, ")"]

def utilityEdits : List Edit :=
  [sortEdit, ⟨all ["Arrays.asList(", .group 1 argument, ")"], ["new List<", 1, ">()"]⟩, copyEdit]

def collectionUtilities (line : Line) : Line := Edit.applyAll utilityEdits line

def receiver : Pattern := .group 1 (all [.edge, word])

def callWith (method : String) : Pattern :=
  all [receiver, ".", anyCase method, gap, "(", slack, .group 3 argument, ")"]

def callWithout (method : String) : Pattern :=
  all [receiver, ".", anyCase method, gap, "(", gap, ")"]

def putEdit : Edit where
  pattern := all [receiver, ".", anyCase "put", gap, "(", slack, .group 3 (chars (.except [','])),
    gap, ",", slack, .group 4 argument, ")"]
  template := [1, "[", 3, "] = ", 4]

def getEdit : Edit where
  pattern := callWith "get"
  template := [1, "[", 3, "]"]

def mapEdits : List Edit :=
  [putEdit,
   getEdit,
   ⟨callWith "containsKey", [1, ".ContainsKey(", 3, ")"]⟩,
   ⟨callWith "containsValue", [1, ".ContainsValue(", 3, ")"]⟩,
   ⟨callWith "remove", [1, ".Remove(", 3, ")"]⟩,
   ⟨callWithout "clear", [1, ".Clear()"]⟩,
   ⟨callWithout "keySet", [1, ".Keys"]⟩,
   ⟨callWithout "values", [1, ".Values"]⟩,
   ⟨callWithout "entrySet", [1]⟩]

def mapMethods (line : Line) : Line := Edit.applyAll mapEdits line

end JvsSharp.Rules
