import JvsSharp.Pattern.Edit

/-!
# Primitive and boxed types
-/

set_option autoImplicit false

namespace JvsSharp.Rules
open Pattern

def primitives : List (String × String) :=
  [("boolean", "bool"), ("Boolean", "bool"), ("Integer", "int"), ("Long", "long"),
   ("Float", "float"), ("Double", "double"), ("Character", "char"), ("Byte", "byte"),
   ("Short", "short"), ("String", "string")]

def primitiveKeyword (name : Line) : Line :=
  match primitives.find? fun p => p.1.toList == name with
  | some p => p.2.toList
  | none => name

def primitiveWord : Edit where
  pattern := wholeWord (.group 1 (anyOf (primitives.map fun p => lit p.1)))
  template := [.mapped primitiveKeyword 1]

def primitiveTypes (line : Line) : Line := primitiveWord.apply line

end JvsSharp.Rules
