import JvsSharp.Rules.Container
import JvsSharp.Rules.Primitive
import JvsSharp.Text.Trim

/-!
# Elided type arguments

An assignment `this.items = new ArrayList<>()` carries no element type. The
type is found in a declaration of `items` anywhere in the file, so an index of
all declarations is built before any line is converted.
-/

set_option autoImplicit false

namespace JvsSharp

structure Binding where
  container : String
  elementTypes : Line
  deriving DecidableEq, Repr

abbrev Index := List (Line × Binding)

namespace Index

def get? (index : Index) (name : Line) : Option Binding := index.lookup name

def insertNew (index : Index) (d : Line × Binding) : Index :=
  if (index.get? d.1).isSome then index else index ++ [d]

open Pattern

def declaration (s : ContainerShape) : Pattern :=
  all [.edge, lit s.source, s.arguments, space, .group 3 word, gap, ";"]

def elementTypes (s : ContainerShape) (h : Hit) : Line :=
  let type i := Rules.primitiveTypes (Text.trim (h.group i))
  if s.mapLike then type 1 ++ ", ".toList ++ type 2 else type 1

def declarationsOf (line : Line) (s : ContainerShape) : List (Line × Binding) :=
  ((declaration s).hits line).map fun h => (h.group 3, ⟨s.target, elementTypes s h⟩)

def declarations (line : Line) : List (Line × Binding) :=
  ContainerShape.known.flatMap (declarationsOf line)

def build (lines : List Line) : Index := (lines.flatMap declarations).foldl insertNew []

end Index

namespace Rules
open Pattern

def elidedAssignment : Pattern :=
  all ["this.", .group 1 word, gap, "=", gap, "new", space, word, gap, "<", gap, ">", gap, "(",
    gap, ")"]

def diamondInference (index : Index) (line : Line) : Line :=
  elidedAssignment.replaceAll
    (fun h =>
      match index.get? (h.group 1) with
      | some b =>
          "this.".toList ++ h.group 1 ++ " = new ".toList ++ b.container.toList ++ '<' ::
            b.elementTypes ++ ">()".toList
      | none => h.text)
    line

end Rules

end JvsSharp
