import JvsSharp.Rules.Statement

/-!
# Generic containers

Nine container shapes are known. Each has a name in the source, a name in the
target, and takes one type argument or a key and a value.
-/

set_option autoImplicit false

namespace JvsSharp

structure ContainerShape where
  source : String
  target : String
  mapLike : Bool
  deriving DecidableEq, Repr

namespace ContainerShape

def known : List ContainerShape :=
  [⟨"ArrayList", "List", false⟩,
   ⟨"LinkedList", "LinkedList", false⟩,
   ⟨"HashMap", "Dictionary", true⟩,
   ⟨"HashSet", "HashSet", false⟩,
   ⟨"TreeMap", "SortedDictionary", true⟩,
   ⟨"Vector", "List", false⟩,
   ⟨"Stack", "Stack", false⟩,
   ⟨"Queue", "Queue", false⟩,
   ⟨"PriorityQueue", "SortedSet", false⟩]

open Pattern

def plainTypeText : CharClass := .union .word (.union .blank (.oneOf ['<', '>']))

/-- The value type of a map. The key takes every comma that leaves something before the last
closing bracket, so only a comma right before that bracket is part of the value. White space
in front of the value is dropped, but for its last character if there is nothing else. -/
def valueType : Pattern :=
  .alt (.seq gap (.group 2 (.alt (.seq (.span plainTypeText) ",") (stretch plainTypeText))))
    (.seq slack (.group 2 (.one .blank)))

def arguments (s : ContainerShape) : Pattern :=
  if s.mapLike then all ["<", .group 1 (stretch Rules.typeText), ",", valueType, ">"]
  else all ["<", .group 1 (stretch Rules.typeText), ">"]

def argumentParts (s : ContainerShape) : List Part :=
  if s.mapLike then ["<", 1, ", ", 2, ">"] else ["<", 1, ">"]

def elided (s : ContainerShape) : Edit where
  pattern := all [.edge, lit s.source, gap, "<", gap, ">"]
  template := []

def declared (s : ContainerShape) : Edit where
  pattern := all [.edge, lit s.source, s.arguments]
  template := .text s.target.toList :: s.argumentParts

def instantiated (s : ContainerShape) : Edit where
  pattern := all ["new", space, lit s.source, s.arguments, gap, "(", gap, ")"]
  template :=
    .text "new ".toList :: .text s.target.toList :: s.argumentParts ++ [.text "()".toList]

end ContainerShape

namespace Rules

/-- Renames containers. Empty angle brackets are dropped with the name before them, which
leaves `new ()` to take its type from the target. -/
def collectionDeclarations (line : Line) : Line :=
  Edit.applyAll (ContainerShape.known.flatMap fun s => [s.elided, s.declared]) line

def collectionInstantiations (line : Line) : Line :=
  Edit.applyAll (ContainerShape.known.map ContainerShape.instantiated) line

end Rules

end JvsSharp
