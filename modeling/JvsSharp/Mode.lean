import JvsSharp.Rule

/-!
# Conversion modes

A mode is a list of rules. Order matters: later rules rely on what earlier
ones have written, so primitive names are mapped before containers.
-/

set_option autoImplicit false

namespace JvsSharp

inductive Mode where
  | general
  | domain
  deriving DecidableEq, Repr

namespace Mode

def all : List Mode := [.general, .domain]

def name : Mode → String
  | .general => "general"
  | .domain => "domain"

def ofName? (text : String) : Option Mode :=
  let folded := text.toList.map Char.toLower
  if folded == "general".toList || folded == "java2cs".toList then some .general
  else if folded == "domain".toList || folded == "jvs2ntk".toList then some .domain
  else none

def rules : Mode → List Rule
  | .general =>
      [.diamondInference, .enhancedFor, .inheritance, .primitiveTypes, .scannerInput,
       .collectionDeclarations, .collectionInstantiations, .collectionUtilities, .mapMethods,
       .imports, .consoleOutput, .mainSignature, .typeNames, .methodNames, .callCasing, .constants,
       .publicFields, .namespaceHeader, .fileWriter, .patternMatcher, .standaloneCalls, .finalClass,
       .finalField, .override]
  | .domain =>
      [.enhancedFor, .namespaceHeader, .inheritance, .methodNames, .callCasing, .standaloneCalls,
       .primitiveTypes, .collectionDeclarations, .collectionInstantiations, .collectionUtilities,
       .stripImports, .loggerDeclaration, .loggerPrint, .executeSignature, .domainSubstitutions,
       .trimTrailing]

def ruleNames (m : Mode) : List String := m.rules.map Rule.name

end Mode

def Rule.ofName? (name : String) : Option Rule :=
  (Mode.all.flatMap Mode.rules).find? fun r => r.name == name

end JvsSharp
