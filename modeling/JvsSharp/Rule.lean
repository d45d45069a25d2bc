import JvsSharp.Rules.Call
import JvsSharp.Rules.Elided
import JvsSharp.Rules.Override
import JvsSharp.Rules.Plugin

/-!
# The rules

Every rule takes one line to one line. Only two of them look at anything else:
one reads the index of the file, one reads and sets the override state.
-/

set_option autoImplicit false

namespace JvsSharp

inductive Rule where
  | diamondInference
  | enhancedFor
  | inheritance
  | primitiveTypes
  | scannerInput
  | collectionDeclarations
  | collectionInstantiations
  | collectionUtilities
  | mapMethods
  | imports
  | consoleOutput
  | mainSignature
  | typeNames
  | methodNames
  | callCasing
  | constants
  | publicFields
  | namespaceHeader
  | fileWriter
  | patternMatcher
  | standaloneCalls
  | finalClass
  | finalField
  | override
  | stripImports
  | loggerDeclaration
  | loggerPrint
  | executeSignature
  | domainSubstitutions
  | trimTrailing
  deriving DecidableEq, Repr

namespace Rule

def name : Rule → String
  | .diamondInference => "diamond-inference"
  | .enhancedFor => "enhanced-for"
  | .inheritance => "inheritance"
  | .primitiveTypes => "primitive-types"
  | .scannerInput => "scanner-input"
  | .collectionDeclarations => "collection-declarations"
  | .collectionInstantiations => "collection-instantiations"
  | .collectionUtilities => "collection-utilities"
  | .mapMethods => "map-methods"
  | .imports => "imports"
  | .consoleOutput => "console-output"
  | .mainSignature => "main-signature"
  | .typeNames => "type-names"
  | .methodNames => "method-names"
  | .callCasing => "call-casing"
  | .constants => "constants"
  | .publicFields => "public-fields"
  | .namespaceHeader => "namespace"
  | .fileWriter => "file-writer"
  | .patternMatcher => "pattern-matcher"
  | .standaloneCalls => "standalone-calls"
  | .finalClass => "final-class"
  | .finalField => "final-field"
  | .override => "override"
  | .stripImports => "strip-imports"
  | .loggerDeclaration => "logger-declaration"
  | .loggerPrint => "logger-print"
  | .executeSignature => "execute-signature"
  | .domainSubstitutions => "domain-substitutions"
  | .trimTrailing => "trim-trailing"

def apply (index : Index) : Rule → Progress → Progress
  | .diamondInference, s => s.mapLine (Rules.diamondInference index)
  | .enhancedFor, s => s.mapLine Rules.enhancedFor
  | .inheritance, s => s.mapLine Rules.inheritance
  | .primitiveTypes, s => s.mapLine Rules.primitiveTypes
  | .scannerInput, s => s.mapLine Rules.scannerInput
  | .collectionDeclarations, s => s.mapLine Rules.collectionDeclarations
  | .collectionInstantiations, s => s.mapLine Rules.collectionInstantiations
  | .collectionUtilities, s => s.mapLine Rules.collectionUtilities
  | .mapMethods, s => s.mapLine Rules.mapMethods
  | .imports, s => s.mapLine Rules.imports
  | .consoleOutput, s => s.mapLine Rules.consoleOutput
  | .mainSignature, s => s.mapLine Rules.mainSignature
  | .typeNames, s => s.mapLine Rules.typeNames
  | .methodNames, s => s.mapLine Rules.methodNames
  | .callCasing, s => s.mapLine Rules.callCasing
  | .constants, s => s.mapLine Rules.constants
  | .publicFields, s => s.mapLine Rules.publicFields
  | .namespaceHeader, s => s.mapLine Rules.namespaceHeader
  | .fileWriter, s => s.mapLine Rules.fileWriter
  | .patternMatcher, s => s.mapLine Rules.patternMatcher
  | .standaloneCalls, s => s.mapLine Rules.standaloneCalls
  | .finalClass, s => s.mapLine Rules.finalClass
  | .finalField, s => s.mapLine Rules.finalField
  | .override, s => Rules.trackOverride s
  | .stripImports, s => s.mapLine Rules.stripImports
  | .loggerDeclaration, s => s.mapLine Rules.loggerDeclaration
  | .loggerPrint, s => s.mapLine Rules.loggerPrint
  | .executeSignature, s => s.mapLine Rules.executeSignature
  | .domainSubstitutions, s => s.mapLine Rules.domainSubstitutions
  | .trimTrailing, s => s.mapLine Text.trimEnd

end Rule

end JvsSharp
