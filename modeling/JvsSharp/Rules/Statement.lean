import JvsSharp.Pattern.Edit

/-!
# Statements with a fixed counterpart

Loops over a collection, console output and input, file writers and regular
expressions are recognised by their spelling alone.
-/

set_option autoImplicit false

namespace JvsSharp.Rules
open Pattern

def typeText : CharClass := .union .word (.union .blank (.oneOf ['<', '>', ',']))

def argument : Pattern := chars (.except [')'])

def forEachHeader : Edit where
  pattern := all
    ["for", gap, "(", slack, .group 1 (stretch typeText), .one .blank, .group 2 word, gap, ":",
      slack, .group 3 argument, ")"]
  template := ["foreach (", 1, " ", 2, " in ", 3, ")"]

def enhancedFor (line : Line) : Line := forEachHeader.apply line

def printCalls : List Edit :=
  [⟨"System.out.println", ["Console.WriteLine"]⟩, ⟨"System.out.print", ["Console.Write"]⟩]

def consoleOutput (line : Line) : Line := Edit.applyAll printCalls line

def writerDeclaration : Edit where
  pattern := all
    ["FileWriter", space, .group 1 word, gap, "=", gap, "new", space, "FileWriter", gap, "(", gap,
      .group 2 word, gap, ")", gap, ";"]
  template := ["StreamWriter ", 1, " = new StreamWriter(", 2, ".FullName);"]

def fileWriter (line : Line) : Line := writerDeclaration.apply line

def compileEdit : Edit where
  pattern := all
    ["Pattern", space, .group 1 word, gap, "=", gap, "Pattern.compile(", .group 2 argument, ");"]
  template := ["Regex ", 1, " = new Regex(", 2, ");"]

def matcherEdit : Edit where
  pattern := all
    ["Matcher", space, .group 1 word, gap, "=", gap, .group 2 word, ".matcher(",
      .group 3 argument, ");"]
  template := ["MatchCollection ", 1, " = ", 2, ".Matches(", 3, ");"]

def regexDeclarations : List Edit := [compileEdit, matcherEdit]

def patternMatcher (line : Line) : Line := Edit.applyAll regexDeclarations line

def parsedKeyword (kind : Line) : Line :=
  if kind == "Int".toList then "int".toList
  else if kind == "Double".toList then "double".toList
  else if kind == "Float".toList then "float".toList
  else if kind == "Long".toList then "long".toList
  else if kind == "Boolean".toList then "bool".toList
  else if kind == "Byte".toList then "byte".toList
  else "short".toList

def emptyCall (method : Pattern) : Pattern :=
  all [.edge, word, gap, ".", gap, method, gap, "(", gap, ")"]

def scannerDeclaration : Edit where
  pattern := all
    ["Scanner", space, word, gap, "=", gap, "new", space, "Scanner", gap, "(", gap, "System.in",
      gap, ")", gap, opt ";"]
  template := []

def typedMethod : Pattern :=
  all ["next", .group 1 (anyOf ["Int", "Double", "Float", "Long", "Boolean", "Byte", "Short"])]

def typedRead : Edit where
  pattern := emptyCall typedMethod
  template := [.mapped parsedKeyword 1, ".Parse(Console.ReadLine())"]

def lineMethod : Pattern := all ["next", opt "Line"]

def lineRead : Edit where
  pattern := emptyCall lineMethod
  template := ["Console.ReadLine()"]

def scannerEdits : List Edit := [scannerDeclaration, typedRead, lineRead]

def scannerInput (line : Line) : Line := Edit.applyAll scannerEdits line

end JvsSharp.Rules
