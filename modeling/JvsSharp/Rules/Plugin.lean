import JvsSharp.Pattern.Edit
import JvsSharp.Rules.Header
import JvsSharp.Unicode.Sigma

/-!
# Plugin scripts

The framework of plugin scripts has its own logger, entry point and a list of
narrow substitutions, which run in the given order.
-/

set_option autoImplicit false

namespace JvsSharp.Rules
open Pattern

def defaultUsings : List String :=
  ["using System;",
   "using System.Collections.Generic;",
   "using System.Collections.ObjectModel;",
   "using System.Linq;",
   "using System.Text;",
   "using Olf.NetToolkit;",
   "using Olf.NetToolkit.Enums;",
   "using Olf.NetToolkit.Tpm;",
   "using Olf.NetToolkit.ReportBuilder;",
   "using Olf.Embedded.Generic;",
   "using Olf.Embedded.Application;"]

def loggerName : Line := "JVS_INC_LogFunctions".toList

def loggerField : Edit where
  pattern := all [.edge, .group 1 (anyOf ["public", "private"]), gap, .text loggerName]
  template := [1, " Logger"]

def loggerEdits : List Edit :=
  [loggerField,
   ⟨all [.edge, .group 1 (anyOf ["private", "public", "protected"]), space, "JVS_INC_Standard",
       space, .group 2 word, gap, ";"],
      [1, " Logger ", 2, ";"]⟩,
   ⟨all [.edge, .group 1 word, gap, "=", gap, "new", space, "JVS_INC_Standard", gap, "(", gap, ")",
       gap, ";"],
      [1, " = new Logger(this.Plugin.Name);"]⟩,
   ⟨"new Logger()", ["new Logger(this.Plugin.Name)"]⟩]

def loggerDeclaration (line : Line) : Line := Edit.applyAll loggerEdits line

def joinArguments (arguments : Line) : Line := arguments.map fun c => if c == ',' then '+' else c

def argumentList : Pattern := .span (.except [')'])

def printCall : Edit where
  pattern := all
    [.edge, .group 1 "m_INCStandard", ".Print", gap, "(", .group 2 argumentList, ")"]
  template := [1, ".Info(", .mapped joinArguments 2, ")"]

def loggerPrint (line : Line) : Line := printCall.apply line

def nextName : Pattern := all [gap, ",", gap, word]

def executeHeader : Edit where
  pattern := all
    ["public", space, "void", space, "Execute", gap, "(", .fewest .inLine, ")", gap, "throws",
      space, word, .star nextName]
  template :=
    ["public override Olf.Openrisk.Table.Table Execute(Context context, EnumScriptCategory " ++
      "category, Olf.Openrisk.Table.ConstTable table)"]

def executeSignature (line : Line) : Line := executeHeader.apply line

def parseCall (receivers : List String) (parse keyword : String) : Edit where
  pattern := all
    [.edge, anyOf (receivers.map anyCase), ".", anyCase parse, gap, "(", .group 1 argumentList,
      ")"]
  template := [.text keyword.toList, ".Parse(", 1, ")"]

def parseCalls : List Edit :=
  [parseCall ["Integer", "int"] "parseInt" "int",
   parseCall ["double"] "parseDouble" "double",
   parseCall ["float"] "parseFloat" "float",
   parseCall ["long"] "parseLong" "long",
   parseCall ["short"] "parseShort" "short",
   parseCall ["byte"] "parseByte" "byte",
   parseCall ["boolean", "bool"] "parseBoolean" "bool"]

def enumCast : Edit where
  pattern := all [.edge, .group 1 (all [word, ".", word]), ".To", .group 2 word, gap, "()"]
  template := ["(", .mapped Unicode.lowerText 2, ")", 1]

def upperCall : Edit := ⟨"ToUpperCase()", ["ToUpper()"]⟩

def finalWord : Edit := ⟨wholeWord "final", ["readonly"]⟩

def throwsClause : Edit where
  pattern := all
    [gap, "throws", .edge, .span (.except [';', '\x7b']),
      .group 1 (opt (.one (.oneOf [';', '\x7b'])))]
  template := [1]

def lengthMember : Edit where
  pattern := all [.edge, anyOf ["length", "Length"], gap, opt (all ["(", gap, ")"])]
  template := ["Length"]

def isEmptyCall : Edit :=
  ⟨all [.edge, .group 1 word, ".IsEmpty", gap, "()"], ["string.IsNullOrEmpty(", 1, ")"]⟩

def scriptBase : Edit where
  pattern := all [.group 1 (all ["class", space, word, gap, ":", gap]), "IScript", .edge]
  template := [1, "AbstractGenericScript"]

def calendarCall : Edit :=
  ⟨all [.edge, .group 1 (all ["OCalendarBase.", word, gap, "("])], ["Olf.NetToolkit.Fnd.", 1]⟩

def trimCall : Edit := ⟨all [")", gap, ".", gap, "trim", gap, "("], [").Trim("]⟩

def substitutions : List Edit :=
  parseCalls ++
  [upperCall,
   ⟨all [.edge, anyCase "size", "()"], ["Count"]⟩,
   finalWord,
   ⟨all [.edge, "GetMessage", gap, "(", .fewest .inLine, ")"], ["Message"]⟩,
   throwsClause,
   lengthMember,
   ⟨all [".replace", gap, "("], [".Replace("]⟩,
   ⟨all [.edge, "Table", space, .group 1 word, gap, "=", gap, "context.GetArgumentsTable", gap,
       "(", gap, ")", gap, ";"],
      ["Table ", 1, " = ContainerContext.GetGlobalContext().GetReturnTable();"]⟩,
   isEmptyCall,
   scriptBase,
   enumCast,
   calendarCall,
   trimCall]

def scriptAttribute : Pattern := all [.start, opt "@", anyCase "ScriptAttributes"]

def domainSubstitutions (line : Line) : Line :=
  if scriptAttribute.occursIn (Text.trimStart line) then
    "[ScriptCategoriesAttribute(EnumScriptCategory.Generic)]".toList
  else Edit.applyAll substitutions line

end JvsSharp.Rules
