import JvsSharp.Main
import JvsSharp.Pattern.Segments
import JvsSharp.Proofs.Locality
import JvsSharp.Proofs.TreeFrame
import JvsSharp.Proofs.AllOrNothing
import JvsSharp.Proofs.CharClass
import JvsSharp.Proofs.Outline
import JvsSharp.Proofs.Words
import JvsSharp.Proofs.Taking
import JvsSharp.Proofs.TypeArguments
import JvsSharp.Proofs.Brackets
import JvsSharp.Proofs.TypeExpr
import JvsSharp.Proofs.Outermost
import JvsSharp.Proofs.Triggers
import JvsSharp.Proofs.FieldLines
import JvsSharp.Proofs.FieldOutlines
import JvsSharp.Proofs.FieldDeclaration
import JvsSharp.Proofs.FieldAssignment
import JvsSharp.Proofs.FieldAgreement
import JvsSharp.Proofs.Caseless
import JvsSharp.Proofs.Piecewise
import JvsSharp.Proofs.Newlines
import JvsSharp.Proofs.Skeleton
import JvsSharp.Proofs.RenamingRules
import JvsSharp.Proofs.Phrases
import JvsSharp.Proofs.CallNames
import JvsSharp.Proofs.RegexOrder
import JvsSharp.Proofs.PluginPhrases
import JvsSharp.Proofs.UtilityOrder
import JvsSharp.Proofs.PluginLines
import JvsSharp.Proofs.LineEndings
import JvsSharp.Proofs.Folding
import JvsSharp.Proofs.Unrecognised
import JvsSharp.Proofs.Initials
import JvsSharp.Proofs.MethodCasing
import JvsSharp.Proofs.BareCalls
import JvsSharp.Proofs.DeclaredNames
import JvsSharp.Proofs.GroupContents
import JvsSharp.Proofs.ElidedAssignment
import JvsSharp.Proofs.TargetForm
import JvsSharp.Proofs.PairNesting
import JvsSharp.Proofs.MapNesting
import JvsSharp.Proofs.TypeRuns
import JvsSharp.Proofs.NestedContainers
import JvsSharp.Proofs.RenamingPasses
import JvsSharp.Proofs.EmptyContainers
import JvsSharp.Proofs.LeftBehind
import JvsSharp.Proofs.WordRuns
import JvsSharp.Proofs.ImportRemoval
import JvsSharp.Proofs.OverrideRuns
import JvsSharp.Proofs.Contained
import JvsSharp.Proofs.ThrownNames
import JvsSharp.Proofs.EntryPoint
import JvsSharp.Proofs.EntrySignature
import JvsSharp.Proofs.MemberCalls
import JvsSharp.Proofs.LoopHeaders
import JvsSharp.Proofs.Shedding
import JvsSharp.Proofs.KeywordParts
import JvsSharp.Proofs.Receivers
import JvsSharp.Proofs.BaseSeparators
import JvsSharp.Proofs.ScannerReads
import JvsSharp.Proofs.GuardedPass
import JvsSharp.Proofs.LetterCase
import JvsSharp.Proofs.ElsePairs
import JvsSharp.Proofs.SettledCalls
import JvsSharp.Proofs.NamingRules
import JvsSharp.Proofs.LogArguments
import JvsSharp.Proofs.SkippedSegments
import JvsSharp.Proofs.CursorLoop
