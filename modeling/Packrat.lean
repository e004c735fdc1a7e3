import Packrat.Calculator.OverText
import Packrat.Calculator.OverTokens
import Packrat.Main
import Packrat.Proofs.SeedGrowing
import Packrat.Proofs.Transparency
import Packrat.Workbench.Script
import Packrat.Proofs.RelativeEvaluation
import Packrat.Proofs.Settling
import Packrat.Proofs.SettledCalls
import Packrat.Proofs.History
import Packrat.Proofs.Reading
import Packrat.Proofs.LeftAssociation
import Packrat.Proofs.Arithmetic
import Packrat.Proofs.TokenCalculator
import Packrat.Proofs.Derivation
import Packrat.Proofs.WholeInput
import Packrat.Proofs.CharacterSets
import Packrat.Proofs.TextReading
import Packrat.Proofs.TextCalculator
import Packrat.Proofs.JsonSyntax
import Packrat.Proofs.JsonRules
import Packrat.Proofs.JsonNumbers
import Packrat.Proofs.JsonStrings
import Packrat.Proofs.JsonLists
import Packrat.Proofs.JsonDocuments
import Packrat.Proofs.Life
import Packrat.Proofs.MemoGrowth
import Packrat.Proofs.ActiveCalls
import Packrat.Proofs.Executions
import Packrat.Proofs.FarthestFailures
import Packrat.Proofs.Localization
import Packrat.Proofs.Services
import Packrat.Proofs.Losslessness
import Packrat.Proofs.Observers
import Packrat.Proofs.JsonPrinting
import Packrat.Proofs.JsonErrors
import Packrat.Proofs.Spans
import Packrat.Proofs.Repetition
import Packrat.Proofs.CallLogs
import Packrat.Proofs.Discretion
import Packrat.Proofs.ListExpansion
import Packrat.Proofs.PlainParsers
import Packrat.Proofs.LeftFold
import Packrat.Proofs.Spellings
import Packrat.Proofs.StringLiterals
import Packrat.Proofs.CharacterRuns
import Packrat.Proofs.CharacterSetAlgebra
import Packrat.Proofs.Lexing
import Packrat.Proofs.TokenPositions
import Packrat.Proofs.NumberPrinting
import Packrat.Proofs.LineColumns
import Packrat.Proofs.DepthAccounting
import Packrat.Proofs.CalculatorOverflow
import Packrat.Proofs.UnreadSums
import Packrat.Proofs.Handles
import Packrat.Proofs.AnyHistory
