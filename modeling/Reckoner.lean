import Reckoner.Chart
import Reckoner.Chart.Coordinate
import Reckoner.Chart.Curve
import Reckoner.Chart.Point
import Reckoner.Chart.Viewport
import Reckoner.Command
import Reckoner.Command.Arguments
import Reckoner.Command.Files
import Reckoner.Evaluation
import Reckoner.Expr
import Reckoner.Expr.Debug
import Reckoner.Failure
import Reckoner.Fault
import Reckoner.Grammar
import Reckoner.Grammar.Cursor
import Reckoner.Grammar.Hint
import Reckoner.Machine
import Reckoner.Main
import Reckoner.Number.Divisors
import Reckoner.Number.Operator
import Reckoner.Number.Partial
import Reckoner.Number.Parts
import Reckoner.Number.Shortest
import Reckoner.Number.Spelling
import Reckoner.Report
import Reckoner.Report.Illustration
import Reckoner.Scope.Chain
import Reckoner.Scope.Frame
import Reckoner.Scope.Tree
import Reckoner.Screen
import Reckoner.Session
import Reckoner.Span
import Reckoner.Text.Blank
import Reckoner.Text.Digit
import Reckoner.Text.Lines
import Reckoner.Text.Printable
import Reckoner.Text.Quoted
import Reckoner.Text.Utf8
import Reckoner.Token
import Reckoner.Token.Kind
import Reckoner.Token.Scan
import Reckoner.Value
import Reckoner.Proofs.GrammarPhrases
import Reckoner.Proofs.GrammarReading
import Reckoner.Proofs.GrammarAcceptance
import Reckoner.Proofs.GrammarRecovery
import Reckoner.Proofs.GrammarDepth
import Reckoner.Proofs.GrammarPrinting
import Reckoner.Proofs.BatchExecution
import Reckoner.Proofs.BatchFrame
import Reckoner.Proofs.PureEvaluation
import Reckoner.Proofs.TokenSpans
import Reckoner.Proofs.TokenLexicon
import Reckoner.Proofs.TokenLexemes
import Reckoner.Proofs.FailureTrace
import Reckoner.Proofs.Computations
import Reckoner.Proofs.PartialOperations
import Reckoner.Proofs.FunctionOrigins
import Reckoner.Proofs.FailureSites
import Reckoner.Proofs.EvaluationSafety
import Reckoner.Proofs.SessionSafety
import Reckoner.Proofs.DoubleValues
import Reckoner.Proofs.DoubleRounding
import Reckoner.Proofs.DoubleArithmetic
import Reckoner.Proofs.ChartPlaces
import Reckoner.Proofs.ChartPasses
import Reckoner.Proofs.ChartDrawing
import Reckoner.Proofs.ChartBoundary
import Reckoner.Proofs.RunLikeness
import Reckoner.Proofs.ParallelRuns
import Reckoner.Proofs.BatchBoundaries
import Reckoner.Proofs.DepthCutoff
import Reckoner.Proofs.GroupingErasure
import Reckoner.Proofs.GrammarLikeness
import Reckoner.Proofs.TextLayout
import Reckoner.Proofs.WindowTrace
import Reckoner.Proofs.PlotSampling
import Reckoner.Proofs.GrammarBlame
import Reckoner.Proofs.FailurePlaces
import Reckoner.Proofs.IssueIllustration
import Reckoner.Proofs.CommandBatches
import Reckoner.Proofs.SpanNesting
import Reckoner.Proofs.StrayCharacters
import Reckoner.Proofs.TokenRespacing
import Reckoner.Proofs.GrammarLookahead
import Reckoner.Proofs.FirstFailure
import Reckoner.Proofs.DivisorListing
import Reckoner.Proofs.ChartShape
import Reckoner.Proofs.ExactCharts
import Reckoner.Proofs.CurveSamples
import Reckoner.Proofs.CurveRuns
import Reckoner.Proofs.LineNumbers
import Reckoner.Proofs.ScopeLookup
import Reckoner.Proofs.GrammarProgress
import Reckoner.Proofs.DebugForms
