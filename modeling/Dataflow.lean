import Dataflow.Json.Order
import Dataflow.Json.Printer
import Dataflow.Json.Reader
import Dataflow.Text.Blank
import Dataflow.Text.Casing
import Dataflow.Text.Quoted
import Dataflow.FieldPath
import Dataflow.Expr.Lexeme
import Dataflow.Expr.Parser
import Dataflow.Expr.Eval
import Dataflow.CompileError
import Dataflow.Spec.Decode
import Dataflow.Spec.DataLoad
import Dataflow.Reference
import Dataflow.Transform
import Dataflow.Parameter
import Dataflow.Scope.View
import Dataflow.Graph.Request
import Dataflow.Graph.Summary
import Dataflow.Main
import Dataflow.Proofs.RequestEffects
import Dataflow.Proofs.StepOutcome
import Dataflow.Proofs.SessionChanges
import Dataflow.Proofs.CompileChanges
import Dataflow.Proofs.SessionRelations
import Dataflow.Proofs.OperationRuns
import Dataflow.Proofs.ParentLinks
import Dataflow.Proofs.NoDanglingHandles
import Dataflow.Proofs.SharedExpressions
import Dataflow.Proofs.ExprGrammar
import Dataflow.Proofs.ExprParserSound
import Dataflow.Proofs.ExprParserLimits
import Dataflow.Proofs.ExprParserComplete
import Dataflow.Proofs.LiveReads
import Dataflow.Proofs.RefusedRequests
import Dataflow.Proofs.Renaming
import Dataflow.Proofs.GraphGrowth
import Dataflow.Proofs.IndependentInstances
import Dataflow.Proofs.HeldHandles
import Dataflow.Proofs.QuietSteps
import Dataflow.Proofs.RequestOrder
import Dataflow.Proofs.CreationOrder
import Dataflow.Proofs.SharedInstances
import Dataflow.Proofs.NumberOrder
import Dataflow.Proofs.ParameterPlaces
import Dataflow.Proofs.PathRendering
import Dataflow.Proofs.ValueOrder
import Dataflow.Proofs.NodeDependencies
import Dataflow.Proofs.SettledParameters
import Dataflow.Proofs.ReportedCopies
import Dataflow.Proofs.ReferenceShapes
import Dataflow.Proofs.ResolutionOutcome
import Dataflow.Proofs.FlattenedParameters
import Dataflow.Proofs.MarkerPriority
import Dataflow.Proofs.OutputNode
import Dataflow.Proofs.MergedViews
import Dataflow.Proofs.FirstFailure
import Dataflow.Proofs.RegisteredNodes
import Dataflow.Proofs.UnpublishedOperators
import Dataflow.Proofs.DatasetRecords
import Dataflow.Proofs.TokenRules
import Dataflow.Proofs.SourceTiling
import Dataflow.Proofs.StringLiterals
import Dataflow.Proofs.CallSites
import Dataflow.Proofs.ExprReaders
import Dataflow.Proofs.ViablePhrases
import Dataflow.Proofs.EarliestErrors
import Dataflow.Proofs.WholeFloats
import Dataflow.Proofs.IntegerArithmetic
import Dataflow.Proofs.OperatorOrder
import Dataflow.Proofs.KeptRecords
import Dataflow.Proofs.EntryNames
import Dataflow.Proofs.StartingValues
import Dataflow.Proofs.ScopeArrangement
import Dataflow.Proofs.OperatorClimbing
import Dataflow.Proofs.ParserRoutines
import Dataflow.Proofs.TreeRecursion
import Dataflow.Proofs.NestingBounds
