import FormRules.Assoc
import FormRules.Cli.Arguments
import FormRules.Cli.Command
import FormRules.Cli.Files
import FormRules.Cli.Markup
import FormRules.Cli.Page
import FormRules.Cli.Run
import FormRules.Condition.Basic
import FormRules.Condition.Comparator
import FormRules.Condition.Connective
import FormRules.Condition.Description
import FormRules.Condition.Evaluation
import FormRules.Condition.Stored
import FormRules.Condition.Walk
import FormRules.Distinct
import FormRules.Double.Basic
import FormRules.Double.Numeral
import FormRules.Double.Shortest
import FormRules.FormData.Basic
import FormRules.FormData.Change
import FormRules.FormData.Stored
import FormRules.Graph.Basic
import FormRules.Graph.Cycle
import FormRules.Hierarchy.Check
import FormRules.Hierarchy.Draft
import FormRules.Hierarchy.Edit
import FormRules.Hierarchy.Forest
import FormRules.Hierarchy.Issue
import FormRules.Hierarchy.Metrics
import FormRules.Hierarchy.Node
import FormRules.Hierarchy.Repair
import FormRules.Hierarchy.Validation
import FormRules.Hierarchy.Workflow
import FormRules.Json.Reader
import FormRules.Json.Writer
import FormRules.Log
import FormRules.Main
import FormRules.Reading.Basic
import FormRules.Reading.Keyed
import FormRules.Reading.Scalar
import FormRules.Reference
import FormRules.Rule.Action
import FormRules.Rule.Basic
import FormRules.Rule.Evaluation
import FormRules.Settings.Basic
import FormRules.Settings.EnvFile
import FormRules.Text.Blank
import FormRules.Text.CellTable
import FormRules.Text.Cells
import FormRules.Text.Digit
import FormRules.Text.Fold
import FormRules.Text.FoldTable
import FormRules.Text.Lines
import FormRules.Text.Quoted
import FormRules.Text.Search
import FormRules.Text.Spelling
import FormRules.Text.UnprintableTable
import FormRules.Value.Basic
import FormRules.Value.Comparison
import FormRules.Value.Printing
import FormRules.Proofs.CycleSearch
import FormRules.Proofs.FirstNodes
import FormRules.Proofs.RepairProgress
import FormRules.Proofs.RepairedList
import FormRules.Proofs.MinimalRepair
import FormRules.Proofs.EditSessions
import FormRules.Proofs.EvaluationFailures
import FormRules.Proofs.RuleCheck
import FormRules.Proofs.ForestShape
import FormRules.Proofs.TreeShape
import FormRules.Proofs.StableSort
import FormRules.Proofs.RuleResults
import FormRules.Proofs.ConditionMeaning
import FormRules.Proofs.ForestContent
import FormRules.Proofs.SettledLists
import FormRules.Proofs.WrittenNodes
import FormRules.Proofs.FiniteSizes
import FormRules.Proofs.NumeralChars
import FormRules.Proofs.PrintedNumbers
import FormRules.Proofs.RoundingIntervals
import FormRules.Proofs.ReadBackDoubles
import FormRules.Proofs.ValueEquality
import FormRules.Proofs.IntegerEquality
import FormRules.Proofs.ReportedDefects
import FormRules.Proofs.ForestBranches
import FormRules.Proofs.MovedNodes
import FormRules.Proofs.ForestLevels
import FormRules.Proofs.ForestMetrics
import FormRules.Proofs.CircularLinks
import FormRules.Proofs.AssignedParents
import FormRules.Proofs.SetAsideRules
import FormRules.Proofs.StoredRoundTrip
import FormRules.Proofs.UnseenData
import FormRules.Proofs.StoredLists
import FormRules.Proofs.ConditionTrees
import FormRules.Proofs.DepthLimits
import FormRules.Proofs.QualifiedReferences
import FormRules.Proofs.ReorderedConditions
import FormRules.Proofs.CaseModes
import FormRules.Proofs.RegroupedConditions
import FormRules.Proofs.Traversals
import FormRules.Proofs.RespelledLists
import FormRules.Proofs.QuotedTexts
import FormRules.Proofs.PrintedValues
import FormRules.Proofs.Descriptions
import FormRules.Proofs.ChangedData
import FormRules.Proofs.WalkedConditions
