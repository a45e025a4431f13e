import JoinPlan.Catalog.Assembly
import JoinPlan.Catalog.Basic
import JoinPlan.Catalog.Restriction
import JoinPlan.Catalog.TableRef
import JoinPlan.Catalog.Written
import JoinPlan.CommandLine.Arguments
import JoinPlan.CommandLine.Run
import JoinPlan.Decimal.Shortest
import JoinPlan.Error
import JoinPlan.Execution.Database
import JoinPlan.Execution.Run
import JoinPlan.Graph.Basic
import JoinPlan.Graph.Cost
import JoinPlan.Graph.Heap
import JoinPlan.Graph.Route
import JoinPlan.Graph.Search
import JoinPlan.Graph.Similarity
import JoinPlan.Json.Basic
import JoinPlan.Json.Document
import JoinPlan.Json.Number
import JoinPlan.Json.Printer
import JoinPlan.Json.Record
import JoinPlan.Json.Token
import JoinPlan.Main
import JoinPlan.Proofs.Adjacency
import JoinPlan.Proofs.AliasNumbers
import JoinPlan.Proofs.Aliases
import JoinPlan.Proofs.Attachment
import JoinPlan.Proofs.Blanking
import JoinPlan.Proofs.Bridges
import JoinPlan.Proofs.CanonicalTree
import JoinPlan.Proofs.CatalogReading
import JoinPlan.Proofs.Compilable
import JoinPlan.Proofs.ConditionText
import JoinPlan.Proofs.DeclaredKeys
import JoinPlan.Proofs.DirectKeys
import JoinPlan.Proofs.DistinctAliases
import JoinPlan.Proofs.DroppedTables
import JoinPlan.Proofs.EquivalenceLaws
import JoinPlan.Proofs.EquivalentQueries
import JoinPlan.Proofs.GroupedColumns
import JoinPlan.Proofs.GroupingKeys
import JoinPlan.Proofs.HeapOrder
import JoinPlan.Proofs.IgnoredTables
import JoinPlan.Proofs.JoinedPairs
import JoinPlan.Proofs.KeyLinks
import JoinPlan.Proofs.LeastPenalty
import JoinPlan.Proofs.LinkPenalties
import JoinPlan.Proofs.ListedColumns
import JoinPlan.Proofs.LiteralSafety
import JoinPlan.Proofs.LiteralScan
import JoinPlan.Proofs.MirroredKeys
import JoinPlan.Proofs.NestedTree
import JoinPlan.Proofs.Nesting
import JoinPlan.Proofs.Outcome
import JoinPlan.Proofs.OutputNames
import JoinPlan.Proofs.Placement
import JoinPlan.Proofs.PreOrder
import JoinPlan.Proofs.PrintedLayouts
import JoinPlan.Proofs.PrintedValues
import JoinPlan.Proofs.PrintedWords
import JoinPlan.Proofs.PrunedConditions
import JoinPlan.Proofs.QueryReading
import JoinPlan.Proofs.RecordReading
import JoinPlan.Proofs.Refusals
import JoinPlan.Proofs.RelatedRows
import JoinPlan.Proofs.RelatedTables
import JoinPlan.Proofs.ReorderedJoins
import JoinPlan.Proofs.Routability
import JoinPlan.Proofs.RouteLegs
import JoinPlan.Proofs.RoutePath
import JoinPlan.Proofs.RowParts
import JoinPlan.Proofs.Scoping
import JoinPlan.Proofs.SearchInvariant
import JoinPlan.Proofs.SearchOrder
import JoinPlan.Proofs.SecludedGraph
import JoinPlan.Proofs.Sessions
import JoinPlan.Proofs.SharedPairs
import JoinPlan.Proofs.ShortestPath
import JoinPlan.Proofs.SiblingOrder
import JoinPlan.Proofs.SingleJoin
import JoinPlan.Proofs.SortOrder
import JoinPlan.Proofs.StatementParts
import JoinPlan.Proofs.Traversals
import JoinPlan.Proofs.TreeLinks
import JoinPlan.Proofs.UnrelatedTables
import JoinPlan.Query.Basic
import JoinPlan.Query.Condition
import JoinPlan.Query.Equivalence
import JoinPlan.Query.Written
import JoinPlan.Sql.Compile
import JoinPlan.Sql.Keys
import JoinPlan.Sql.Related
import JoinPlan.Sql.Statement
import JoinPlan.Sqlite.DeclaredType
import JoinPlan.Sqlite.Row
import JoinPlan.Sqlite.Schema
import JoinPlan.Survey.Distance
import JoinPlan.Survey.Junction
import JoinPlan.Survey.Written
import JoinPlan.Text.Blank
import JoinPlan.Text.LetterCase
import JoinPlan.Text.Quoted
import JoinPlan.Text.Unprintable
import JoinPlan.Text.Utf8
import JoinPlan.Text.Word
import JoinPlan.Tree.Authored
import JoinPlan.Tree.Basic
import JoinPlan.Tree.Normal
import JoinPlan.Tree.Written
