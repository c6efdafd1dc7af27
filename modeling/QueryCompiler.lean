import QueryCompiler.Text.Alphanumeric
import QueryCompiler.Text.Blank
import QueryCompiler.Number.Decimal
import QueryCompiler.Calendar.Timestamp
import QueryCompiler.Json.Reader
import QueryCompiler.Json.Writer
import QueryCompiler.Value.Json
import QueryCompiler.Binding.Json
import QueryCompiler.Reference
import QueryCompiler.Fragment.Parser
import QueryCompiler.Plan.Build
import QueryCompiler.Plan.Row
import QueryCompiler.Dialect.Engine
import QueryCompiler.Statement.Query
import QueryCompiler.Statement.Change
import QueryCompiler.Sql.Placeholder
import QueryCompiler.Sql.Statement
import QueryCompiler.Sql.Visitor
import QueryCompiler.Compiler
import QueryCompiler.Config
import QueryCompiler.Proofs.Simulation
import QueryCompiler.Proofs.Judgement
import QueryCompiler.Proofs.Written
import QueryCompiler.Proofs.PlanLeaves
import QueryCompiler.Proofs.Contents
import QueryCompiler.Proofs.Parity
import QueryCompiler.Proofs.Fragment
import QueryCompiler.Proofs.Values
import QueryCompiler.Proofs.Clauses
import QueryCompiler.Proofs.DeleteRows
import QueryCompiler.Proofs.Places
import QueryCompiler.Proofs.UpdatePurposes
import QueryCompiler.Proofs.UpdateRows
import QueryCompiler.Proofs.Reading
import QueryCompiler.Proofs.FilterMeaning
import QueryCompiler.Proofs.Inline
import QueryCompiler.Proofs.Likeness
import QueryCompiler.Proofs.LikeLowering
import QueryCompiler.Proofs.LikeRendering
import QueryCompiler.Proofs.LikeStatements
import QueryCompiler.Proofs.ValueBlind
import QueryCompiler.Proofs.Skeleton
import QueryCompiler.Proofs.Spelling
import QueryCompiler.Proofs.TablePrefix
import QueryCompiler.Proofs.Purposes
import QueryCompiler.Proofs.Buckets
import QueryCompiler.Proofs.Unions
import QueryCompiler.Proofs.WellFormed
import QueryCompiler.Proofs.Lexing
import QueryCompiler.Proofs.Grammar
import QueryCompiler.Proofs.Quoting
import QueryCompiler.Proofs.InsertRows
import QueryCompiler.Proofs.AssignedColumns
import QueryCompiler.Proofs.JsonLiteral
import QueryCompiler.Proofs.JsonSelectors
import QueryCompiler.Proofs.ConditionTrees
import QueryCompiler.Proofs.WriteOrder
import QueryCompiler.Proofs.Existence
import QueryCompiler.Proofs.QuotedNames
import QueryCompiler.Proofs.RepeatedColumns
import QueryCompiler.Proofs.NestedPlans
import QueryCompiler.Proofs.InPlace
import QueryCompiler.Proofs.Tiling
import QueryCompiler.Proofs.PlanParts
import QueryCompiler.Proofs.Descent
