import SqlClause.Compiler
import SqlClause.Function
import SqlClause.Node.Compare
import SqlClause.Node.Key
import SqlClause.Select.Extension
import SqlClause.Schema.Copy
import SqlClause.Schema.InPlace
import SqlClause.Proofs.TypeReading
import SqlClause.Proofs.Shape
import SqlClause.Proofs.KeyReading
import SqlClause.Proofs.Template
import SqlClause.Proofs.SameText
import SqlClause.Proofs.Coverage
import SqlClause.Proofs.BoundValues
import SqlClause.Proofs.Formula
import SqlClause.Proofs.Precedence
import SqlClause.Proofs.Regrouping
import SqlClause.Proofs.Assembly
import SqlClause.Proofs.DistinctOn
import SqlClause.Proofs.History
import SqlClause.Proofs.Ownership
import SqlClause.Proofs.Rebinding
import SqlClause.Proofs.Construction
import SqlClause.Proofs.CopyDefinition
import SqlClause.Proofs.Portability
import SqlClause.Proofs.Substitution
import SqlClause.Proofs.Attachment
import SqlClause.Proofs.Notices
import SqlClause.Proofs.Exclusion
import SqlClause.Proofs.ExclusionText
import SqlClause.Proofs.Retyping
import SqlClause.Proofs.Sources
import SqlClause.Proofs.Visits
import SqlClause.Proofs.Replacement
import SqlClause.Proofs.ExpressionCopy
import SqlClause.Proofs.Refusals
import SqlClause.Proofs.Naming
import SqlClause.Proofs.Literals
import SqlClause.Proofs.Coercions
import SqlClause.Proofs.Conjunction
import SqlClause.Proofs.Walks
import SqlClause.Proofs.Arguments
import SqlClause.Proofs.Sequence
import SqlClause.Proofs.SearchCalls
import SqlClause.Proofs.OrderedAggregates
