import DocumentMapper.Client.Basic
import DocumentMapper.Client.Memory
import DocumentMapper.Client.Script
import DocumentMapper.Decimal.Binary64
import DocumentMapper.Decimal.Layout
import DocumentMapper.Decimal.Shortest
import DocumentMapper.Definition.Basic
import DocumentMapper.Definition.Json
import DocumentMapper.Deployment
import DocumentMapper.Error
import DocumentMapper.Json.Basic
import DocumentMapper.Json.Text
import DocumentMapper.Keyed
import DocumentMapper.Manager
import DocumentMapper.Model.Basic
import DocumentMapper.Model.Build
import DocumentMapper.Model.Projection
import DocumentMapper.Model.Request
import DocumentMapper.Model.Schema
import DocumentMapper.Model.Storage
import DocumentMapper.Ordered
import DocumentMapper.Query.Equal
import DocumentMapper.Query.Evaluate
import DocumentMapper.Query.Expr
import DocumentMapper.Query.Wire
import DocumentMapper.Schema.Basic
import DocumentMapper.Schema.Issue
import DocumentMapper.Schema.Parse
import DocumentMapper.Settings
import DocumentMapper.Sorting.Basic
import DocumentMapper.Sorting.Runs
import DocumentMapper.Sorting.Short
import DocumentMapper.Store.Basic
import DocumentMapper.Store.Lookup
import DocumentMapper.Store.Write
import DocumentMapper.Text.Blank
import DocumentMapper.Text.Calendar
import DocumentMapper.Text.Octets
import DocumentMapper.Text.Quoted
import DocumentMapper.Text.Unseen
import DocumentMapper.Value.Basic
import DocumentMapper.Value.Equal
import DocumentMapper.Value.Lookup
import DocumentMapper.Value.Patch
import DocumentMapper.Value.Path
import DocumentMapper.Value.Reference
import DocumentMapper.Value.Text
import DocumentMapper.Proofs.Parts
import DocumentMapper.Proofs.CompiledParts
import DocumentMapper.Proofs.Changes
import DocumentMapper.Proofs.Consistency
import DocumentMapper.Proofs.Lookup
import DocumentMapper.Proofs.Uniqueness
import DocumentMapper.Proofs.CompiledReads
import DocumentMapper.Proofs.KeyOrder
import DocumentMapper.Proofs.Patches
import DocumentMapper.Proofs.ShapedPatches
import DocumentMapper.Proofs.Deployed
import DocumentMapper.Proofs.Operations
import DocumentMapper.Proofs.TypedData
import DocumentMapper.Proofs.Legible
import DocumentMapper.Proofs.SoundStore
import DocumentMapper.Proofs.Extended
import DocumentMapper.Proofs.SoundQueries
import DocumentMapper.Proofs.Instances
import DocumentMapper.Proofs.Numbers
import DocumentMapper.Proofs.ReadBack
import DocumentMapper.Proofs.Extensions
import DocumentMapper.Proofs.Refusals
import DocumentMapper.Proofs.NameClashes
import DocumentMapper.Proofs.Links
import DocumentMapper.Proofs.TypedFields
import DocumentMapper.Proofs.ReverseViews
import DocumentMapper.Proofs.Sessions
import DocumentMapper.Proofs.Teardown
import DocumentMapper.Proofs.RequestNames
import DocumentMapper.Proofs.Representation
import DocumentMapper.Proofs.Creations
import DocumentMapper.Proofs.WrittenDocuments
import DocumentMapper.Proofs.Listings
import DocumentMapper.Proofs.Redaction
import DocumentMapper.Proofs.TwoRuns
import DocumentMapper.Proofs.WriteOnly
import DocumentMapper.Proofs.SameRequests
import DocumentMapper.Proofs.WireForms
import DocumentMapper.Proofs.ExtendedInstances
import DocumentMapper.Proofs.IndexEntries
import DocumentMapper.Proofs.ScopeStack
import DocumentMapper.Proofs.LexicalScope
import DocumentMapper.Proofs.Merging
import DocumentMapper.Proofs.Updates
import DocumentMapper.Proofs.Rounding
import DocumentMapper.Proofs.Duplicates
import DocumentMapper.Proofs.NewestFirst
import DocumentMapper.Proofs.Conformance
import DocumentMapper.Proofs.SharedTrail
import DocumentMapper.Proofs.Flaws
import DocumentMapper.Proofs.InstanceShapes
import DocumentMapper.Proofs.LinkRows
import DocumentMapper.Proofs.PatchSchemas
import DocumentMapper.Proofs.SortOrder
import DocumentMapper.Proofs.Sameness
import DocumentMapper.Proofs.ShortSorts
import DocumentMapper.Proofs.RunSorts
import DocumentMapper.Proofs.StableSort
import DocumentMapper.Proofs.RowOrder
