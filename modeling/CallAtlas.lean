import CallAtlas.Analysis
import CallAtlas.Catalog.File
import CallAtlas.Command.Basic
import CallAtlas.Config.Report
import CallAtlas.Discovery
import CallAtlas.Document.Basic
import CallAtlas.Document.Generated
import CallAtlas.Main
import CallAtlas.Proofs.Sdk.UrlFiles
import CallAtlas.Run.Conversion
import CallAtlas.Run.Scan
import CallAtlas.Schema
import CallAtlas.Sdk.Report
import CallAtlas.Proofs.Sdk.Packages
import CallAtlas.Proofs.Sdk.Lookups
import CallAtlas.Proofs.Sdk.Memory
import CallAtlas.Proofs.Sdk.Reads
import CallAtlas.Proofs.Analysis.Sites
import CallAtlas.Proofs.Analysis.Runs
import CallAtlas.Proofs.Data.SortedMap
import CallAtlas.Proofs.Text.Lower
import CallAtlas.Proofs.Document.MergedPaths
import CallAtlas.Proofs.Files.Writing
import CallAtlas.Proofs.Run.Pages
import CallAtlas.Proofs.Run.Names
import CallAtlas.Proofs.Run.Documents
import CallAtlas.Proofs.Analysis.Attribution
import CallAtlas.Proofs.Config.Values
import CallAtlas.Proofs.Config.Layers
import CallAtlas.Proofs.Path.Order
import CallAtlas.Proofs.Files.Candidates
import CallAtlas.Proofs.Run.Planning
import CallAtlas.Proofs.Run.Failures
import CallAtlas.Proofs.Run.Workers
import CallAtlas.Proofs.Run.Accounting
import CallAtlas.Proofs.Sdk.Separation
import CallAtlas.Proofs.Sdk.Trees
import CallAtlas.Proofs.Analysis.Locality
import CallAtlas.Proofs.Sdk.Respelling
import CallAtlas.Proofs.Run.Pending
import CallAtlas.Proofs.Sdk.Ensured
import CallAtlas.Proofs.Sdk.UrlDemand
import CallAtlas.Proofs.Sdk.Histories
import CallAtlas.Proofs.Sdk.Spellings
import CallAtlas.Proofs.Document.ProjectIds
import CallAtlas.Proofs.Sdk.Offers
import CallAtlas.Proofs.Analysis.Templates
import CallAtlas.Proofs.Analysis.Literals
import CallAtlas.Proofs.Files.Globs
import CallAtlas.Proofs.Files.Places
import CallAtlas.Proofs.Run.Ignoring
import CallAtlas.Proofs.Files.Frames
import CallAtlas.Proofs.Analysis.Sources
import CallAtlas.Proofs.Run.Repeating
import CallAtlas.Proofs.Run.Converting
import CallAtlas.Proofs.Trace.Chains
import CallAtlas.Proofs.Sdk.Delegations
import CallAtlas.Proofs.Text.Calls
import CallAtlas.Proofs.Sdk.RequestTables
import CallAtlas.Proofs.Go.Nesting
import CallAtlas.Proofs.Trace.Arguments
import CallAtlas.Proofs.Call.Distinct
import CallAtlas.Proofs.Text.Spans
import CallAtlas.Proofs.Sdk.Invocations
import CallAtlas.Proofs.Analysis.Recorded
import CallAtlas.Proofs.Analysis.FanOut
import CallAtlas.Proofs.Text.FirstMatch
import CallAtlas.Proofs.Trace.Unheld
import CallAtlas.Proofs.Analysis.Unattributed
import CallAtlas.Proofs.Sdk.FixedUrls
import CallAtlas.Proofs.Sdk.ClientNames
import CallAtlas.Proofs.Go.Constants
import CallAtlas.Proofs.Go.Companions
import CallAtlas.Proofs.Document.Rekeyed
import CallAtlas.Proofs.Call.Comments
import CallAtlas.Proofs.Schema
import CallAtlas.Proofs.Catalog.Constructors
import CallAtlas.Proofs.Catalog.Entries
import CallAtlas.Proofs.Sdk.UrlSegments
import CallAtlas.Proofs.Sdk.GeneratedTables
import CallAtlas.Proofs.Files.Selections
import CallAtlas.Proofs.Document.NormalPaths
import CallAtlas.Proofs.Sdk.CacheHistories
