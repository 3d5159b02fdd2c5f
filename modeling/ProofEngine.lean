import ProofEngine.Lib.Base64Url
import ProofEngine.Lib.BreadthFirst
import ProofEngine.Lib.Bytes
import ProofEngine.Lib.CodePoints
import ProofEngine.Lib.DirectedGraph
import ProofEngine.Lib.FirstBy
import ProofEngine.Lib.Hex
import ProofEngine.Lib.LastMap
import ProofEngine.Lib.Lowercase
import ProofEngine.Lib.Paths
import ProofEngine.Lib.Pieces
import ProofEngine.Lib.Precedence
import ProofEngine.Lib.QuotedText
import ProofEngine.Lib.ResultOrder
import ProofEngine.Lib.StableSort
import ProofEngine.Lib.Text
import ProofEngine.Lib.TextLines
import ProofEngine.Lib.TextSearch
import ProofEngine.Lib.WriteOnce
import ProofEngine.Core.Error
import ProofEngine.Core.Json
import ProofEngine.Core.Limits
import ProofEngine.Core.Model
import ProofEngine.Format.Cbor
import ProofEngine.Format.CborCanonical
import ProofEngine.Format.CborExact
import ProofEngine.Format.CborHead
import ProofEngine.Format.CborInjective
import ProofEngine.Format.CborRoundTrip
import ProofEngine.Format.FieldUpdate
import ProofEngine.Format.Member
import ProofEngine.Format.MemberCodec
import ProofEngine.Format.MemberIdentity
import ProofEngine.Format.MemberRoundTrip
import ProofEngine.Format.ProofBytes
import ProofEngine.Format.RaisedLimits
import ProofEngine.Format.Record
import ProofEngine.Format.Schema
import ProofEngine.Crypto.Build
import ProofEngine.Crypto.Claim
import ProofEngine.Crypto.Cose
import ProofEngine.Crypto.CoseSound
import ProofEngine.Crypto.Create
import ProofEngine.Crypto.CreateExact
import ProofEngine.Crypto.Envelope
import ProofEngine.Crypto.Id
import ProofEngine.Crypto.ProofBinding
import ProofEngine.Crypto.RaisedLimits
import ProofEngine.Crypto.StatusBuild
import ProofEngine.Graph.Chains
import ProofEngine.Graph.CycleChecks
import ProofEngine.Graph.DepthFirst
import ProofEngine.Graph.Edges
import ProofEngine.Graph.RaisedLimits
import ProofEngine.Graph.Validate
import ProofEngine.Verify.Bounds
import ProofEngine.Verify.Builder
import ProofEngine.Verify.BuilderOrder
import ProofEngine.Verify.BuilderVerifies
import ProofEngine.Verify.ConflictsExact
import ProofEngine.Verify.Context
import ProofEngine.Verify.Descendants
import ProofEngine.Verify.Determinism
import ProofEngine.Verify.Dimensions
import ProofEngine.Verify.Evidence
import ProofEngine.Verify.EvidencePrecedence
import ProofEngine.Verify.FeedGate
import ProofEngine.Verify.FeedLaws
import ProofEngine.Verify.GraphFacts
import ProofEngine.Verify.GraphVerdict
import ProofEngine.Verify.Lifecycle
import ProofEngine.Verify.LifecycleSound
import ProofEngine.Verify.MemberIds
import ProofEngine.Verify.MemberOrder
import ProofEngine.Verify.Pipeline
import ProofEngine.Verify.PipelineSound
import ProofEngine.Verify.Profiles
import ProofEngine.Verify.Report
import ProofEngine.Verify.Resolve
import ProofEngine.Verify.ResolveAuthentic
import ProofEngine.Verify.ResolveDepth
import ProofEngine.Verify.ResolveSearch
import ProofEngine.Verify.Signatures
import ProofEngine.Verify.StatusInputs
import ProofEngine.Verify.Totality
import ProofEngine.Verify.Verdicts
import ProofEngine.Policy.Authority
import ProofEngine.Policy.Canonical
import ProofEngine.Policy.Combine
import ProofEngine.Policy.Eval
import ProofEngine.Policy.EvidenceBindings
import ProofEngine.Policy.Explain
import ProofEngine.Policy.ExpressionShape
import ProofEngine.Policy.LeafGuarantees
import ProofEngine.Policy.MemberOrder
import ProofEngine.Policy.Migration
import ProofEngine.Policy.Pairing
import ProofEngine.Policy.Parse
import ProofEngine.Policy.PathSearch
import ProofEngine.Policy.Policy
import ProofEngine.Policy.Projection
import ProofEngine.Policy.ShortestPath
import ProofEngine.Policy.State
import ProofEngine.Policy.TrustMonotone
import ProofEngine.Policy.ZeroClock
import ProofEngine.Cli.Acceptance
import ProofEngine.Cli.Args
import ProofEngine.Cli.Artifact
import ProofEngine.Cli.ArtifactFiles
import ProofEngine.Cli.ArtifactSound
import ProofEngine.Cli.Batch
import ProofEngine.Cli.Build
import ProofEngine.Cli.CommandLine
import ProofEngine.Cli.Compose
import ProofEngine.Cli.ComposeDivergence
import ProofEngine.Cli.ComposeExact
import ProofEngine.Cli.ComposeUnion
import ProofEngine.Cli.Evaluate
import ProofEngine.Cli.FieldSpecs
import ProofEngine.Cli.FileStore
import ProofEngine.Cli.FreeIdentity
import ProofEngine.Cli.Ingest
import ProofEngine.Cli.IngestBatch
import ProofEngine.Cli.Input
import ProofEngine.Cli.Seen
import ProofEngine.Cli.StrictRuns
import ProofEngine.Cli.Verify
import ProofEngine.Api.Evaluate
import ProofEngine.Api.EvaluateExact
import ProofEngine.Api.Ingest
import ProofEngine.Api.IngestRuns
import ProofEngine.Api.RequestText
import ProofEngine.Api.Route
import ProofEngine.Api.Server
import ProofEngine.Api.ServerExact
import ProofEngine.Api.ServerRuns
import ProofEngine.Scitt.Map
import ProofEngine.Scitt.Statement
import ProofEngine.Interop.Base64
import ProofEngine.Interop.Binding
import ProofEngine.Interop.CodecAgrees
import ProofEngine.Interop.Envelope
import ProofEngine.Interop.Members
import ProofEngine.Interop.MiniCbor
import ProofEngine.Interop.Pengine
import ProofEngine.Interop.Readable
import ProofEngine.Interop.VerifyExact
