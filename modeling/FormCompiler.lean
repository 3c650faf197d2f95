import FormCompiler.Main
import FormCompiler.Proofs.Cache.Stability
import FormCompiler.Proofs.Layout.Attributes
import FormCompiler.Proofs.Layout.Containment
import FormCompiler.Proofs.Layout.Independence
import FormCompiler.Proofs.Layout.Steadiness
import FormCompiler.Proofs.Cache.Attachment
import FormCompiler.Proofs.Layout.Coherence
import FormCompiler.Proofs.Cache.Trace
import FormCompiler.Proofs.Resolution.Calls
import FormCompiler.Proofs.Layout.Calls
import FormCompiler.Proofs.Json.Record
import FormCompiler.Proofs.Schema.ReadBack
import FormCompiler.Proofs.Layout.ReadBack
import FormCompiler.Proofs.Table.Insertion
import FormCompiler.Proofs.Layout.Requirement
import FormCompiler.Proofs.Cache.Retry
import FormCompiler.Proofs.Layout.Sharing
import FormCompiler.Proofs.Environment
import FormCompiler.Proofs.Table.Functions
import FormCompiler.Proofs.Endpoint.Reachability
import FormCompiler.Proofs.Endpoint.Document
import FormCompiler.Proofs.Layout.Sources
import FormCompiler.Proofs.Resolution.Degradation
import FormCompiler.Proofs.Form.Notices
import FormCompiler.Proofs.Layout.Extensions
import FormCompiler.Proofs.Workspace
import FormCompiler.Proofs.Form.Counts
import FormCompiler.Proofs.Table.Path
