import Provenance.Main
import Provenance.Proofs.Assembly.Breaking
import Provenance.Proofs.Assembly.Deadline
import Provenance.Proofs.Assembly.FirstFailure
import Provenance.Proofs.Assembly.Interleaving
import Provenance.Proofs.Assembly.LongerLimit
import Provenance.Proofs.Assembly.WellFormed
import Provenance.Proofs.Reference.Canonical
import Provenance.Proofs.Reference.Pinned
import Provenance.Proofs.Reference.Reprint
import Provenance.Proofs.Data.Entries
import Provenance.Proofs.Data.Places
import Provenance.Proofs.Data.Nested
import Provenance.Proofs.Settings.Tree
import Provenance.Proofs.Settings.Walk
import Provenance.Proofs.Settings.Order
import Provenance.Proofs.Settings.Paths
import Provenance.Proofs.Settings.Layers
import Provenance.Proofs.Yaml.Cells
import Provenance.Proofs.Settings.Load
import Provenance.Proofs.Settings.Precedence
import Provenance.Proofs.Yaml.Filling
import Provenance.Proofs.Assembly.Told
import Provenance.Proofs.Assembly.Gaps
import Provenance.Proofs.CommandLine.Strict
import Provenance.Proofs.Output.JsonLines
import Provenance.Proofs.Output.Table
import Provenance.Proofs.Settings.Save
import Provenance.Proofs.Settings.Outcome
import Provenance.Proofs.CommandLine.Stream
import Provenance.Proofs.CommandLine.Quiet
import Provenance.Proofs.CommandLine.Credentials
import Provenance.Assembly.Session
import Provenance.Proofs.World.Relative
import Provenance.Proofs.Path.Normal
import Provenance.Proofs.Reference.Repinned
import Provenance.Proofs.Assembly.Session
import Provenance.Proofs.Remote.Stable
import Provenance.Proofs.Settings.LastWriter
import Provenance.Proofs.Settings.Frame
import Provenance.Proofs.Reference.Grammar
import Provenance.Proofs.Remote.Host
import Provenance.Proofs.Json.Mended
import Provenance.Proofs.Path.Parent
import Provenance.Proofs.World.Overwrite
import Provenance.Proofs.Settings.Overwrite
import Provenance.Proofs.Assembly.Revision
import Provenance.Proofs.CommandLine.FormatVariable
import Provenance.Proofs.Table.Literal
