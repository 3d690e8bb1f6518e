import ReleaseMatrix.Main
import ReleaseMatrix.Config.Json
import ReleaseMatrix.Proofs.FileTree.Lookup
import ReleaseMatrix.Proofs.FileTree.Walk
import ReleaseMatrix.Proofs.FileTree.Slot
import ReleaseMatrix.Proofs.FileTree.Change
import ReleaseMatrix.Proofs.Release.Phases
import ReleaseMatrix.Proofs.Archive.Temporary
import ReleaseMatrix.Proofs.Archive.Complete
import ReleaseMatrix.Proofs.Archive.AllOrNothing
import ReleaseMatrix.Proofs.Archive.Format
import ReleaseMatrix.Proofs.Archive.RoundTrip
import ReleaseMatrix.Proofs.Deflate.Bits
import ReleaseMatrix.Proofs.Deflate.Code
import ReleaseMatrix.Proofs.Deflate.Size
import ReleaseMatrix.Proofs.Text.Utf8
import ReleaseMatrix.Proofs.Release.OwnBinary
import ReleaseMatrix.Proofs.Config.Validation
import ReleaseMatrix.Proofs.Release.OutputNames
import ReleaseMatrix.Proofs.Release.Described
import ReleaseMatrix.Proofs.FileTree.Child
import ReleaseMatrix.Proofs.FileTree.Edits
import ReleaseMatrix.Proofs.FileTree.Parent
import ReleaseMatrix.Proofs.FileTree.Directories
import ReleaseMatrix.Proofs.Archive.SameResult
import ReleaseMatrix.Proofs.Release.Outputs
import ReleaseMatrix.Proofs.Release.Isolation
import ReleaseMatrix.Proofs.Release.Amendments
import ReleaseMatrix.Proofs.Release.Deed
import ReleaseMatrix.Proofs.Release.Rerun
import ReleaseMatrix.Proofs.Variant.Target
import ReleaseMatrix.Proofs.Release.Planning
import ReleaseMatrix.Proofs.Cli.Listing
import ReleaseMatrix.Proofs.Cli.Checking
import ReleaseMatrix.Proofs.Release.DryRun
import ReleaseMatrix.Proofs.Build.Commands
import ReleaseMatrix.Proofs.Release.Errors
import ReleaseMatrix.Proofs.Release.FatalErrors
import ReleaseMatrix.Proofs.Build.Recoding
import ReleaseMatrix.Proofs.Release.SameEffect
import ReleaseMatrix.Proofs.Cli.ExitStatus
import ReleaseMatrix.Proofs.Variant.Descriptor
import ReleaseMatrix.Proofs.Json.Fields
import ReleaseMatrix.Proofs.Config.Json
import ReleaseMatrix.Proofs.Json.Text
import ReleaseMatrix.Proofs.Json.RoundTrip
import ReleaseMatrix.Proofs.Json.Sorted
import ReleaseMatrix.Proofs.Release.Rendered
import ReleaseMatrix.Proofs.Text.ByteOrder
import ReleaseMatrix.Proofs.Variant.Overlay
import ReleaseMatrix.Proofs.FileTree.Join
import ReleaseMatrix.Proofs.Build.Layout
import ReleaseMatrix.Proofs.Build.OutputDirectory
import ReleaseMatrix.Proofs.Time.Printing
import ReleaseMatrix.Proofs.Build.Stamp
import ReleaseMatrix.Proofs.Config.Search
import ReleaseMatrix.Proofs.Config.Enclosing
import ReleaseMatrix.Proofs.Host.Lookup
import ReleaseMatrix.Proofs.Build.FoundTools
import ReleaseMatrix.Proofs.Cli.Init
import ReleaseMatrix.Proofs.Build.CommandLine
import ReleaseMatrix.Proofs.Variant.ReadBack
import ReleaseMatrix.Proofs.Release.Accounting
import ReleaseMatrix.Proofs.Variant.Narrowing
import ReleaseMatrix.Proofs.Build.Pinned
import ReleaseMatrix.Proofs.ByteSize.Display
