import CilAtlas.Text.Basic
import CilAtlas.Text.Numeral
import CilAtlas.Text.Blank
import CilAtlas.Text.Digit
import CilAtlas.Text.Utf8
import CilAtlas.Text.Terminal
import CilAtlas.Text.Utf16
import CilAtlas.Text.Quoted
import CilAtlas.Bits
import CilAtlas.OrderedMap
import CilAtlas.Metadata.Handle
import CilAtlas.Blob.Reader
import CilAtlas.Signature.Basic
import CilAtlas.Signature.Reader
import CilAtlas.Signature.Text
import CilAtlas.Decimal.Double
import CilAtlas.Decimal.Shortest
import CilAtlas.Json.Basic
import CilAtlas.Json.Reader
import CilAtlas.Json.Writer
import CilAtlas.Digest.Sha256
import CilAtlas.Body.Image
import CilAtlas.Body.Fault
import CilAtlas.Body.Extent
import CilAtlas.Body.Opcode
import CilAtlas.Body.Instruction
import CilAtlas.Body.Reader
import CilAtlas.Body.Decode
import CilAtlas.Metadata.Row
import CilAtlas.Metadata.Store
import CilAtlas.Identity.Entity
import CilAtlas.Identity.TypeName
import CilAtlas.Identity.Describe
import CilAtlas.Identity.Document
import CilAtlas.Identity.OfDocument
import CilAtlas.Calls.Target
import CilAtlas.Calls.Pending
import CilAtlas.Calls.Table
import CilAtlas.Calls.TableStep
import CilAtlas.Calls.Scan
import CilAtlas.Listing.LocalSlot
import CilAtlas.Listing.Basic
import CilAtlas.Report.Basic
import CilAtlas.Report.Analysis
import CilAtlas.Text.Printable
import CilAtlas.Text.Shown
import CilAtlas.Text.Integer
import CilAtlas.Json.Display
import CilAtlas.Disk.Name
import CilAtlas.Disk.Path
import CilAtlas.Disk.Tree
import CilAtlas.Graph.Basic
import CilAtlas.Graph.OfDocument
import CilAtlas.Graph.Programs
import CilAtlas.Graph.Merge
import CilAtlas.Graph.Document
import CilAtlas.Graph.GraphMl
import CilAtlas.Assembly.Cell
import CilAtlas.Assembly.UserStrings
import CilAtlas.Assembly.Convert
import CilAtlas.Assembly.Schema
import CilAtlas.Assembly.Numbers
import CilAtlas.Assembly.Executable
import CilAtlas.Assembly.TableStream
import CilAtlas.Assembly.PortableExecutable
import CilAtlas.Packing.Checksum
import CilAtlas.Packing.Pieces
import CilAtlas.Packing.Gzip
import CilAtlas.Packing.Bzip2
import CilAtlas.Packing.OfPath
import CilAtlas.Run.Settings
import CilAtlas.Run.Session
import CilAtlas.Run.Analyze
import CilAtlas.Run.Export
import CilAtlas.CommandLine.Arguments
import CilAtlas.CommandLine.Commands
import CilAtlas.Metadata.Document
import CilAtlas.Main
import CilAtlas.Proofs.Numerals
import CilAtlas.Proofs.StoreRows
import CilAtlas.Proofs.Outcomes
import CilAtlas.Proofs.IdentityKeys
import CilAtlas.Proofs.SignatureGrammar
import CilAtlas.Proofs.BlobReading
import CilAtlas.Proofs.SignatureReading
import CilAtlas.Proofs.SignatureText
import CilAtlas.Proofs.AnalysisShape
import CilAtlas.Proofs.GraphDrawing
import CilAtlas.Proofs.AnalysisGraph
import CilAtlas.Proofs.BodyExtent
import CilAtlas.Proofs.Escapes
import CilAtlas.Proofs.SoftFailures
import CilAtlas.Proofs.BodyConfinement
import CilAtlas.Proofs.EntryLocality
import CilAtlas.Proofs.ScanOrder
import CilAtlas.Proofs.ConvertedStore
import CilAtlas.Proofs.LiteralExtraction
import CilAtlas.Proofs.UnquotedNames
import CilAtlas.Proofs.ListedStrings
import CilAtlas.Proofs.GeneratedMethods
import CilAtlas.Proofs.JsonReading
import CilAtlas.Proofs.SignatureConsumption
import CilAtlas.Proofs.Utf8Encoding
import CilAtlas.Proofs.JsonWriting
import CilAtlas.Proofs.ReportRoundTrip
import CilAtlas.Proofs.GraphComposition
import CilAtlas.Proofs.MergedGraphs
import CilAtlas.Proofs.BranchTables
import CilAtlas.Proofs.WiderWindows
import CilAtlas.Proofs.ExtentWalk
import CilAtlas.Proofs.MadeDirectories
import CilAtlas.Proofs.ClosedRuns
import CilAtlas.Proofs.CallTargets
import CilAtlas.Proofs.CollectedCalls
import CilAtlas.Proofs.SharedBodies
import CilAtlas.Proofs.LocalAccess
import CilAtlas.Proofs.DeadStores
import CilAtlas.Proofs.LiteralContexts
import CilAtlas.Proofs.DocumentReading
import CilAtlas.Proofs.DocumentGraphs
import CilAtlas.Proofs.ImportedMembers
import CilAtlas.Proofs.ParameterNames
import CilAtlas.Proofs.NestedNames
import CilAtlas.Proofs.GenericInstances
import CilAtlas.Proofs.CodeDumps
import CilAtlas.Proofs.CompressedNumbers
import CilAtlas.Proofs.TableHistory
