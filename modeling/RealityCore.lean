import RealityCore.Library.PythonText
import RealityCore.Library.JavaText
import RealityCore.Library.Hierarchy
import RealityCore.Library.Regex
import RealityCore.Library.Long
import RealityCore.Library.Machine
import RealityCore.Library.Versioned
import RealityCore.Money.Amount
import RealityCore.Money.Expression
import RealityCore.Identity.Identifiers
import RealityCore.Gui.Revision
import RealityCore.Gui.ErrorInfo
import RealityCore.Gui.Session
import RealityCore.Gui.Server
import RealityCore.Archive.EntryPath
import RealityCore.Archive.CanonicalListing
import RealityCore.Archive.CanonicalOrder
import RealityCore.Library.PythonBytes
import RealityCore.Source.Patterns
import RealityCore.Source.PosixPaths
import RealityCore.Library.Outcome
import RealityCore.Source.CheckPath
import RealityCore.Source.TrackedPaths
import RealityCore.Source.ScanRoot
import RealityCore.Source.TrackedFiles
import RealityCore.Library.AscendingDict
import RealityCore.Library.XmlElement
import RealityCore.Metadata.VerifyTree
import RealityCore.Metadata.ReviewedGraph
import RealityCore.Metadata.TrustedDigests
import RealityCore.Library.RegexRuns
import RealityCore.Library.PythonInt
import RealityCore.Workflow.Scalar
import RealityCore.Workflow.Lines
import RealityCore.Workflow.Parser
import RealityCore.Workflow.Grammar
import RealityCore.Workflow.GrammarComplete
import RealityCore.Workflow.KeyLines
import RealityCore.Workflow.Walk
import RealityCore.Workflow.Render
import RealityCore.Workflow.RenderParses
import RealityCore.Workflow.RoundTrip
import RealityCore.Workflow.Reviewed
import RealityCore.Workflow.Canonical
import RealityCore.Workflow.AssertExact
import RealityCore.Workflow.ExactText
import RealityCore.Workflow.Columns
import RealityCore.Workflow.Nesting
import RealityCore.Workflow.InFormat
import RealityCore.Library.RegexWords
import RealityCore.Workflow.RunLines
import RealityCore.Library.DateTime
import RealityCore.Archive.Content
import RealityCore.Archive.ValidateArchive
import RealityCore.Archive.Components
import RealityCore.Archive.CanonicalForm
import RealityCore.Gui.Secrecy
import RealityCore.Source.CanonicalSpelling
import RealityCore.Source.CaseCollisions
import RealityCore.Library.Worklist
import RealityCore.Source.SourcePaths
import RealityCore.Source.Traversal
import RealityCore.Source.ListedSources
import RealityCore.Report.Placement
import RealityCore.Library.CodePoint
import RealityCore.Library.Json
import RealityCore.Sbom.Walk
import RealityCore.Sbom.Timestamps
import RealityCore.Library.JsonDumps
import RealityCore.Sbom.ValidateDocument
import RealityCore.Library.JsonEquality
import RealityCore.Sbom.Exactness
import RealityCore.Source.FirstSpellings
import RealityCore.Workflow.NewlineReader
import RealityCore.Workflow.Cursor
import RealityCore.Library.MapPatch
import RealityCore.Library.JavaCollections
import RealityCore.Gui.Fields
import RealityCore.Gui.Delta
import RealityCore.Library.JavaInstant
import RealityCore.Gui.Redaction
import RealityCore.Workflow.Fuel
import RealityCore.Library.PurePath
import RealityCore.Library.FileSystem
import RealityCore.Publication.Files
import RealityCore.Publication.Pom
import RealityCore.Publication.ReviewedPom
import RealityCore.Library.RegexLanguage
import RealityCore.Library.Glob
import RealityCore.Archive.StagedFile
import RealityCore.Publication.Selection
import RealityCore.Library.Hashing
import RealityCore.Toolchain.Download
import RealityCore.Library.JsonLoads
import RealityCore.Library.PythonRepr
import RealityCore.Publication.Module
import RealityCore.Publication.ReviewedModule
import RealityCore.Library.DictConversion
import RealityCore.Archive.State
import RealityCore.Archive.ReadState
import RealityCore.Workflow.ExactTrees
import RealityCore.Archive.CollectedHashes
import RealityCore.Library.Recorder
import RealityCore.Archive.Reproducibility
import RealityCore.Sbom.Reproducibility
import RealityCore.Publication.VerifyPublication
import RealityCore.Library.Replacement
import RealityCore.Toolchain.Manifest
import RealityCore.Workflow.ParseWorkflow
import RealityCore.Workflow.SelfTest
import RealityCore.Metadata.SelfTest
import RealityCore.Library.Logged
import RealityCore.Toolchain.Properties
import RealityCore.Toolchain.Verify
