import Stubwright.Text.Alphanumeric
import Stubwright.Text.Blank
import Stubwright.Text.Pieces
import Stubwright.Text.ModifiedUtf8
import Stubwright.TypeName
import Stubwright.Declaration
import Stubwright.ClassFile.Descriptor
import Stubwright.Failure
import Stubwright.ClassFile.Declared
import Stubwright.Json.Reader
import Stubwright.Json.Writer
import Stubwright.Json.Record
import Stubwright.Catalog.Basic
import Stubwright.Hierarchy.Assembler
import Stubwright.Stub.Synthesis
import Stubwright.Stub.Target
import Stubwright.Disk.Action
import Stubwright.Archive.Basic
import Stubwright.Archive.Packing
import Stubwright.Catalog.Load
import Stubwright.ClassPath
import Stubwright.Stub.Emission
import Stubwright.Packaging
import Stubwright.Shell.Program
import Stubwright.Toolchain.Kit
import Stubwright.Toolchain.KitCompiler
import Stubwright.Toml.Document
import Stubwright.CommandLine.Arguments
import Stubwright.CommandLine.LogLevel
import Stubwright.CommandLine.Parsing
import Stubwright.CommandLine.Run
import Stubwright.CommandLine.Report
import Stubwright.Main
import Stubwright.Proofs.Catalog.RoundTrip
import Stubwright.Proofs.ClassFile.RoundTrip
import Stubwright.Proofs.ClassFile.Extension
import Stubwright.Proofs.ClassFile.DescriptorBytes
import Stubwright.Proofs.Catalog.Merging
import Stubwright.Proofs.Catalog.Completion
import Stubwright.Proofs.Disk.Path
import Stubwright.Proofs.Disk.Change
import Stubwright.Proofs.Disk.Walk
import Stubwright.Proofs.Disk.Tree
import Stubwright.Proofs.Disk.Action
import Stubwright.Proofs.Hierarchy.Relevance
import Stubwright.Proofs.Hierarchy.Agreement
import Stubwright.Proofs.Hierarchy.Resolution
import Stubwright.Proofs.ClassPath.Probing
import Stubwright.Proofs.ClassPath.Search
import Stubwright.Proofs.ClassPath.Entries
import Stubwright.Proofs.Hierarchy.Assembly
import Stubwright.Proofs.Hierarchy.CatalogSource
import Stubwright.Proofs.Hierarchy.Memory
import Stubwright.Proofs.Hierarchy.Grounded
import Stubwright.Proofs.Signature.FirstOccurrence
import Stubwright.Proofs.Signature.Collecting
import Stubwright.Proofs.Stub.AbstractMembers
import Stubwright.Proofs.Stub.Implementer
import Stubwright.Proofs.Stub.Containment
import Stubwright.Proofs.Stub.Layout
import Stubwright.Proofs.Stub.Collision
import Stubwright.Proofs.Stub.Construction
import Stubwright.Proofs.Stub.Unambiguous
import Stubwright.Proofs.Stub.Paragraphs
import Stubwright.Proofs.Surface.Specificity
import Stubwright.Proofs.Surface.Walk
import Stubwright.Proofs.Disk.Ancestors
import Stubwright.Proofs.Disk.Growth
import Stubwright.Proofs.Disk.Confinement
import Stubwright.Proofs.Disk.Fresh
import Stubwright.Proofs.Disk.Staged
import Stubwright.Proofs.Archive.Packing
import Stubwright.Proofs.Disk.Clearing
import Stubwright.Proofs.Stub.Emission
import Stubwright.Proofs.Stub.Writing
import Stubwright.Proofs.Stub.Indentation
import Stubwright.Proofs.Stub.ArrayRank
import Stubwright.Proofs.Toolchain.Version
import Stubwright.Proofs.Packaging.Staging
import Stubwright.Proofs.Archive.Single
import Stubwright.Proofs.Disk.Width
import Stubwright.Proofs.Packaging.AllOrNothing
