import Stubwright.ClassFile.Fault
import Stubwright.Toolchain.Fault

namespace Stubwright

inductive ArgumentFault where
  | emptyTypeName
  | emptyOutputRoot
  | emptyArchivePath
  | archivePathMissing
  | strayArchivePath (path : String)
  | badCatalog (path : String)
  | badConfiguration
  | unreadableConfiguration (path : String)
  | badConfigurationFile (path : String)
  | badLogLevel (level : String)
  | stated (text : String)
deriving DecidableEq, Repr

def ArgumentFault.message : ArgumentFault → String
  | emptyTypeName => "type name must not be empty"
  | emptyOutputRoot => "output root must not be empty"
  | emptyArchivePath => "archive path must not be empty"
  | archivePathMissing => "--archive requires an archive path"
  | strayArchivePath path =>
      s!"unexpected argument '{path}'; pass --archive to package the implementation"
  | badCatalog path => s!"catalog {path}"
  | badConfiguration => "invalid implgen configuration"
  | unreadableConfiguration path => s!"failed to read {path}"
  | badConfigurationFile path => s!"failed to parse {path}"
  | badLogLevel level => s!"invalid --log-level '{level}'"
  | stated text => text

inductive Ineligibility where
  | primitiveType
  | arrayType
  | enumType
  | finalType
  | sealedType
  | stated (text : String)
deriving DecidableEq, Repr

def Ineligibility.message : Ineligibility → String
  | primitiveType => "primitive types cannot be implemented"
  | arrayType => "array types cannot be implemented"
  | enumType => "enum types cannot be extended"
  | finalType => "type is final"
  | sealedType => "type is sealed"
  | stated text => text

/-- Why the members of a type cannot be told. -/
inductive Obscurity where
  | emptyName
  | unknownType
  | unknownSupertype (name : String)
  /-- The types on the way to one that inherits from itself, in the order in which they are met. -/
  | cyclic (path : List String)
  | badClassFile (origin : String) (fault : ClassFile.Fault)
  | stated (text : String)
deriving DecidableEq, Repr

def Obscurity.message : Obscurity → String
  | emptyName => "type name is empty"
  | unknownType => "type not found on the class path or in any catalog"
  | unknownSupertype name => s!"supertype '{name}' cannot be resolved"
  | cyclic path => "cyclic inheritance through " ++ " -> ".intercalate path
  | badClassFile origin fault => s!"{origin}: {fault.message}"
  | stated text => text

inductive CompileFault where
  | noKit (fault : Toolchain.KitFault)
  /-- An entry of the class path holds the character that separates entries. -/
  | separatorInClassPath
  | cannotRun (program : String) (fault : Disk.Fault)
  | exitStatus (status : Int) (diagnostics : String)
  | noClassFile (path : String)
  | stated (text : String)
deriving DecidableEq, Repr

def CompileFault.message : CompileFault → String
  | noKit fault => fault.message
  | separatorInClassPath => "invalid class path: path segment contains separator \x60:\x60"
  | cannotRun program fault => s!"failed to run '{program}': {fault.message}"
  | exitStatus status diagnostics => s!"compiler exited with status {status}: {diagnostics}"
  | noClassFile path => s!"compiled class not found at {path}"
  | stated text => text

inductive ArchiveFault where
  | cannotCreateDirectory (path : String) (fault : Disk.Fault)
  | cannotRead (path : String) (fault : Disk.Fault)
  | cannotWriteEntry (name : String) (fault : Disk.Fault)
  | cannotFinish (fault : Disk.Fault)
  | disk (fault : Disk.Fault)
  | stated (text : String)
deriving DecidableEq, Repr

def ArchiveFault.message : ArchiveFault → String
  | cannotCreateDirectory path fault => s!"cannot create directory {path}: {fault.message}"
  | cannotRead path fault => s!"cannot read {path}: {fault.message}"
  | cannotWriteEntry name fault => s!"cannot write entry {name}: {fault.message}"
  | cannotFinish fault => s!"cannot finish archive: {fault.message}"
  | disk fault => fault.message
  | stated text => text

inductive Failure where
  | invalidArgument (cause : ArgumentFault)
  | notImplementable (type : String) (cause : Ineligibility)
  | notIntrospectable (type : String) (cause : Obscurity)
  | noAccessibleConstructor (type : String)
  | pathConflict (path : String)
  | accessDenied (path : String) (cause : Disk.Fault)
  | ioFailure (path : String) (cause : Disk.Fault)
  | compileFailure (unit : String) (cause : CompileFault)
  | archiveFailure (path : String) (cause : ArchiveFault)
deriving DecidableEq, Repr

namespace Failure

def ofDisk (path : String) (fault : Disk.Fault) : Failure :=
  if fault.isDenial then accessDenied path fault else ioFailure path fault

def category : Failure → String
  | invalidArgument _ => "InvalidArgument"
  | notImplementable .. => "NotImplementable"
  | notIntrospectable .. => "NotIntrospectable"
  | noAccessibleConstructor _ => "NoAccessibleConstructor"
  | pathConflict _ => "PathConflict"
  | accessDenied .. => "AccessDenied"
  | ioFailure .. => "IOFailure"
  | compileFailure .. => "CompileFailure"
  | archiveFailure .. => "ArchiveFailure"

/-- The exit status of a run that ends with the failure. Lower ones stand for success and for
arguments that cannot be read. -/
def exitCode : Failure → Nat
  | invalidArgument _ => 3
  | notImplementable .. => 4
  | notIntrospectable .. => 5
  | noAccessibleConstructor _ => 6
  | pathConflict _ => 7
  | accessDenied .. => 8
  | ioFailure .. => 9
  | compileFailure .. => 10
  | archiveFailure .. => 11

def message : Failure → String
  | invalidArgument cause => s!"invalid argument: {cause.message}"
  | notImplementable type cause => s!"type '{type}' cannot be implemented: {cause.message}"
  | notIntrospectable type cause => s!"type '{type}' cannot be introspected: {cause.message}"
  | noAccessibleConstructor type =>
      s!"class '{type}' has no non-private constructor to delegate to"
  | pathConflict path => s!"cannot create directory: '{path}' exists and is not a directory"
  | accessDenied path cause => s!"access denied: {path}: {cause.message}"
  | ioFailure path cause => s!"I/O error at {path}: {cause.message}"
  | compileFailure unit cause => s!"compilation of '{unit}' failed: {cause.message}"
  | archiveFailure path cause => s!"cannot write archive '{path}': {cause.message}"

end Failure

end Stubwright
