import Stubwright.Disk.Fault

namespace Stubwright.Toolchain

inductive MissingKit where
  | configured (path : String)
  | nowhere
  | cannotRun (program : String) (fault : Disk.Fault)
deriving DecidableEq, Repr

def MissingKit.message : MissingKit → String
  | configured path => s!"configured javac '{path}' does not exist"
  | nowhere => "unable to locate 'javac'; set JAVA_HOME or put a JDK on PATH"
  | cannotRun program fault => s!"failed to run '{program} -version': {fault.message}"

inductive VersionFault where
  | noToken
  | badToken
deriving DecidableEq, Repr

def VersionFault.message : VersionFault → String
  | noToken => "no version token in output"
  | badToken => "unsupported version token format"

inductive KitFault where
  | notFound (cause : MissingKit)
  | versionUnknown (cause : VersionFault)
  | tooOld (detected required : Nat)
deriving DecidableEq, Repr

def KitFault.message : KitFault → String
  | notFound cause => s!"JDK not found: {cause.message}"
  | versionUnknown cause => s!"cannot determine JDK version: {cause.message}"
  | tooOld detected required => s!"JDK {detected} is older than the requested release {required}"

end Stubwright.Toolchain
