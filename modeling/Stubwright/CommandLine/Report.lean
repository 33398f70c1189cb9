import Stubwright.CommandLine.LogLevel
import Stubwright.CommandLine.Parsing
import Stubwright.CommandLine.Run

namespace Stubwright

open Disk

inductive Report where
  | usage (fault : UsageFault)
  | noCommand
  | version
  | done (outcome : Outcome)
  | failed (failure : Failure)
deriving DecidableEq, Repr

namespace CommandLine

def programName : String := "implgen"

def version : String := "0.1.0"

def versionText : String := s!"{programName} {version} - Java implementation synthesizer"

def helpText : String :=
  "\n".intercalate
    [ "Java implementation synthesizer", "",
      s!"Usage: {programName} [COMMAND]", "",
      "Commands:",
      "  generate  Generate an implementation of a class or an interface",
      "  version   Print the version",
      "  help      Print this message", "",
      "Options of generate:",
      "      --archive            Compile the implementation and write it into an archive",
      "  -o, --output <DIR>       Directory of the generated sources",
      "      --classpath <PATHS>  Class path entries",
      "      --catalog <FILE>     Catalog of declarations",
      "      --no-jdk             Leave out the classes of the platform",
      "      --config <FILE>      Configuration file",
      "      --log-level <LEVEL>  How much to tell", "" ]

end CommandLine

def UsageFault.message : UsageFault → String
  | help => CommandLine.helpText
  | programVersion => s!"{CommandLine.programName} {CommandLine.version}\n"
  | unknownArgument => "error: unexpected argument\n"
  | unknownCommand => "error: unrecognized command\n"
  | missingArgument => "error: the type name is missing\n"
  | conflict => "error: an argument cannot be used here or cannot be used twice\n"
  | badValue => "error: a value is missing or empty\n"
  | surplusValue => "error: a flag takes no value\n"

namespace Report

def status : Report → Nat
  | usage fault => fault.exitCode
  | noCommand => 2
  | version | done _ => 0
  | failed failure => failure.exitCode

def output : Report → String
  | usage fault => if fault.isAnswer then fault.message else ""
  | version => CommandLine.versionText ++ "\n"
  | done outcome => outcome.message ++ "\n"
  | noCommand | failed _ => ""

def errors : Report → String
  | usage fault => if fault.isAnswer then "" else fault.message
  | noCommand => CommandLine.helpText
  | failed failure => s!"error[{failure.category}]: {failure.message}\n"
  | version | done _ => ""

end Report

/-- Generates as the arguments and the configuration in the working directory say. -/
def GenerateArguments.runConfigured (host : Host) (arguments : GenerateArguments) :
    Action Failure Outcome := do
  let _ ← LogLevel.resolve arguments.logLevel
  let settings ← Settings.resolve (← get) arguments.config "."
  arguments.run host settings

/-- What the program does for a command line without its own name. -/
def CommandLine.answer (host : Host) (line : List String) : StateM World Report :=
  match parse line with
  | .error fault => pure (.usage fault)
  | .ok .nothing => pure .noCommand
  | .ok .version => pure .version
  | .ok (.generate arguments) => do
      match ← (arguments.runConfigured host).run with
      | .error failure => pure (.failed failure)
      | .ok outcome => pure (.done outcome)

end Stubwright
