namespace Stubwright.Shell.Signal

def names : List String :=
  ["EXIT", "HUP", "INT", "QUIT", "ILL", "TRAP", "ABRT", "BUS", "FPE", "KILL", "USR1", "SEGV",
    "USR2", "PIPE", "ALRM", "TERM", "STKFLT", "CHLD", "CONT", "STOP", "TSTP", "TTIN", "TTOU",
    "URG", "XCPU", "XFSZ", "VTALRM", "PROF", "WINCH", "IO", "PWR", "SYS"]

def count : Nat := 65

def kill : Nat := 9

def terminate : Nat := 15

/-- Signals that do nothing to a process that has not asked for them. -/
def harmless : List Nat := [17, 18, 23, 28]

def nameOf (number : Nat) : String :=
  match names[number]? with
  | some name => name
  | none =>
      if number < 50 then if number = 34 then "RTMIN" else s!"RTMIN+{number - 34}"
      else if number = 64 then "RTMAX" else s!"RTMAX-{64 - number}"

def ofText? (text : String) : Option Nat :=
  if !text.isEmpty && text.all Char.isDigit then
    text.toNat?.filter (· < count)
  else (List.range count).find? fun number => nameOf number = text.map Char.toUpper

def epitaph (number : Nat) : Option String :=
  match number with
  | 1 => some "Hangup"
  | 3 => some "Quit"
  | 4 => some "Illegal instruction"
  | 5 => some "Trace/breakpoint trap"
  | 6 => some "Aborted"
  | 7 => some "Bus error"
  | 8 => some "Floating point exception"
  | 9 => some "Killed"
  | 10 => some "User defined signal 1"
  | 11 => some "Segmentation fault"
  | 12 => some "User defined signal 2"
  | 14 => some "Alarm clock"
  | 15 => some "Terminated"
  | _ => none

end Stubwright.Shell.Signal
