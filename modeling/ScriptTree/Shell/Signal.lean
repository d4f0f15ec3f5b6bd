import ScriptTree.Shell.Token

/-!
The signals that a shell may send or wait for, by number and name. Number zero is the end of the
shell itself.
-/

namespace ScriptTree.Shell

/-- The names of the signals. One that has none goes by its number. -/
def signalNames : List String :=
  ["EXIT", "HUP", "INT", "QUIT", "ILL", "TRAP", "ABRT", "BUS", "FPE", "KILL", "USR1", "SEGV",
    "USR2", "PIPE", "ALRM", "TERM", "16", "CHLD", "CONT", "STOP", "TSTP", "TTIN", "TTOU", "URG",
    "XCPU", "XFSZ", "VTALRM", "PROF", "WINCH", "IO", "PWR", "SYS", "32", "33", "RTMIN"] ++
    (List.range 15).map (fun n => s!"RTMIN+{n + 1}") ++
    (List.range 14).map (fun n => s!"RTMAX-{14 - n}") ++ ["RTMAX"]

/-- The signal that ends a process unless it is told otherwise. -/
def terminate : Nat := 15

/-- The signal that always ends a process. -/
def killSignal : Nat := 9

/-- The signal that a process gets for arithmetic that cannot be carried out. -/
def arithmeticSignal : Nat := 8

/-- What is added to the number of the signal that ended a process to make its status. -/
def signalStatus : Nat := 128

/-- The signals that do nothing to a process that is not told otherwise. -/
def harmlessSignals : List Nat := [17, 18, 23, 28]

/-- The name of a signal. -/
def signalName (n : Nat) : String :=
  signalNames.getD n ""

/-- The signal that a word names from `first` on, by its number or its name. -/
def signalOf? (first : Nat) (word : Bytes) : Option Nat :=
  if !word.isEmpty && word.all Char.isDigit then
    if decimal word < signalNames.length then some (decimal word) else none
  else
    match signalNames.idxOf? (String.ofList (word.map Char.toUpper)) with
    | some n => if first ≤ n then some n else none
    | none => none

end ScriptTree.Shell
