import Conformance.Cli.Command
import Conformance.Machine.Files

/-!
# The program

Runs a command line on a machine in memory. The files of the machine are read from standard input, as one
JSON object from paths to texts; nothing is read if standard input is empty.
-/
namespace Conformance

/-- All lines that are still to come from a stream. -/
partial def readAll (stream : IO.FS.Stream) (read : String) : IO String := do
  let line ← stream.getLine
  if line.isEmpty then return read else readAll stream (read ++ line)

/-- The configuration file that is read if none is named. -/
def usualConfig : String := "/.config/rpctest/config.toml"

end Conformance

open Conformance in
/-- Carries out the command line, and gives the exit code. -/
def main (args : List String) : IO UInt32 := do
  let input ← readAll (← IO.getStdin) ""
  match if input.trimWhite = "" then some [] else Machine.filesOf? input with
  | none =>
    IO.eprintln "error: standard input is no JSON object from paths to texts"
    return 2
  | some files =>
    let (answer, _) :=
      Cli.perform Machine.outside Runs.secondsText (some usualConfig) args (Machine.worldOf files)
    IO.print answer.stdout
    IO.eprint answer.stderr
    return UInt32.ofNat answer.code
