import RandomInstant.Command.Run
import Std.Time.DateTime.Timestamp

/-!
# The program

The outer layer: it gathers what a run depends on, writes what the run amounts to, and exits with
its code. What becomes of the output is only known once it has been written, so the report is
asked for a second time when writing has failed.
-/

open RandomInstant

/-- What a failure to write amounts to. -/
def sinkOfError : IO.Error → Command.Sink
  | .resourceVanished _ _ => .closed
  | .resourceExhausted _ code details =>
    .failing (details ++ " (os error " ++ code.toNat.repr ++ ")")
  | .otherError code details => .failing (details ++ " (os error " ++ code.toNat.repr ++ ")")
  | e => .failing (toString e)

/-- Writes a text to the standard output and tells what has become of it. -/
def writeOut (s : String) : IO Command.Sink := do
  let stdout ← IO.getStdout
  try
    stdout.putStr s
    stdout.flush
    return .open
  catch e => return sinkOfError e

/-- The program: its arguments are read, and what comes of them is carried out. -/
def main (arguments : List String) : IO UInt32 := do
  let now ← Std.Time.Timestamp.now
  let invocation : Command.Invocation := {
    arguments := arguments.map Text.utf8
    logSpec := ← IO.getEnv "LOG"
    clock := now.toNanosecondsSinceUnixEpoch.toInt.toNat }
  let report := Command.run invocation
  let output ← if report.stdout.isEmpty then pure .open else writeOut report.stdout
  let report := match output with
    | .open => report
    | output => Command.run { invocation with output }
  (← IO.getStderr).putStr report.stderr
  return report.exit.toUInt32
