import RandomInstant.Command.Arguments
import RandomInstant.Command.Help
import RandomInstant.Log.Filter
import RandomInstant.Program.Generate

/-!
# Running the program

What the program writes and how it exits, as a function of everything it depends on: its
arguments, the specification of its log, the clock, and what becomes of its output.

* Without errors the program text and a line end are written and the exit code is 0.
* A usage error exits with 2, and so does an output that cannot be written; a reader that has lost
  interest is no error.
* A configuration that is refused exits with 3, before anything is logged.
-/

namespace RandomInstant.Command

open Text (Bytes)

/-- What becomes of the standard output. -/
inductive Sink where
  /-- It is taken. -/
  | open
  /-- Nobody reads it any more. -/
  | closed
  /-- It cannot be written, for a reason. -/
  | failing (reason : String)
  deriving DecidableEq, Repr

/-- An output for which no room is left. -/
def Sink.full : Sink := .failing "No space left on device (os error 28)"

/-- What of a text reaches an output. -/
def Sink.received : Sink → String → String
  | .open, s => s
  | .closed, _ => ""
  | .failing _, _ => ""

/-- What a run of the program depends on. -/
structure Invocation where
  /-- The arguments, without the name of the program. -/
  arguments : List Bytes
  /-- The specification of the log, if there is one. -/
  logSpec : Option String := none
  /-- The time in nanoseconds. -/
  clock : Nat := 0
  /-- What becomes of the standard output. -/
  output : Sink := .open
  deriving DecidableEq, Repr

/-- What a run of the program amounts to. -/
structure Report where
  /-- The exit code. -/
  exit : UInt8
  /-- What reaches the standard output. -/
  stdout : String
  /-- What is written to the standard error output. -/
  stderr : String
  deriving DecidableEq, Repr

/-- The specification of the log where none is given. -/
def defaultLogSpec : String := "instgen=warn"

/-- An error that is not one of usage, as it is shown. -/
def errorLine (message : String) : String := "Error: " ++ message ++ "\n"

/-- The seed: the one that was given or, truncated to a word, the time. -/
def Options.seedAt (o : Options) (clock : Nat) : UInt64 := o.seed.getD clock.toUInt64

/-- The records that a run with a configuration, a seed and a generation logs. -/
def logRecords (c : Config) (seed : UInt64) (g : Generation) : List Log.Record :=
  ⟨.debug, "instgen", c.label⟩ :: ⟨.info, "instgen", "seed: " ++ seed.toNat.repr⟩ :: g.log seed

/-- The lines of the records that a filter lets through. -/
def logText (f : Log.Filter) (records : List Log.Record) : String :=
  String.join ((records.filter f.admits).map Log.Record.line)

/-- Generates a program and writes it. A generation that comes to no end, which no configuration
that was validated has below the greatest depth, exits with a code of its own. -/
def generateAndWrite (o : Options) (seed : UInt64) (f : Log.Filter) (output : Sink) : Report :=
  let c := o.config
  let g := generate c seed
  let logged := logText f (logRecords c seed g)
  match g.outcome with
  | .fault e => ⟨101, "", logged ++ errorLine e.message⟩
  | .unfinished => ⟨134, "", logged ++ errorLine "expressions are nested too deeply"⟩
  | .done p =>
    match output with
    | .open => ⟨0, p.text ++ "\n", logged⟩
    | .closed => ⟨0, "", logged⟩
    | .failing reason => ⟨2, "", logged ++ errorLine reason⟩

/-- Runs the program with options that were read. -/
def runOptions (o : Options) (clock : Nat) (f : Log.Filter) (output : Sink) : Report :=
  match o.config.problem? with
  | some e => ⟨3, "", errorLine ("invalid configuration: " ++ e.message)⟩
  | none => generateAndWrite o (o.seedAt clock) f output

/-- Runs the program with what came of reading its arguments. -/
def runRead (read : Except Interruption Options) (clock : Nat) (f : Log.Filter) (output : Sink) :
    Report :=
  match read with
  | .error (.help full) => ⟨0, output.received (if full then Help.full else Help.short), ""⟩
  | .error .version => ⟨0, output.received Help.version, ""⟩
  | .error (.misuse e) => ⟨2, "", e.message .stream ++ "\n"⟩
  | .ok o => runOptions o clock f output

/-- Runs the program. Warnings about the specification of the log come first. -/
def run (i : Invocation) : Report :=
  let (f, warnings) := Log.Filter.ofSpec (i.logSpec.getD defaultLogSpec)
  let r := runRead (Options.ofArguments i.arguments) i.clock f i.output
  { r with stderr := String.join warnings ++ r.stderr }

end RandomInstant.Command
