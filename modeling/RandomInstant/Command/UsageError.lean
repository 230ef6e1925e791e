import RandomInstant.Command.Options
import RandomInstant.Text.ControlSequence
import RandomInstant.Text.Utf8

/-!
# Usage errors

What can be wrong with a command line, and how it is said. Texts from the command line are shown
without control sequences, and with replacement characters where they are no text.
-/

namespace RandomInstant.Command

/-- The options that a configuration is made of: every setting, and the one switch that is kept. -/
inductive Key where
  /-- A setting. -/
  | setting (s : Setting)
  /-- The switch for drawn statement counts. -/
  | drawnStatements
  deriving DecidableEq, Repr

/-- An option as its use is shown. -/
def Key.usage : Key → String
  | .setting s => s.usage
  | .drawnStatements => Switch.drawnStatements.usage

/-- What can be wrong with a command line. -/
inductive UsageError where
  /-- An argument, or the beginning of one, that is no option and no value. -/
  | unexpectedArgument (argument : String)
  /-- A setting without its value. -/
  | missingValue (s : Setting)
  /-- A switch with a value. -/
  | unexpectedValue (value : String) (s : Switch)
  /-- An option that is given twice. -/
  | repeated (k : Key)
  /-- A value that is no text. -/
  | notText
  /-- A value that a setting does not take. -/
  | invalidValue (value : String) (s : Setting) (why : ValueError)
  /-- Two options that exclude each other, in the order in which they were given. -/
  | conflict (k other : Key)
  deriving DecidableEq, Repr

namespace UsageError

/-- A text of the command line as it is shown. -/
def shown (m : Text.Memory) (s : String) : String := "'" ++ Text.withoutControls m s ++ "'"

/-- The wording of an error; `m` is the memory of the filter that its texts go through. -/
def message (m : Text.Memory) : UsageError → String
  | unexpectedArgument argument => "error: unexpected argument " ++ shown m argument ++ " found"
  | missingValue s => "error: a value is required for '" ++ s.usage ++ "' but none was supplied"
  | unexpectedValue value s =>
    "error: unexpected value " ++ shown m value ++ " for '" ++ s.usage
      ++ "' found; no more were expected"
  | repeated k => "error: the argument '" ++ k.usage ++ "' cannot be used multiple times"
  | notText => "error: invalid UTF-8 was detected in one or more arguments"
  | invalidValue value s why =>
    "error: invalid value " ++ shown m value ++ " for '" ++ s.usage ++ "': " ++ why.message
  | conflict k other =>
    "error: the argument '" ++ k.usage ++ "' cannot be used with '" ++ other.usage ++ "'"

end UsageError

end RandomInstant.Command
