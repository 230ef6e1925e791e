import RandomInstant.Command.UsageError

/-!
# Reading arguments

Arguments are read from left to right. A setting takes its value from the same argument
(`--seed=1`, `-n1`, `-n=1`) or from the next one; in the latter case the value is held back and
settled only when the next option, or the end, is reached. So an argument that is no option at all
is complained about before a value that is held back.

* An argument that begins with a hyphen is an option and never the value of the option before it,
  except for the hyphen alone, which can only be a value.
* After `--` nothing more may come.
* A request for help or for the version ends the reading where it stands.
-/

namespace RandomInstant.Command

open Text (Bytes utf8 ofUtf8? ofUtf8Lossy)

/-! ## The forms of arguments -/

/-- The byte of the hyphen. -/
def hyphen : UInt8 := 0x2d

/-- The byte of the sign of equality. -/
def equality : UInt8 := 0x3d

/-- What the hyphens at its beginning make of an argument. -/
inductive Form where
  /-- Two hyphens and nothing else. -/
  | terminator
  /-- What follows two hyphens. -/
  | long (body : Bytes)
  /-- The byte that follows a single hyphen, and the bytes after it. -/
  | short (letter : UInt8) (rest : Bytes)
  /-- No option: no hyphen, or a hyphen alone. -/
  | value
  deriving DecidableEq, Repr

/-- The form of an argument. -/
def Form.ofArgument : Bytes → Form
  | a :: b :: rest =>
    if a = hyphen then
      if b = hyphen then
        if rest = [] then .terminator else .long rest
      else .short b rest
    else .value
  | _ => .value

/-- Two hyphens and something behind them are a long option. -/
theorem Form.ofArgument_long {body : Bytes} (h : body ≠ []) :
    Form.ofArgument (hyphen :: hyphen :: body) = .long body := by
  simp [ofArgument, h]

/-- One hyphen before a letter is a short option, whatever follows the letter. -/
theorem Form.ofArgument_short {letter : UInt8} (h : letter ≠ hyphen) (rest : Bytes) :
    Form.ofArgument (hyphen :: letter :: rest) = .short letter rest := by
  simp [ofArgument, h]

/-- The values are the arguments that do not begin with a hyphen, and the hyphen alone. -/
theorem Form.ofArgument_eq_value_iff {argument : Bytes} :
    Form.ofArgument argument = .value ↔
      argument.head? ≠ some hyphen ∨ argument = [hyphen] := by
  fun_cases Form.ofArgument argument with
  | case1 => simp
  | case2 => simp
  | case3 => simp
  | case4 a b rest h => simp [h]
  | case5 argument h =>
    match argument, h with
    | [], _ => simp
    | [a], _ => simp [Classical.em, or_comm]
    | a :: b :: rest, h => exact absurd rfl (h a b rest)

/-! ## The state of reading -/

/-- What is still to be settled. -/
inductive Pending where
  /-- Nothing. -/
  | nothing
  /-- A setting that waits for its value. -/
  | waiting (s : Setting)
  /-- A setting whose value is held back. -/
  | held (s : Setting) (value : Bytes)
  deriving DecidableEq, Repr

/-- What keeps the reading from its end. -/
inductive Interruption where
  /-- A request for help, in full or in short. -/
  | help (full : Bool)
  /-- A request for the version. -/
  | version
  /-- Something that is wrong. -/
  | misuse (e : UsageError)
  deriving DecidableEq, Repr

/-- How far the reading has come. -/
structure Reader where
  /-- The options settled so far. -/
  options : Options := {}
  /-- Which of them those are, in the order in which they were settled. -/
  given : List Key := []
  /-- What is still to be settled. -/
  pending : Pending := .nothing
  /-- Whether options have come to an end. -/
  ended : Bool := false
  deriving DecidableEq, Repr

namespace Reader

/-- Stops with something that is wrong. -/
def refuse {α : Type} (e : UsageError) : Except Interruption α := .error (.misuse e)

/-- Settles a setting with its value. It is looked at first whether the setting was given before,
then whether the value is a text, and what the text means last. -/
def assign (r : Reader) (s : Setting) (value : Bytes) : Except Interruption Reader :=
  if .setting s ∈ r.given then refuse (.repeated (.setting s))
  else match ofUtf8? value with
    | none => refuse .notText
    | some text =>
      match r.options.set s text with
      | .error why => refuse (.invalidValue text s why)
      | .ok options => .ok { r with options, given := r.given ++ [.setting s] }

/-- Settles what is pending. -/
def settle (r : Reader) : Except Interruption Reader :=
  match r.pending with
  | .nothing => .ok r
  | .waiting s => refuse (.missingValue s)
  | .held s value => { r with pending := .nothing }.assign s value

/-- Goes on to a setting, whose value may already be there. -/
def onSetting (r : Reader) (s : Setting) (value : Option Bytes) : Except Interruption Reader := do
  let r ← r.settle
  match value with
  | none => return { r with pending := .waiting s }
  | some value => r.assign s value

/-- Goes on to a switch. -/
def onSwitch (r : Reader) (s : Switch) (full : Bool) : Except Interruption Reader := do
  let r ← r.settle
  match s with
  | .help => .error (.help full)
  | .version => .error .version
  | .drawnStatements =>
    if .drawnStatements ∈ r.given then refuse (.repeated .drawnStatements)
    else
      return { r with
        options := { r.options with drawnStatements := true }
        given := r.given ++ [.drawnStatements] }

/-! ## Reading one argument -/

/-- Reads what stands after two hyphens: a name and, from a sign of equality on, a value. -/
def readLong (r : Reader) (body : Bytes) : Except Interruption Reader :=
  let name := body.takeWhile (· != equality)
  let value := match body.dropWhile (· != equality) with
    | [] => none
    | _ :: value => some value
  match Setting.ofLongName? name with
  | some s => r.onSetting s value
  | none =>
    match Switch.ofLongName? name with
    | none => refuse (.unexpectedArgument ("--" ++ ofUtf8Lossy name))
    | some s =>
      match value with
      | some value => refuse (.unexpectedValue (ofUtf8Lossy value) s)
      | none => r.onSwitch s true

/-- The value that follows a letter directly, less the sign of equality it may begin with. -/
def attached : Bytes → Option Bytes
  | [] => none
  | b :: rest => some (if b = equality then rest else b :: rest)

/-- The first character of bytes that are not read as an option: all of the bytes, if they do not
begin with a character. -/
def leadingText (bs : Bytes) : String :=
  match (ofUtf8Lossy bs).toList with
  | [] => ""
  | c :: _ =>
    if (utf8 (String.ofList [c])).isPrefixOf bs then String.ofList [c] else ofUtf8Lossy bs

/-- Reads what stands after one hyphen: a letter and what follows it. A setting takes all that
follows as its value. Of the switches only those that end the reading have a letter, so for them
nothing that follows matters. -/
def readShort (r : Reader) (letter : UInt8) (rest : Bytes) : Except Interruption Reader :=
  match Setting.ofLetter? letter with
  | some s => r.onSetting s (attached rest)
  | none =>
    match Switch.ofLetter? letter with
    | some s => r.onSwitch s false
    | none => refuse (.unexpectedArgument ("-" ++ leadingText (letter :: rest)))

/-- Reads an argument that is no option: it can only be the value that a setting waits for. -/
def readValue (r : Reader) (argument : Bytes) : Except Interruption Reader :=
  match r.pending with
  | .waiting s => .ok { r with pending := .held s argument }
  | _ => refuse (.unexpectedArgument (ofUtf8Lossy argument))

/-- Reads an argument. -/
def read (r : Reader) (argument : Bytes) : Except Interruption Reader :=
  if r.ended then refuse (.unexpectedArgument (ofUtf8Lossy argument))
  else match Form.ofArgument argument with
    | .terminator => .ok { r with ended := true }
    | .long body => r.readLong body
    | .short letter rest => r.readShort letter rest
    | .value => r.readValue argument

/-- Comes to the end: settles what is pending, then looks for options that exclude each other. -/
def finish (r : Reader) : Except Interruption Options := do
  let r ← r.settle
  match r.given.filter fun k => k = .setting .statements || k = .drawnStatements with
  | k :: other :: _ => refuse (.conflict k other)
  | _ => return r.options

end Reader

/-- Reads all arguments of a command line. -/
def Options.ofArguments (arguments : List Bytes) : Except Interruption Options := do
  let r ← arguments.foldlM Reader.read {}
  r.finish

end RandomInstant.Command
