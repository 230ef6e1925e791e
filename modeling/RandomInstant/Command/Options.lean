import RandomInstant.Config
import RandomInstant.Text.Numeral
import RandomInstant.Text.Utf8

/-!
# Options of the command line

The options that can be given, how they are written, and what they mean for a configuration. A
setting takes a value, a switch takes none. Every option can be given once.
-/

namespace RandomInstant.Command

/-! ## What can be given -/

/-- The options that take a value. -/
inductive Setting where
  /-- The seed of the program. -/
  | seed
  /-- The number of statements. -/
  | statements
  /-- The least number of statements that is drawn. -/
  | minStatements
  /-- The greatest number of statements that is drawn. -/
  | maxStatements
  /-- The deepest level at which an expression may have operands. -/
  | maxDepth
  /-- The greatest literal. -/
  | maxLiteral
  /-- What variable names begin with. -/
  | stem
  deriving DecidableEq, Repr

/-- The options that take no value. -/
inductive Switch where
  /-- Generates as many statements as are drawn. -/
  | drawnStatements
  /-- Asks for help. -/
  | help
  /-- Asks for the version. -/
  | version
  deriving DecidableEq, Repr

namespace Setting

/-- All settings. -/
def all : List Setting :=
  [.seed, .statements, .minStatements, .maxStatements, .maxDepth, .maxLiteral, .stem]

/-- The name of a setting after two hyphens. -/
def longName : Setting → String
  | .seed => "seed"
  | .statements => "statements"
  | .minStatements => "min-statements"
  | .maxStatements => "max-statements"
  | .maxDepth => "max-depth"
  | .maxLiteral => "max-literal"
  | .stem => "prefix"

/-- The letter of a setting after one hyphen, if it has one. -/
def shortName? : Setting → Option Char
  | .statements => some 'n'
  | .maxDepth => some 'd'
  | _ => none

/-- The setting with a name after two hyphens. -/
def ofLongName? (name : Text.Bytes) : Option Setting :=
  all.find? fun s => Text.utf8 s.longName == name

/-- The setting with a letter after one hyphen. -/
def ofLetter? (letter : UInt8) : Option Setting :=
  all.find? fun s => s.shortName? == some (Char.ofNat letter.toNat)

/-- What stands for the value of a setting where its use is shown. -/
def valueName : Setting → String
  | .seed => "SEED"
  | .statements => "STATEMENTS"
  | .stem => "PREFIX"
  | _ => "N"

/-- A setting as its use is shown. -/
def usage (s : Setting) : String := "--" ++ s.longName ++ " <" ++ s.valueName ++ ">"

end Setting

namespace Switch

/-- All switches. -/
def all : List Switch := [.drawnStatements, .help, .version]

/-- The name of a switch after two hyphens. -/
def longName : Switch → String
  | .drawnStatements => "drawn-statements"
  | .help => "help"
  | .version => "version"

/-- The letter of a switch after one hyphen, if it has one. -/
def shortName? : Switch → Option Char
  | .drawnStatements => none
  | .help => some 'h'
  | .version => some 'V'

/-- The switch with a name after two hyphens. -/
def ofLongName? (name : Text.Bytes) : Option Switch :=
  all.find? fun s => Text.utf8 s.longName == name

/-- The switch with a letter after one hyphen. -/
def ofLetter? (letter : UInt8) : Option Switch :=
  all.find? fun s => s.shortName? == some (Char.ofNat letter.toNat)

/-- A switch as its use is shown. -/
def usage (s : Switch) : String := "--" ++ s.longName

end Switch

/-! ## What was given -/

/-- The options that were given, each with its value. -/
structure Options where
  /-- The seed. -/
  seed : Option UInt64 := none
  /-- The number of statements. -/
  statements : Option UInt64 := none
  /-- Whether as many statements are generated as are drawn. -/
  drawnStatements : Bool := false
  /-- The least number of statements that is drawn. -/
  minStatements : Option UInt64 := none
  /-- The greatest number of statements that is drawn. -/
  maxStatements : Option UInt64 := none
  /-- The deepest level at which an expression may have operands. -/
  maxDepth : Option UInt64 := none
  /-- The greatest literal. -/
  maxLiteral : Option UInt32 := none
  /-- What variable names begin with. -/
  stem : Option String := none
  deriving DecidableEq, Repr

/-- Why a text is no value of a setting. -/
inductive ValueError where
  /-- The text is no numeral of a number that fits. -/
  | numeral (e : Text.NumeralError)
  /-- The number is not in the range of the setting. -/
  | outside (n : Int)
  deriving DecidableEq, Repr

/-- The wording of a refused value. -/
def ValueError.message : ValueError → String
  | .numeral e => e.message
  | .outside n => n.repr ++ " is not in 0..=4294967295"

/-- Reads a word of 64 bits. -/
def readWord (s : String) : Except ValueError UInt64 :=
  match Text.readNat (UInt64.size - 1) s with
  | .ok n => .ok n.toUInt64
  | .error e => .error (.numeral e)

/-- Reads a word of 32 bits. It is read as an integer of 64 bits first, so a negative number is a
number that is out of range. -/
def readHalfWord (s : String) : Except ValueError UInt32 :=
  match Text.readInt64 s with
  | .ok n => if 0 ≤ n && n ≤ 0xffffffff then .ok n.toNat.toUInt32 else .error (.outside n)
  | .error e => .error (.numeral e)

namespace Options

/-- The options with a setting set to the value that a text stands for. -/
def set (o : Options) (s : Setting) (text : String) : Except ValueError Options :=
  match s with
  | .seed => do return { o with seed := some (← readWord text) }
  | .statements => do return { o with statements := some (← readWord text) }
  | .minStatements => do return { o with minStatements := some (← readWord text) }
  | .maxStatements => do return { o with maxStatements := some (← readWord text) }
  | .maxDepth => do return { o with maxDepth := some (← readWord text) }
  | .maxLiteral => do return { o with maxLiteral := some (← readHalfWord text) }
  | .stem => .ok { o with stem := some text }

/-- The configuration that the options ask for. What is not given is as by default; no option
changes the odds. -/
def config (o : Options) : Config :=
  let d : Config := {}
  { d with
    stem := o.stem.getD d.stem
    fewest := o.minStatements.getD d.fewest
    most := o.maxStatements.getD d.most
    statements := if o.drawnStatements then none else o.statements.or d.statements
    maxDepth := o.maxDepth.getD d.maxDepth
    maxLiteral := o.maxLiteral.getD d.maxLiteral }

end Options

end RandomInstant.Command
