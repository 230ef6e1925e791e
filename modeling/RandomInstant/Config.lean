import RandomInstant.Text.Quoted

/-!
# Configurations

The parameters of a random program. All counts are words: the arithmetic on them is that of 64-bit
machine words, 32-bit for literals.

`Config.validate` refuses the configurations with which no program can be drawn, or none in which
names can be told from numbers, and names the first thing that is wrong.
-/

namespace RandomInstant

/-- The parameters of a random program. A choice with odds `n` goes one way once in `n` times. -/
structure Config where
  /-- What every variable name begins with; a number follows it. -/
  stem : String := "asdASD123"
  /-- The least statement count that is drawn. -/
  fewest : UInt64 := 5
  /-- The greatest statement count that is drawn. -/
  most : UInt64 := 10
  /-- The statement count, where it is fixed; a count is drawn all the same and is not used. -/
  statements : Option UInt64 := some 20
  /-- The deepest level at which an expression may have operands. -/
  maxDepth : UInt64 := 10
  /-- The greatest literal. -/
  maxLiteral : UInt32 := 20
  /-- The odds that a statement is an assignment. -/
  assignOdds : UInt64 := 3
  /-- The odds that an expression is a single value. -/
  leafOdds : UInt64 := 3
  /-- The odds that an expression stands in parentheses. -/
  parenOdds : UInt64 := 4
  deriving DecidableEq, Repr, Inhabited

/-- The choices that odds are given for. -/
inductive OddsOf where
  /-- Whether a statement is an assignment. -/
  | assignment
  /-- Whether an expression is a single value. -/
  | leaf
  /-- Whether an expression stands in parentheses. -/
  | parenthesization
  deriving DecidableEq, Repr

/-- The name of a choice. -/
def OddsOf.name : OddsOf → String
  | .assignment => "assignment"
  | .leaf => "leaf"
  | .parenthesization => "parenthesization"

/-- What can be wrong with a configuration. -/
inductive ConfigError where
  /-- Names would begin with nothing. -/
  | emptyStem
  /-- Names would not be a letter followed by letters and digits. -/
  | malformedStem (stem : String)
  /-- The least statement count exceeds the greatest. -/
  | emptyRange (fewest most : UInt64)
  /-- There are more statement counts than a word can count. -/
  | rangeTooLarge (fewest most : UInt64)
  /-- A choice would go one way once in zero times. -/
  | zeroOdds (choice : OddsOf)
  deriving DecidableEq, Repr

namespace ConfigError

/-- The text of a range of words. -/
def rangeText (lo hi : UInt64) : String := lo.toNat.repr ++ "..=" ++ hi.toNat.repr

/-- The wording of what is wrong with a configuration. -/
def message : ConfigError → String
  | .emptyStem => "identifier prefix must not be empty"
  | .malformedStem stem =>
    "identifier prefix " ++ Text.quoted stem ++ " must be a letter followed by letters and digits"
  | .emptyRange fewest most => "statement range " ++ rangeText fewest most ++ " is empty"
  | .rangeTooLarge fewest most => "statement range " ++ rangeText fewest most ++ " is too large"
  | .zeroOdds choice => "odds of " ++ choice.name ++ " must be positive"

end ConfigError

namespace Config

/-- Whether a text is an ASCII letter followed by ASCII letters and digits. -/
def isName (s : String) : Bool :=
  match s.toList with
  | [] => false
  | c :: rest => c.isAlpha && rest.all Char.isAlphanum

/-- The odds of a choice. -/
def odds (c : Config) : OddsOf → UInt64
  | .assignment => c.assignOdds
  | .leaf => c.leafOdds
  | .parenthesization => c.parenOdds

/-- The first thing that is wrong with a configuration: names are looked at first, then the range
of statement counts, then the odds. The range is wrong even where a fixed count leaves it
unused, because a count is drawn from it all the same. -/
def problem? (c : Config) : Option ConfigError :=
  if c.stem = "" then some .emptyStem
  else if !isName c.stem then some (.malformedStem c.stem)
  else if c.most < c.fewest then some (.emptyRange c.fewest c.most)
  else if c.most - c.fewest = 0xFFFFFFFFFFFFFFFF then some (.rangeTooLarge c.fewest c.most)
  else if c.assignOdds = 0 then some (.zeroOdds .assignment)
  else if c.leafOdds = 0 then some (.zeroOdds .leaf)
  else if c.parenOdds = 0 then some (.zeroOdds .parenthesization)
  else none

/-- Refuses a configuration with the first thing that is wrong with it. -/
def validate (c : Config) : Except ConfigError Unit :=
  match c.problem? with
  | none => .ok ()
  | some e => .error e

/-- The number of statements of a program for which `drawn` was drawn. -/
def statementCount (c : Config) (drawn : UInt64) : UInt64 := c.statements.getD drawn

/-- A configuration with all its parameters, on one line. -/
def label (c : Config) : String :=
  "Config \x7b prefix: " ++ Text.quoted c.stem
    ++ ", drawn_statements: " ++ ConfigError.rangeText c.fewest c.most
    ++ ", statements: " ++ (match c.statements with
      | none => "None"
      | some n => "Some(" ++ n.toNat.repr ++ ")")
    ++ ", max_depth: " ++ c.maxDepth.toNat.repr
    ++ ", max_literal: " ++ c.maxLiteral.toNat.repr
    ++ ", assign_odds: " ++ c.assignOdds.toNat.repr
    ++ ", leaf_odds: " ++ c.leafOdds.toNat.repr
    ++ ", paren_odds: " ++ c.parenOdds.toNat.repr
    ++ " \x7d"

end Config

end RandomInstant
