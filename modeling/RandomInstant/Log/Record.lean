/-!
# Log records

A record says how much it matters, which part of the program it comes from, and what happened.
-/

namespace RandomInstant.Log

/-- How much a record matters, from most to least. -/
inductive Level where
  /-- A failure. -/
  | error
  /-- A likely mistake. -/
  | warn
  /-- Something worth knowing. -/
  | info
  /-- Something worth knowing when one looks for a mistake. -/
  | debug
  /-- Everything else. -/
  | trace
  deriving DecidableEq, Repr

namespace Level

/-- All levels, from most to least important. -/
def all : List Level := [.error, .warn, .info, .debug, .trace]

/-- The place of a level, counted from the most important. -/
def rank : Level → Nat
  | .error => 1
  | .warn => 2
  | .info => 3
  | .debug => 4
  | .trace => 5

/-- The name of a level. -/
def name : Level → String
  | .error => "ERROR"
  | .warn => "WARN"
  | .info => "INFO"
  | .debug => "DEBUG"
  | .trace => "TRACE"

/-- The level with a name, where small and capital ASCII letters count as the same. -/
def ofName? (s : String) : Option Level := all.find? fun l => l.name.toLower == s.toLower

end Level

/-- How much is let through: nothing, or all records that matter at least as much as a level. -/
abbrev Threshold := Option Level

namespace Threshold

/-- Whether records of a level are let through. -/
def admits : Threshold → Level → Bool
  | none, _ => false
  | some threshold, level => level.rank ≤ threshold.rank

/-- The threshold with a name, which is that of a level or `off`. -/
def ofName? (s : String) : Option Threshold :=
  if s.toLower == "off" then some none else (Level.ofName? s).map some

end Threshold

/-- A log record. -/
structure Record where
  /-- How much it matters. -/
  level : Level
  /-- The part of the program that it comes from. -/
  target : String
  /-- What happened. -/
  message : String
  deriving DecidableEq, Repr

namespace Record

/-- A record with all that is known of it. -/
def full (r : Record) : String := r.level.name ++ " " ++ r.target ++ ": " ++ r.message

/-- A record as a line of a log. -/
def line (r : Record) : String := "[" ++ r.level.name ++ "] " ++ r.message ++ "\n"

end Record

end RandomInstant.Log
