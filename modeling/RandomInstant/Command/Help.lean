import RandomInstant.Command.Options
import RandomInstant.Text.Field

/-!
# Help texts

The help exists in a short and a full form. Both list the same options; the short form gives each
one a line, the full form a paragraph.
-/

namespace RandomInstant.Command.Help

/-- An option as the help lists it. -/
structure Entry where
  /-- The letter of the option, if it has one. -/
  letter : Option Char
  /-- How the option is used. -/
  usage : String
  /-- What the option does. -/
  description : String

/-- The entry of a setting. -/
def ofSetting (s : Setting) (description : String) : Entry := ⟨s.shortName?, s.usage, description⟩

/-- The entry of a switch. -/
def ofSwitch (s : Switch) (description : String) : Entry := ⟨s.shortName?, s.usage, description⟩

/-- All entries; `other` says where the other form of the help is to be found. -/
def entries (other : String) : List Entry :=
  [ofSetting .seed "Seed of the pseudo-random generator [default: current time]",
    ofSetting .statements "Number of statements to generate [default: 20]",
    ofSwitch .drawnStatements
      "Generate as many statements as drawn between the minimum and maximum",
    ofSetting .minStatements "Lower bound of drawn statement counts [default: 5]",
    ofSetting .maxStatements "Upper bound of drawn statement counts [default: 10]",
    ofSetting .maxDepth
      "Nesting level beyond which expressions are single values [default: 10]",
    ofSetting .maxLiteral "Largest integer literal [default: 20]",
    ofSetting .stem "Prefix of variable names [default: asdASD123]",
    ofSwitch .help ("Print help (" ++ other ++ ")"),
    ofSwitch .version "Print version"]

/-- The label of an entry. Where there is no letter its place is left free, so that the long names
stand in a column. -/
def Entry.label (e : Entry) : String :=
  (match e.letter with
    | none => "      "
    | some c => "  -" ++ String.ofList [c] ++ ", ") ++ e.usage

/-- An entry on a line, the descriptions standing in a column. -/
def Entry.onLine (column : Nat) (e : Entry) : String :=
  Text.Field.pad .left column e.label ++ "  " ++ e.description ++ "\n"

/-- An entry as a paragraph. -/
def Entry.asParagraph (e : Entry) : String := e.label ++ "\n          " ++ e.description ++ "\n"

/-- What the program does, in one sentence without its full stop. -/
def purpose : String := "Generate a random Instant program and print it to standard output"

/-- How the program is called, and the heading of the list of options. -/
def usageLines : String := "Usage: instgen [OPTIONS]\n\nOptions:\n"

/-- The short form. -/
def short : String :=
  let es := entries "see more with '--help'"
  let column := (es.map fun e => e.label.length).foldl max 0
  purpose ++ "\n\n" ++ usageLines ++ String.join (es.map (Entry.onLine column))

/-- The full form. -/
def full : String :=
  purpose ++ ".\n\nPrograms consist of assignments and arithmetic expressions over integer "
    ++ "literals and previously assigned variables.\n\n" ++ usageLines
    ++ "\n".intercalate ((entries "see a summary with '-h'").map Entry.asParagraph)

/-- The version of the program. -/
def version : String := "instgen 0.1.0 (unknown)\n"

end RandomInstant.Command.Help
