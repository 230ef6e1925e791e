import RandomInstant.Log.Record
import RandomInstant.Text.Blank

/-!
# Log filters

A filter decides which records are written. It is read from a specification such as
`warn,instgen_core=debug/drew`: directives separated by commas, each for one part of the program
or for all of it, and after a slash a text that messages have to contain. What cannot be read is
left out and warned about, so every text specifies some filter.
-/

namespace RandomInstant.Log

/-! ## Directives -/

/-- What is let through of a part of the program. -/
structure Directive where
  /-- The part: all targets that begin with this text, or simply all. -/
  target : Option String
  /-- What is let through of it. -/
  threshold : Threshold
  deriving DecidableEq, Repr

namespace Directive

/-- How specific a directive is: the length of its target in bytes. -/
def weight (d : Directive) : Nat :=
  match d.target with
  | none => 0
  | some name => name.utf8ByteSize

/-- Whether a directive concerns a target. -/
def concerns (d : Directive) (target : String) : Bool :=
  match d.target with
  | none => true
  | some name => name.toList.isPrefixOf target.toList

end Directive

/-! ## Filters -/

/-- Which records are written. -/
structure Filter where
  /-- The directives, the less specific ones first. -/
  directives : List Directive
  /-- The text that messages have to contain, if any. -/
  needle : Option String := none
  deriving DecidableEq, Repr

/-- Whether a text begins anywhere in another. -/
def occursIn (needle : List Char) : List Char → Bool
  | [] => needle.isEmpty
  | c :: rest => needle.isPrefixOf (c :: rest) || occursIn needle rest

namespace Filter

/-- Adds a directive after all others, or in the place of the one that has the same target. -/
def addDirective (d : Directive) : List Directive → List Directive
  | [] => [d]
  | e :: rest => if e.target = d.target then d :: rest else e :: addDirective d rest

/-- A filter with its directives in order. Of several directives for one target the last one holds,
in the place of the first. Directives that are equally specific keep their order; where there is
none at all, only errors are let through. -/
def ofDirectives (ds : List Directive) (needle : Option String) : Filter where
  directives :=
    match ds.foldl (fun kept d => addDirective d kept) [] with
    | [] => [⟨none, some .error⟩]
    | kept => kept.mergeSort fun a b => a.weight ≤ b.weight
  needle

/-- What is let through of a target: the last directive that concerns it decides, and where none
does, nothing is let through. -/
def threshold (f : Filter) (target : String) : Threshold :=
  match f.directives.reverse.find? fun d => d.concerns target with
  | none => none
  | some d => d.threshold

/-- Whether a record is written. -/
def admits (f : Filter) (r : Record) : Bool :=
  (f.threshold r.target).admits r.level
    && match f.needle with
      | none => true
      | some needle => occursIn needle.toList r.message.toList

end Filter

/-! ## Specifications -/

/-- What a part of a specification amounts to. -/
inductive Reading where
  /-- Nothing at all. -/
  | blank
  /-- A directive. -/
  | directive (d : Directive)
  /-- Nothing that can be read; the text is what is warned about. -/
  | invalid (text : String)
  deriving DecidableEq, Repr

/-- Reads one item. An item without a sign of equality is a level for all targets or, if it is no
level, a target of which everything is let through; with one such sign it is a target and its
level, where no level means everything. -/
def readItem (item : List Char) : Reading :=
  let item := Text.trim item
  if item.isEmpty then .blank
  else match item.splitOn '=' with
    | [only] =>
      match Threshold.ofName? (String.ofList only) with
      | some threshold => .directive ⟨none, threshold⟩
      | none => .directive ⟨some (String.ofList only), some .trace⟩
    | [name, level] =>
      let level := Text.trim level
      if level.isEmpty then .directive ⟨some (String.ofList name), some .trace⟩
      else match Threshold.ofName? (String.ofList level) with
        | some threshold => .directive ⟨some (String.ofList name), threshold⟩
        | none => .invalid (String.ofList level)
    | _ => .invalid (String.ofList item)

/-- The directive of a reading. -/
def Reading.directive? : Reading → Option Directive
  | .blank => none
  | .directive d => some d
  | .invalid _ => none

/-- What a reading warns about. -/
def Reading.invalid? : Reading → Option String
  | .blank => none
  | .directive _ => none
  | .invalid text => some text

/-- A warning about a part of a specification. -/
def warning (text remark : String) : String :=
  "warning: invalid logging spec '" ++ text ++ "', ignoring it" ++ remark ++ "\n"

/-- Reads a specification: a filter, and the warnings about what was left out. With more than one
slash nothing of it is read. -/
def Filter.ofSpec (spec : String) : Filter × List String :=
  let read (items : List Char) (needle : Option String) : Filter × List String :=
    let readings := (items.splitOn ',').map readItem
    (.ofDirectives (readings.filterMap Reading.directive?) needle,
      (readings.filterMap Reading.invalid?).map fun text => warning text "")
  match spec.toList.splitOn '/' with
  | [items] => read items none
  | [items, needle] => read items (some (String.ofList needle))
  | _ => (.ofDirectives [] none, [warning spec " (too many '/'s)"])

end RandomInstant.Log
