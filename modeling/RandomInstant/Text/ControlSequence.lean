import RandomInstant.Text.Utf8

/-!
# Text without control sequences

Text from outside may hold characters that steer a terminal: control characters, and sequences
that an escape character begins. Before such a text is shown they are taken out. A sequence ends
where a terminal would end it, and with the text at the latest. Line ends, tabs and form feeds lay
out text: they are kept, even in the middle of an escape or control sequence.

A terminal goes on with a sequence after such a character, and so does a filter on a stream, but
not at once. What follows is shown as plain text until the next character that is not, and only
that character and those after it are taken for the rest of the sequence. A filter on a text that
is at hand as a whole forgets the sequence instead. `Memory` tells the two apart.

Terminals read bytes. That shows in one place: the byte 9C ends a device string, and as it can
never begin a character, any character that is written with it does so.
-/

namespace RandomInstant.Text

/-- Where in a sequence the text is. -/
inductive ControlState where
  /-- In no sequence. -/
  | outside
  /-- After the escape character. -/
  | escape
  /-- In an escape sequence of more than one character. -/
  | escapeIntermediate
  /-- In a control sequence, which is an escape sequence that begins with a bracket. -/
  | control
  /-- In a command for the operating system, which a bell ends. -/
  | command
  /-- At the beginning of a sequence for a device. -/
  | deviceEntry
  /-- In the parameters of a sequence for a device. -/
  | deviceParameter
  /-- After the parameters of a sequence for a device. -/
  | deviceIntermediate
  /-- In a string for a device, or another one that is shown nowhere. -/
  | string
  deriving DecidableEq, Repr

/-- The control characters that lay out text. -/
def isLayout (c : Char) : Bool :=
  c == '\t' || c == '\n' || c == '\x0c' || c == '\r'

/-- Whether a character ends a string for a device. -/
def isStringEnd (c : Char) : Bool := (utf8 (String.ofList [c])).contains 0x9c

namespace ControlState

/-- The state after a character that is not shown. -/
def next (s : ControlState) (c : Char) : ControlState :=
  let n := c.toNat
  if n = 0x18 || n = 0x1a then .outside
  else if n = 0x1b then .escape
  else match s with
    | .outside => .outside
    | .escape =>
      if n < 0x20 || 0x7f ≤ n then .escape
      else if n < 0x30 then .escapeIntermediate
      else if c = '[' then .control
      else if c = ']' then .command
      else if c = 'P' then .deviceEntry
      else if c = 'X' || c = '^' || c = '_' then .string
      else .outside
    | .escapeIntermediate =>
      if 0x30 ≤ n && n < 0x7f then .outside else .escapeIntermediate
    | .control => if 0x40 ≤ n && n < 0x7f then .outside else .control
    | .command => if n = 0x07 then .outside else .command
    | .deviceEntry =>
      if n < 0x20 || 0x7f ≤ n then .deviceEntry
      else if n < 0x30 then .deviceIntermediate
      else if n < 0x40 then .deviceParameter
      else .string
    | .deviceParameter =>
      if n < 0x20 || 0x7f ≤ n then .deviceParameter
      else if n < 0x30 then .deviceIntermediate
      else if n < 0x3c then .deviceParameter
      else .string
    | .deviceIntermediate =>
      if n < 0x30 || 0x7f ≤ n then .deviceIntermediate else .string
    | .string => if isStringEnd c then .outside else .string

/-- Whether a character is shown. -/
def shows (s : ControlState) (c : Char) : Bool :=
  match s with
  | .outside => isLayout c || (0x20 ≤ c.toNat && c.toNat ≠ 0x7f)
  | .escape => isLayout c
  | .escapeIntermediate => isLayout c
  | .control => isLayout c
  | _ => false

end ControlState

/-- What a filter remembers of a sequence in the middle of which something was shown. -/
inductive Memory where
  /-- Nothing: the sequence is over. -/
  | text
  /-- The sequence, up to the next character of more than one byte. -/
  | stream
  deriving DecidableEq, Repr

/-- The state of a filter after a character that it shows. -/
def Memory.after (m : Memory) (s : ControlState) (c : Char) : ControlState :=
  match m with
  | .text => .outside
  | .stream => if c.toNat < 0x80 then s else .outside

/-- The characters that a filter shows, from a state on; `showing` says whether it has just shown
one, as then it shows what would be shown outside of all sequences. -/
def shownFrom (m : Memory) : (showing : Bool) → ControlState → List Char → List Char
  | _, _, [] => []
  | showing, s, c :: rest =>
    if s.shows c || (showing && ControlState.outside.shows c) then
      c :: shownFrom m true (m.after s c) rest
    else shownFrom m false (s.next c) rest

/-- A text without control characters and control sequences. -/
def withoutControls (m : Memory) (s : String) : String :=
  String.ofList (shownFrom m false .outside s.toList)

end RandomInstant.Text
