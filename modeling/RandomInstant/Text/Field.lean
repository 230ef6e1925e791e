/-!
# Fields: text laid out to a width

A field says how wide a piece of output should at least be and where it stands in that width.
Texts and numbers fill a field differently: a text may be cut to a precision and stands on the
left unless told otherwise, a number is never cut and stands on the right.
-/

namespace RandomInstant.Text

/-- Where a piece of output stands in a field that is wider than it. -/
inductive Alignment where
  /-- At the left end. -/
  | left
  /-- At the right end. -/
  | right
  /-- In the middle, an odd space going to the right. -/
  | center
  deriving DecidableEq, Repr

/-- A field. -/
structure Field where
  /-- Where the output stands, if that is said. -/
  alignment : Option Alignment := none
  /-- Whether numbers are filled up with leading zeros. -/
  zeros : Bool := false
  /-- Whether numbers are written with a plus sign. -/
  sign : Bool := false
  /-- The least width in characters. -/
  width : Nat := 0
  /-- The number of characters to which a text is cut, if it is cut. -/
  precision : Option Nat := none
  deriving DecidableEq, Repr

namespace Field

/-- `n` copies of a character. -/
def fill (c : Char) (n : Nat) : String := String.ofList (List.replicate n c)

/-- Fills up with spaces on the sides that the alignment leaves free. -/
def pad (a : Alignment) (width : Nat) (s : String) : String :=
  let room := width - s.length
  match a with
  | .left => s ++ fill ' ' room
  | .right => fill ' ' room ++ s
  | .center => fill ' ' (room / 2) ++ s ++ fill ' ' (room - room / 2)

/-- A text in a field: cut, then filled up. The marks for numbers do not concern it. -/
def text (f : Field) (s : String) : String :=
  let cut := match f.precision with
    | some n => String.ofList (s.toList.take n)
    | none => s
  pad (f.alignment.getD .left) f.width cut

/-- A number in a field. Leading zeros stand between the sign and the digits and leave no room
for the alignment. -/
def number (f : Field) (n : Nat) : String :=
  let sign := if f.sign then "+" else ""
  if f.zeros then sign ++ fill '0' (f.width - (sign ++ n.repr).length) ++ n.repr
  else pad (f.alignment.getD .right) f.width (sign ++ n.repr)

end Field

end RandomInstant.Text
