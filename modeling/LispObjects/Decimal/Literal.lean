import LispObjects.Decimal.Basic
import LispObjects.Text.Blank
import LispObjects.Text.Quoted

namespace LispObjects.Decimal

/-!
# Number literals

`parse` reads a decimal number: an optional sign, digits with at most one point among them, and an
optional exponent, with blanks allowed around the whole. The exponent is looked at before the digits,
so a literal with faults in both is refused for its exponent.

An exponent is first read as a 64-bit integer; one that is no such integer is malformed, and one
beyond `exponentLimit` is refused so that no short text stands for a huge number.

Widths are fixed here, and what does not fit wraps around: the magnitude of the least integer is that
integer, and of the scale 32 bits are kept (`keptPower`). Where arithmetic is checked, the first of the
two is an overflow at which the computation stops (`literalOverflows`), and the second is none.
-/

/-- Why a text is no number literal. -/
inductive LiteralError where
  /-- Nothing but blanks. -/
  | empty
  /-- No digit before the exponent. -/
  | noDigits
  /-- A character before the exponent that is neither a digit nor the first point. -/
  | invalidDigit (c : Char)
  /-- An exponent that is no 64-bit integer. -/
  | invalidExponent
  /-- An exponent beyond the limit. -/
  | exponentOutOfRange
  deriving DecidableEq, Repr

/-- What a reader is told. -/
def LiteralError.message : LiteralError → String
  | empty => "empty number literal"
  | noDigits => "number literal has no digits"
  | invalidDigit c => "invalid digit " ++ Text.quoteChar c ++ " in number literal"
  | invalidExponent => "invalid exponent in number literal"
  | exponentOutOfRange => "exponent out of range in number literal"

/-- The largest exponent, in either direction. -/
def exponentLimit : Nat := 100000

/-- Takes one sign off the text and says whether it is a minus. -/
def splitSign : List Char → Bool × List Char
  | '-' :: cs => (true, cs)
  | '+' :: cs => (false, cs)
  | cs => (false, cs)

/-- The text before the first character that satisfies `p`, and the text after that character if
there is one. -/
def splitFirst (p : Char → Bool) : List Char → List Char × Option (List Char)
  | [] => ([], none)
  | c :: cs =>
    if p c then ([], some cs)
    else
      let (before, after) := splitFirst p cs
      (c :: before, after)

/-- The letter that begins an exponent. -/
def isExponentMark (c : Char) : Bool :=
  c == 'e' || c == 'E'

/-- The value of a string of digits. -/
def digitsValue (cs : List Char) : Nat :=
  Nat.ofDigitChars 10 cs 0

/-- `n` or, if `negative`, `-n`. -/
def signed (negative : Bool) (n : Nat) : Int :=
  if negative then -n else n

/-- Reads a 64-bit integer: an optional sign and digits. -/
def parseInt64? (cs : List Char) : Option Int64 :=
  let (negative, digits) := splitSign cs
  let value := signed negative (digitsValue digits)
  if digits.isEmpty || !digits.all Char.isDigit then none
  else if value < Int64.minValue.toInt || Int64.maxValue.toInt < value then none
  else some (.ofInt value)

/-- Reads an exponent, a 64-bit integer of a magnitude within the limit. -/
def parseExponent (cs : List Char) : Except LiteralError Int64 :=
  match parseInt64? cs with
  | none => .error .invalidExponent
  | some exponent =>
    if exponentLimit < exponent.abs.toInt then .error .exponentOutOfRange else .ok exponent

/-- Reads the digits before the exponent: the digits without the point, and how many of them stand
after it. -/
def parseDigits (cs : List Char) : Except LiteralError (Nat × Nat) :=
  let (whole, fraction?) := splitFirst (· == '.') cs
  let fraction := fraction?.getD []
  let digits := whole ++ fraction
  if digits.isEmpty then .error .noDigits
  else
    match digits.find? fun c => !c.isDigit with
    | some c => .error (.invalidDigit c)
    | none => .ok (digitsValue digits, fraction.length)

/-- The power of ten that digits with so many places and an exponent are multiplied by. The scale is a
64-bit difference, and its lower half is kept. -/
def keptPower (exponent : Int64) (places : Nat) : Int :=
  let scale := Int64.ofNat places - exponent
  if scale < 0 then (-scale).toUInt64.toUInt32.toNat else -scale.toUInt64.toUInt32.toNat

/-- Reads a number literal. -/
def parse (text : List Char) : Except LiteralError Decimal := do
  let text := Text.trim text
  if text.isEmpty then throw .empty
  let (negative, rest) := splitSign text
  let (body, exponentText) := splitFirst isExponentMark rest
  let exponent ← exponentText.elim (pure 0) parseExponent
  let (digits, places) ← parseDigits body
  pure (ofPower (signed negative digits) (keptPower exponent places))

/-- Whether the text has the one exponent in it that is a 64-bit integer and has no magnitude. -/
def literalOverflows (text : List Char) : Bool :=
  let (_, exponentText) := splitFirst isExponentMark (splitSign (Text.trim text)).2
  exponentText.bind parseInt64? == some Int64.minValue

/-- Reads a number literal from a string. -/
def ofString (s : String) : Except LiteralError Decimal :=
  parse s.toList

end LispObjects.Decimal
