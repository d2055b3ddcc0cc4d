import LispObjects.Fault

namespace LispObjects.Value

/-!
# Numbers and texts as values

Arithmetic, comparison and conversion of values. Each operation looks at its operands from the left,
and a value of the wrong type is the fault of the first operand that has it.
-/

/-- The number that the value is. -/
def asNumber : Value → Except Fault Decimal
  | number d => .ok d
  | v => .error (.notA .number v)

/-- The text that the value is. -/
def asString : Value → Except Fault String
  | string s => .ok s
  | v => .error (.notA .string v)

/-- The character that the value is, as a text of one character. -/
def asCharacter (v : Value) : Except Fault Char := do
  match (← v.asString).toList with
  | [c] => pure c
  | _ => throw (.notA .string v)

/-- A character as a value. -/
def ofCharacter (c : Char) : Value :=
  string (String.ofList [c])

/-- A byte as a value. -/
def ofByte (b : UInt8) : Value :=
  number (.ofInt b.toNat)

/-- The number that a literal stands for. -/
def ofLiteral (text : String) : Except Fault Value :=
  match Decimal.ofString text with
  | .ok d => .ok (number d)
  | .error cause => .error (.malformedNumber cause)

/-- The number that a `binary64` number stands for, by its shortest decimal. -/
def ofBinary64 (x : Binary64) : Except Fault Value :=
  match Decimal.ofBinary64? x with
  | some d => .ok (number d)
  | none => .error (.notA .number (host (.number x)))

/-- The result of an operation on two numbers. -/
def arithmetic (op : Decimal → Decimal → Decimal) (a b : Value) : Except Fault Value := do
  let x ← a.asNumber
  let y ← b.asNumber
  pure (number (op x y))

/-- The sum of two numbers. -/
def add : Value → Value → Except Fault Value :=
  arithmetic Decimal.add

/-- The difference of two numbers. -/
def subtract : Value → Value → Except Fault Value :=
  arithmetic Decimal.sub

/-- The product of two numbers. -/
def multiply : Value → Value → Except Fault Value :=
  arithmetic Decimal.mul

/-- The quotient of two numbers, with the given number of places. -/
def divide (places : Nat) (a b : Value) : Except Fault Value := do
  let x ← a.asNumber
  let y ← b.asNumber
  match x.div? y places with
  | some d => pure (number d)
  | none => throw .divisionByZero

/-- The order of two numbers by value, or of two texts by their characters' code points, which is the
order of their UTF-8 bytes. The second operand has to be of the type of the first. -/
def compare (a b : Value) : Except Fault Ordering := do
  match a with
  | number x => pure (Ord.compare x (← b.asNumber))
  | string s => pure (Ord.compare s (← b.asString))
  | v => throw (.wrongType v (.oneOf [.builtIn .number, .builtIn .string]))

end LispObjects.Value
