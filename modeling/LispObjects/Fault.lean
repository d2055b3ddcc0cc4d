import LispObjects.Decimal.Literal
import LispObjects.TypeSpec

namespace LispObjects

/-!
# Faults

What can go wrong in an operation, as a cause with its data. A fault belongs to a built-in class of
errors (`Fault.category`) and has one wording (`Fault.message`), which names classes as a given class
graph does.
-/

/-- A cause of failure. -/
inductive Fault where
  /-- A value is not of the type that the operation expects. -/
  | wrongType (datum : Value) (expected : TypeSpec)
  | unboundSymbol (symbol : Symbol) (environment : Environment)
  | unboundSlot (object : Value) (slot : Symbol)
  | unboundMethod (classId : ClassId) (method : Symbol)
  /-- A condition that the caller asserts does not hold. -/
  | assertion (message : String)
  | divisionByZero
  /-- The last slot initialiser has no value. -/
  | oddInitializers
  /-- The value describes no type. -/
  | unknownTypeSpec
  /-- The innermost operator has no primitive body. -/
  | notABuiltInOperator
  /-- No pattern matches the value. -/
  | noMatch (datum : Value)
  /-- A fault of a stream in the caller's words. -/
  | stream (stream : Value) (message : String)
  /-- A character is asked of a stream that stands inside one. -/
  | insideCharacter (stream : Value)
  /-- A character is put back that was not just read. -/
  | notJustRead (stream : Value)
  | endOfFile (stream : Value)
  /-- A fault of a reader in the caller's words. -/
  | reader (message : String)
  | malformedNumber (cause : Decimal.LiteralError)
  | promptNotFound (prompt : Value)
  /-- An operation that only subclasses give a body to. -/
  | abstractMethod

namespace Fault

/-- The value is no instance of the built-in class. -/
def notA (c : BuiltinClass) (datum : Value) : Fault :=
  wrongType datum (.builtIn c)

/-- The class of the condition that reports the fault. -/
def category : Fault → BuiltinClass
  | wrongType .. => .typeError
  | unboundSymbol .. => .unboundSymbolError
  | unboundSlot .. => .unboundSlotError
  | unboundMethod .. => .unboundMethodError
  | assertion _ | divisionByZero | oddInitializers | unknownTypeSpec | notABuiltInOperator =>
    .assertionError
  | noMatch _ => .matchError
  | stream .. | insideCharacter _ | notJustRead _ => .streamError
  | endOfFile _ => .endOfFile
  | reader _ | malformedNumber _ => .readerError
  | promptNotFound _ => .promptNotFoundError
  | abstractMethod => .error

/-- The wording, given the names of classes. -/
def message (nameOf : ClassId → String) : Fault → String
  | wrongType _ expected => "Type assertion failed: expected " ++ expected.render nameOf
  | unboundSymbol symbol _ => "Unbound " ++ symbol.space.kind ++ ": " ++ symbol.name
  | unboundSlot _ slot => "Unbound slot: " ++ slot.name
  | unboundMethod classId method =>
    "Unbound method: " ++ method.name ++ " for class " ++ nameOf classId
  | assertion message | stream _ message | reader message => message
  | divisionByZero => "Division by zero"
  | oddInitializers => "Odd number of slot initializers"
  | unknownTypeSpec => "Unknown type spec"
  | notABuiltInOperator => "Not a built-in operator"
  | noMatch _ => "Match failed"
  | insideCharacter _ => "Stream position is inside a character"
  | notJustRead _ => "Stream error"
  | endOfFile _ => "End of file"
  | malformedNumber cause => "Malformed number: " ++ cause.message
  | promptNotFound _ => "Prompt not found"
  | abstractMethod => "Congratulations! You called an abstract method that nobody overrode"

/-- What an assertion without words of its own says. -/
def assertionFailed : Fault :=
  assertion "Assertion failed"

end Fault

end LispObjects
