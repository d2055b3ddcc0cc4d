namespace LispObjects

/-!
# The built-in classes

The 37 classes that every class graph of a realm begins with, in the order of their handles, with
the name, the superclass and the metaclass of each. A superclass comes before its subclasses
(`BuiltinClass.id_superclass_lt`), and only `object` has none.
-/

/-- A handle of a class: the position of its record in a class graph. -/
structure ClassId where
  /-- The position. It is a number of 32 bits where programs run, and no bound is set to it here: graphs of
  2 ^ 32 classes are out of scope. -/
  index : Nat
  deriving DecidableEq, Repr

namespace ClassId

instance : Ord ClassId := ⟨fun a b => compare a.index b.index⟩

/-- The handle as a record shows it. -/
def describe (c : ClassId) : String :=
  "ClassId(" ++ toString c.index ++ ")"

end ClassId

/-- The class of a class. -/
inductive Metaclass where
  /-- The class is tied to one kind of value and has no instances of its own making. -/
  | builtIn
  /-- The class is instantiated to standard objects. -/
  | standard
  deriving DecidableEq, Repr

/-- The metaclass's name as a record shows it. -/
def Metaclass.label : Metaclass → String
  | builtIn => "BuiltIn"
  | standard => "Standard"

/-- The classes that are there from the start. -/
inductive BuiltinClass where
  | object
  | string
  | symbol
  | number
  | boolean
  | list
  | cons
  | nil
  | void
  | ignore
  | environment
  | classObject
  | builtInClass
  | standardClass
  | operator
  | builtInOperator
  | fexpr
  | function
  | continuation
  | inputStream
  | stringInputStream
  | outputStream
  | stringOutputStream
  | standardObject
  | dynamic
  | condition
  | error
  | typeError
  | unboundSymbolError
  | unboundSlotError
  | unboundMethodError
  | assertionError
  | matchError
  | streamError
  | endOfFile
  | readerError
  | promptNotFoundError
  deriving DecidableEq, Repr

namespace BuiltinClass

/-- All of them, in the order of their handles. -/
def all : List BuiltinClass :=
  [object, string, symbol, number, boolean, list, cons, nil, void, ignore, environment, classObject,
    builtInClass, standardClass, operator, builtInOperator, fexpr, function, continuation,
    inputStream, stringInputStream, outputStream, stringOutputStream, standardObject, dynamic,
    condition, error, typeError, unboundSymbolError, unboundSlotError, unboundMethodError,
    assertionError, matchError, streamError, endOfFile, readerError, promptNotFoundError]

/-- The handle, which is the class's position among all. -/
def id (c : BuiltinClass) : ClassId :=
  ⟨c.ctorIdx⟩

/-- The name under which the class is registered. -/
def name : BuiltinClass → String
  | object => "object"
  | string => "string"
  | symbol => "symbol"
  | number => "number"
  | boolean => "boolean"
  | list => "list"
  | cons => "cons"
  | nil => "nil"
  | void => "void"
  | ignore => "ignore"
  | environment => "environment"
  | classObject => "class"
  | builtInClass => "built-in-class"
  | standardClass => "standard-class"
  | operator => "operator"
  | builtInOperator => "built-in-operator"
  | fexpr => "fexpr"
  | function => "function"
  | continuation => "continuation"
  | inputStream => "input-stream"
  | stringInputStream => "string-input-stream"
  | outputStream => "output-stream"
  | stringOutputStream => "string-output-stream"
  | standardObject => "standard-object"
  | dynamic => "dynamic"
  | condition => "condition"
  | error => "error"
  | typeError => "type-error"
  | unboundSymbolError => "unbound-symbol-error"
  | unboundSlotError => "unbound-slot-error"
  | unboundMethodError => "unbound-method-error"
  | assertionError => "assertion-error"
  | matchError => "match-error"
  | streamError => "stream-error"
  | endOfFile => "end-of-file"
  | readerError => "reader-error"
  | promptNotFoundError => "prompt-not-found-error"

/-- The class above, for all but `object`. -/
def superclass? : BuiltinClass → Option BuiltinClass
  | object => none
  | cons | nil => some list
  | builtInClass | standardClass => some classObject
  | builtInOperator | fexpr | function => some operator
  | stringInputStream => some inputStream
  | stringOutputStream => some outputStream
  | dynamic | condition => some standardObject
  | error => some condition
  | typeError | unboundSymbolError | unboundSlotError | unboundMethodError | assertionError
  | matchError | streamError | readerError | promptNotFoundError => some error
  | endOfFile => some streamError
  | string | symbol | number | boolean | list | void | ignore | environment | classObject | operator
  | continuation | inputStream | outputStream | standardObject => some object

/-- Standard for `standard-object` and the classes under it. -/
def metaclass : BuiltinClass → Metaclass
  | standardObject | dynamic | condition | error | typeError | unboundSymbolError | unboundSlotError
  | unboundMethodError | assertionError | matchError | streamError | endOfFile | readerError
  | promptNotFoundError => .standard
  | object | string | symbol | number | boolean | list | cons | nil | void | ignore | environment
  | classObject | builtInClass | standardClass | operator | builtInOperator | fexpr | function
  | continuation | inputStream | stringInputStream | outputStream | stringOutputStream => .builtIn

/-- The words of the name, capitalised and joined, as a record shows the class. -/
def label (c : BuiltinClass) : String :=
  String.join ((c.name.splitOn "-").map String.capitalize)

/-- The class of that name. -/
def ofName? (name : String) : Option BuiltinClass :=
  all.find? fun c => c.name == name

/-- A superclass has the smaller handle. -/
theorem id_superclass_lt {c s : BuiltinClass} (h : c.superclass? = some s) :
    s.id.index < c.id.index := by
  cases c <;> cases h <;> decide

/-- Only `object` stands at the top. -/
theorem superclass?_eq_none_iff {c : BuiltinClass} : c.superclass? = none ↔ c = object := by
  cases c <;> simp [superclass?]

/-- Every class is listed, at the position that its handle gives. -/
theorem all_getElem?_id (c : BuiltinClass) : all[c.id.index]? = some c := by
  cases c <;> rfl

end BuiltinClass

instance : Coe BuiltinClass ClassId := ⟨BuiltinClass.id⟩

/-- The metaclass as a class of its own. -/
def Metaclass.asClass : Metaclass → BuiltinClass
  | builtIn => .builtInClass
  | standard => .standardClass

end LispObjects
