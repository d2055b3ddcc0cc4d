import LispObjects.Class.Graph
import LispObjects.Store
import LispObjects.Value.Host

namespace LispObjects

/-!
# Values

A value is either a value of the host or one of the kinds that the object model governs. What never
changes is carried by the value itself: numbers, texts, symbols, class handles, operators. What can
change (pairs, frames, slots, streams) is a reference into the heap, and is the same thing exactly if
the reference is the same.

An operator is a value with an identity of its own: two operators made alike are still two. The
operator inside a function is a smaller value, so a chain of functions ends.
-/

/-- A chain of frames: the environment's own, then those of the environments around it, from the
innermost to the outermost. -/
structure Environment where
  frame : Ref .frame
  outer : List (Ref .frame)
  deriving DecidableEq, Repr

/-- An object made from a class: the class, and the reference to its slots. -/
structure StandardObject where
  classId : ClassId
  slots : Ref .slots
  deriving DecidableEq, Repr

/-- The procedures that built-in operators are made of. -/
inductive Primitive where
  /-- The sum of the arguments. -/
  | sum
  /-- The argument list itself. -/
  | arguments
  /-- The second argument. -/
  | second
  /-- Always fails. -/
  | fail
  /-- Binds the argument list to the variable `last` of the root environment. -/
  | remember
  /-- Applies the first argument to the rest. -/
  | call
  deriving DecidableEq, Repr

/-- A value of the object model. -/
inductive Value where
  | host (h : HostValue)
  | boolean (b : Bool)
  | number (d : Decimal)
  | string (s : String)
  | symbol (s : Symbol)
  | pair (r : Ref .pair)
  | nil
  | void
  | ignore
  | environment (e : Environment)
  | classObject (c : ClassId)
  /-- An operator whose body is a primitive procedure. -/
  | builtIn (identity : Nat) (name : Symbol) (body : Primitive)
  /-- An operator of parameters and a body, which only an evaluator gives a meaning to. -/
  | fexpr (identity : Nat) (parameters environmentParameter body : Value)
      (environment : Environment)
  /-- An operator that wraps another one, whose arguments are evaluated. -/
  | function (identity : Nat) (operator : Value)
  | inputStream (r : Ref .input)
  | outputStream (r : Ref .output)
  | object (o : StandardObject)
  deriving DecidableEq

namespace Environment

/-- All frames, from the innermost to the outermost. -/
def frames (e : Environment) : List (Ref .frame) :=
  e.frame :: e.outer

/-- The environment around this one. -/
def parent? (e : Environment) : Option Environment :=
  match e.outer with
  | [] => none
  | f :: rest => some ⟨f, rest⟩

/-- Whether the two are the same environment, which they are if their own frame is the same. -/
def same (d e : Environment) : Bool :=
  d.frame == e.frame

end Environment

namespace Value

instance : Inhabited Value := ⟨nil⟩

/-- Whether the object model governs the value. -/
def isLispObject : Value → Bool
  | host _ => false
  | _ => true

/-- Whether the value is the host's null. -/
def isNull (v : Value) : Bool :=
  match v with
  | host .null => true
  | _ => false

/-- The name of the kind of representation, whatever the classes are. -/
def tag : Value → String
  | host h => h.tag
  | _ => "object"

/-- The built-in class that values of this kind belong to. For classes and standard objects the class
graph decides. -/
def builtinClass? : Value → Option BuiltinClass
  | host _ => some .object
  | boolean _ => some .boolean
  | number _ => some .number
  | string _ => some .string
  | symbol _ => some .symbol
  | pair _ => some .cons
  | nil => some .nil
  | void => some .void
  | ignore => some .ignore
  | environment _ => some .environment
  | builtIn .. => some .builtInOperator
  | fexpr .. => some .fexpr
  | function .. => some .function
  | inputStream _ => some .stringInputStream
  | outputStream _ => some .stringOutputStream
  | classObject _ | object _ => none

/-- The class handle, if the value is a class. -/
def classId? : Value → Option ClassId
  | classObject c => some c
  | _ => none

/-- The operator that a chain of functions wraps; any other value is itself the innermost. -/
def innermost : Value → Value
  | function _ operator => operator.innermost
  | v => v

/-- Equality of two values that are not both pairs: host values as the host has it, numbers and texts
by value, operators, environments and objects by identity, symbols, classes and streams by handle. -/
def atomEq : Value → Value → Bool
  | host a, host b => a.strictEq b
  | boolean a, boolean b => a == b
  | number a, number b => a == b
  | string a, string b => a == b
  | symbol a, symbol b => a == b
  | nil, nil | void, void | ignore, ignore => true
  | environment a, environment b => a.same b
  | classObject a, classObject b => a == b
  | builtIn i .., builtIn j .. => i == j
  | fexpr i .., fexpr j .. => i == j
  | function i _, function j _ => i == j
  | inputStream a, inputStream b => a == b
  | outputStream a, outputStream b => a == b
  | object a, object b => a.slots == b.slots
  | _, _ => false

end Value

end LispObjects
