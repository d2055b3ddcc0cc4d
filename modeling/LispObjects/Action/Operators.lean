import LispObjects.Action.Basic

namespace LispObjects.Action

/-!
# Operators

Making operators, wrapping them into functions, and applying those that end in a primitive procedure.
`applyWith` is the application itself, for any meaning of the primitives; `Primitive.run` is their
meaning.
-/

/-- Makes an operator of a primitive body, named by a function symbol. -/
def makeBuiltIn (name : String) (body : Primitive) : Action Value := do
  let symbol ← internName name .functions
  let identity ← onHeap (·.freshIdentity)
  return .builtIn identity symbol body

/-- Makes an operator of parameters and a body. -/
def makeFexpr (parameters environmentParameter body : Value) (e : Environment) : Action Value := do
  let identity ← onHeap (·.freshIdentity)
  return .fexpr identity parameters environmentParameter body e

/-- Wraps an operator into a function. -/
def wrap (operator : Value) : Action Value := do
  let operator ← assertType operator (.builtIn .operator)
  let identity ← onHeap (·.freshIdentity)
  return .function identity operator

/-- The operator that a function wraps. -/
def unwrap : Value → Except Fault Value
  | .function _ operator => .ok operator
  | v => .error (.notA .function v)

/-- Makes a function of a primitive body and binds it to its name in the root environment. -/
def defineBuiltIn (name : String) (body : Primitive) : Action Value := do
  let function ← wrap (← makeBuiltIn name body)
  bindRoot (← internName name .functions) function
  return function

/-- Applies the primitive that a chain of functions ends in to an argument list. -/
def applyWith (run : Primitive → Value → Action Value) (operator args : Value) : Action Value :=
  match operator.innermost with
  | .builtIn _ _ body => run body args
  | _ => fail .notABuiltInOperator

/-- The meaning of a primitive on an argument list whose pairs hold `items`. Only `call` looks at
them: it applies the first argument to a new list of the rest. -/
def runOnItems (items : List Value) (body : Primitive) (args : Value) : Action Value :=
  match body, items with
  | .sum, _ => do
    ofExcept ((← elements args).foldlM Value.add (.number (.ofInt 0)))
  | .arguments, _ => pure args
  | .second, _ => element args 1
  | .fail, _ => fail (.assertion "boom")
  | .remember, _ => do
    define "last" args
    return .void
  | .call, [] => element args 0
  | .call, operator :: rest => do
    let _ ← elements args
    applyWith (runOnItems rest) operator (← list rest)

end LispObjects.Action

namespace LispObjects

/-- The meaning of a primitive procedure. -/
def Primitive.run (body : Primitive) (args : Value) : Action Value := do
  let image ← get
  Action.runOnItems (image.heap.spine args).1 body args

/-- Applies an operator that ends in a primitive to an argument list. -/
def Action.apply (operator args : Value) : Action Value :=
  applyWith Primitive.run operator args

end LispObjects
