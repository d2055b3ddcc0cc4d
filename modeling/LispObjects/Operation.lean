import LispObjects.Action.Classes
import LispObjects.Action.Objects
import LispObjects.Action.Operators
import LispObjects.Action.Streams

namespace LispObjects

/-!
# Operations

Everything that can be done to an image, as data, so that a run is a list of operations. An operation
stands for an action that ends in an answer (`Operation.action`); performing it reports a fault as a
condition (`Image.perform`).
-/

/-- What an operation ends in. -/
inductive Answer where
  | done
  | value (v : Value)
  | boolean (b : Bool)
  | count (n : Nat)
  | order (o : Ordering)
  | spec (s : TypeSpec)
  | condition (c : Condition)

/-- Something to be done to an image. -/
inductive Operation where
  -- symbols
  | internName (name : String) (space : Namespace)
  | intern (name : Value) (space : Namespace)
  | convert (s : Symbol) (space : Namespace)
  -- numbers and texts
  | literal (text : String)
  | ofBinary64 (x : Binary64)
  | add (a b : Value)
  | subtract (a b : Value)
  | multiply (a b : Value)
  | divide (a b : Value)
  | compare (a b : Value)
  -- host values with an identity
  | hostObject
  | hostFunction
  -- pairs and lists
  | cons (car cdr : Value)
  | chain (items : List Value) (tail : Value)
  | setCar (r : Ref .pair) (v : Value)
  | setCdr (r : Ref .pair) (v : Value)
  | copyList (v : Value)
  | length (v : Value)
  | element (v : Value) (index : Nat)
  | reverse (v : Value)
  | append (front back : Value)
  -- environments
  | makeEnvironment (parent? : Option Environment)
  | bind (e : Environment) (s : Symbol) (v : Value)
  | lookup (e : Environment) (s : Symbol)
  | define (name : String) (v : Value)
  -- classes
  | makeClass (name : Symbol) (superclass : Value)
  -- objects
  | makeInstance (c : ClassId) (initializers : List Value)
  | slotValue (object : Value) (key : Symbol)
  | setSlotValue (object : Value) (key : Symbol) (v : Value)
  | newObject (c : ClassId)
  | setSlot (o : StandardObject) (key : Symbol) (v : Value)
  | makeDynamic (v : Value)
  | dynamicValue (dynamic : Value)
  | setDynamicValue (dynamic v : Value)
  -- types
  | hasTypeData (v spec : Value)
  | assertType (v : Value) (spec : TypeSpec)
  | specData (spec : TypeSpec)
  | specOfData (v : Value)
  -- operators
  | makeBuiltIn (name : String) (body : Primitive)
  | defineBuiltIn (name : String) (body : Primitive)
  | makeFexpr (parameters environmentParameter body : Value) (e : Environment)
  | wrap (operator : Value)
  | unwrap (function : Value)
  | apply (operator args : Value)
  -- streams
  | makeInput (text : String)
  | makeOutput
  | readByte (stream : Value) (atEnd : Action.AtEnd)
  | peekByte (stream : Value) (atEnd : Action.AtEnd)
  | readChar (stream : Value) (atEnd : Action.AtEnd)
  | peekChar (stream : Value) (atEnd : Action.AtEnd)
  | unreadChar (stream character : Value)
  | writeByte (stream byte : Value)
  | writeChar (stream character : Value)
  | writeString (stream text : Value)
  | outputString (stream : Value)
  -- conditions
  | report (f : Fault)
  | makeCondition (c : ClassId) (message : String) (slots : List (Symbol × Value))
  | signal (f : Fault)

namespace Operation

open LispObjects.Action in
/-- What the operation does. -/
def action : Operation → Action Answer
  | internName name space => return .value (.symbol (← Action.internName name space))
  | intern name space => return .value (.symbol (← Action.intern name space))
  | convert s space => return .value (.symbol (← Action.convert s space))
  | literal text => return .value (← ofExcept (Value.ofLiteral text))
  | ofBinary64 x => return .value (← ofExcept (Value.ofBinary64 x))
  | add a b => return .value (← ofExcept (a.add b))
  | subtract a b => return .value (← ofExcept (a.subtract b))
  | multiply a b => return .value (← ofExcept (a.multiply b))
  | divide a b => return .value (← query fun r _ => a.divide r.config.divisionScale b)
  | compare a b => return .order (← ofExcept (a.compare b))
  | hostObject => return .value (.host (.object (← onHeap (·.freshIdentity))))
  | hostFunction => return .value (.host (.function (← onHeap (·.freshIdentity))))
  | cons car cdr => return .value (← onHeap (·.cons car cdr))
  | chain items tail => return .value (← onHeap (·.chain items tail))
  | setCar r v => do changeHeap (·.setCar r v); return .done
  | setCdr r v => do changeHeap (·.setCdr r v); return .done
  | copyList v => return .value (← list (← elements v))
  | length v => return .count (← elements v).length
  | element v index => return .value (← Action.element v index)
  | reverse v => return .value (← Action.reverse v)
  | append front back => return .value (← Action.append front back)
  | makeEnvironment parent? =>
    return .value (.environment (← onHeap (·.newEnvironment parent?)))
  | bind e s v => do changeHeap (·.bind e s v); return .done
  | lookup e s => return .value (← Action.lookup e s)
  | define name v => do Action.define name v; return .done
  | makeClass name superclass => return .value (.classObject (← Action.makeClass name superclass))
  | makeInstance c initializers => return .value (← Action.makeInstance c initializers)
  | slotValue object key => return .value (← Action.slotValue object key)
  | setSlotValue object key v => do Action.setSlotValue object key v; return .done
  | newObject c => return .value (← Action.newObject c [])
  | setSlot o key v => do changeHeap (·.setSlot o key v); return .done
  | makeDynamic v => return .value (← Action.makeDynamic v)
  | dynamicValue dynamic => return .value (← Action.dynamicValue dynamic)
  | setDynamicValue dynamic v => do Action.setDynamicValue dynamic v; return .done
  | hasTypeData v spec => return .boolean (← query fun r h => r.hasTypeData h v spec)
  | assertType v spec => return .value (← Action.assertType v spec)
  | specData spec => do
    let image ← get
    return .value (← onHeap (image.realm.specData spec))
  | specOfData v => return .spec (← query fun r h => r.specOfData h v)
  | makeBuiltIn name body => return .value (← Action.makeBuiltIn name body)
  | defineBuiltIn name body => return .value (← Action.defineBuiltIn name body)
  | makeFexpr parameters environmentParameter body e =>
    return .value (← Action.makeFexpr parameters environmentParameter body e)
  | wrap operator => return .value (← Action.wrap operator)
  | unwrap function => return .value (← ofExcept (Action.unwrap function))
  | apply operator args => return .value (← Action.apply operator args)
  | makeInput text => return .value (← onHeap (·.newInput text))
  | makeOutput => return .value (← onHeap (·.newOutput))
  | readByte stream atEnd => return .value (← Action.readByte stream atEnd)
  | peekByte stream atEnd => return .value (← Action.peekByte stream atEnd)
  | readChar stream atEnd => return .value (← Action.readChar stream atEnd)
  | peekChar stream atEnd => return .value (← Action.peekChar stream atEnd)
  | unreadChar stream character => do Action.unreadChar stream character; return .done
  | writeByte stream byte => do Action.writeByte stream byte; return .done
  | writeChar stream character => do Action.writeChar stream character; return .done
  | writeString stream text => do Action.writeString stream text; return .done
  | outputString stream => return .value (← Action.outputString stream)
  | report f => do
    let image ← get
    return .condition (← onHeap (image.realm.report f))
  | makeCondition c message slots => do
    let image ← get
    return .condition (← onHeap (image.realm.newCondition c message slots))
  | signal f => fail f

end Operation

namespace Image

/-- The answer to an operation, or the condition that reports why there is none. -/
def perform (image : Image) (op : Operation) : Except Condition Answer × Image :=
  match op.action.runOn image with
  | (.ok answer, image) => (.ok answer, image)
  | (.error f, ⟨heap, realm⟩) =>
    let (condition, heap) := realm.report f heap
    (.error condition, ⟨heap, realm⟩)

end Image

end LispObjects
