import LispObjects.Heap.Description
import LispObjects.Realm.TypeData

namespace LispObjects

/-!
# Conditions

A fault is reported by a condition: a standard object of the fault's class, with the wording in its
`message` slot and the fault's data in slots of their own. The slots are set as they are given, in
order.
-/

/-- A reported fault: the object, and the wording. -/
structure Condition where
  object : StandardObject
  message : String
  deriving DecidableEq, Repr

namespace Condition

/-- The condition as a value. -/
def toValue (c : Condition) : Value :=
  .object c.object

/-- Whether the condition is of a class, as a realm sees classes. -/
def isA (c : Condition) (r : Realm) (classId : ClassId) : Bool :=
  r.isSubclass c.object.classId classId

/-- The slot whose key is the realm's variable symbol of that name. -/
def slot? (c : Condition) (r : Realm) (h : Heap) (name : String) : Option Value :=
  (r.symbols.find? name .vars).bind (h.slotsOf c.object).get?

/-- The condition as a record. -/
def describe (c : Condition) (h : Heap) : String :=
  Text.record "Condition"
    [("object", h.describeObject c.object), ("message", Text.quoteString c.message)]

end Condition

namespace Realm

/-- Makes a condition of a class with a wording and further slots. -/
def newCondition (r : Realm) (c : ClassId) (message : String) (slots : List (Symbol × Value))
    (h : Heap) : Condition × Heap :=
  let (object, h) := h.newObject c
  let h := ((r.names.message, .string message) :: slots).foldl
    (fun h slot => h.setSlot object slot.1 slot.2) h
  (⟨object, message⟩, h)

/-- The data of a fault by the names of their slots. -/
def faultSlots (r : Realm) (h : Heap) : Fault → List (Symbol × Value) × Heap
  | .wrongType datum expected =>
    let (spec, h) := r.specData expected h
    ([(r.names.datum, datum), (r.names.expectedType, spec)], h)
  | .unboundSymbol symbol environment =>
    ([(r.names.symbol, .symbol symbol), (r.names.environment, .environment environment)], h)
  | .unboundSlot object slot => ([(r.names.object, object), (r.names.slotName, .symbol slot)], h)
  | .unboundMethod classId method =>
    ([(r.names.classSlot, .classObject classId), (r.names.methodName, .symbol method)], h)
  | .noMatch datum => ([(r.names.datum, datum)], h)
  | .stream stream _ | .insideCharacter stream | .notJustRead stream | .endOfFile stream =>
    ([(r.names.stream, stream)], h)
  | .promptNotFound prompt => ([(r.names.prompt, prompt)], h)
  | .assertion _ | .divisionByZero | .oddInitializers | .unknownTypeSpec | .notABuiltInOperator
  | .reader _ | .malformedNumber _ | .abstractMethod => ([], h)

/-- The wording of a fault. -/
def faultMessage (r : Realm) (f : Fault) : String :=
  f.message fun c => (r.className c).name

/-- Makes the condition that reports a fault. -/
def report (r : Realm) (f : Fault) (h : Heap) : Condition × Heap :=
  let (slots, h) := r.faultSlots h f
  r.newCondition f.category (r.faultMessage f) slots h

end Realm

end LispObjects
