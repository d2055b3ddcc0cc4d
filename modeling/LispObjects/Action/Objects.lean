import LispObjects.Action.Basic

namespace LispObjects.Action

/-!
# Instances and their slots

A keyword names the same slot as the variable symbol of the same name; symbols of the other
namespaces name slots of their own. Writing under a keyword interns the variable symbol, and reading
never interns: a variable symbol that was never interned names no slot.
-/

/-- The key of a slot to be written. -/
def keyForWrite (key : Symbol) : Action Symbol :=
  if key.isKeyword then convert key .vars else pure key

/-- The key of a slot to be read, if the slot can be there. -/
def keyForRead? (r : Realm) (key : Symbol) : Option Symbol :=
  if key.isKeyword then r.symbols.find? key.name .vars else some key

/-- The symbol that names a slot. -/
def slotName : Value → Except Fault Symbol
  | .symbol s => .ok s
  | v => .error (.notA .symbol v)

/-- The object whose slots are meant. -/
def slotOwner : Value → Except Fault StandardObject
  | .object o => .ok o
  | v => .error (.notA .standardObject v)

/-- The slots that alternating names and values stand for; a last name without a value stands for an
undefined slot. -/
def slotsOfInitializers : List Value → Action (List (Symbol × Value))
  | [] => pure []
  | name :: rest => do
    let key ← keyForWrite (← ofExcept (slotName name))
    match rest with
    | [] => pure [(key, .host .undefined)]
    | v :: rest => pure ((key, v) :: (← slotsOfInitializers rest))

/-- Makes an object of a class with the given slots. -/
def newObject (c : ClassId) (slots : List (Symbol × Value)) : Action Value :=
  onHeap fun h =>
    let (o, h) := h.newObject c
    (.object o, slots.foldl (fun h slot => h.setSlot o slot.1 slot.2) h)

/-- Makes an instance of a standard class from alternating slot names and values. -/
def makeInstance (c : ClassId) (initializers : List Value) : Action Value := do
  let _ ← assertType (.classObject c) (.builtIn .standardClass)
  let image ← get
  if initializers.length % 2 = 1 && image.realm.config.strictInitializers then
    fail .oddInitializers
  newObject c (← slotsOfInitializers initializers)

/-- The value of a slot. -/
def slotValue (object : Value) (key : Symbol) : Action Value :=
  query fun r h => do
    let o ← slotOwner object
    match (keyForRead? r key).bind (h.slotsOf o).get? with
    | some v => pure v
    | none => throw (.unboundSlot object key)

/-- Sets a slot. -/
def setSlotValue (object : Value) (key : Symbol) (v : Value) : Action Unit := do
  let o ← ofExcept (slotOwner object)
  let key ← keyForWrite key
  changeHeap (·.setSlot o key v)

/-- Whether the value is an object that has the slot. -/
def isSlotBound (r : Realm) (h : Heap) (object : Value) (key : Symbol) : Bool :=
  match object, keyForRead? r key with
  | .object o, some key => (h.slotsOf o).contains key
  | _, _ => false

/-! ### Dynamic variables -/

/-- Makes a dynamic variable with a value. -/
def makeDynamic (v : Value) : Action Value := do
  let image ← get
  newObject BuiltinClass.dynamic [(image.realm.names.value, v)]

/-- The value of a dynamic variable. -/
def dynamicValue (dynamic : Value) : Action Value := do
  let dynamic ← assertType dynamic (.builtIn .dynamic)
  let image ← get
  slotValue dynamic image.realm.names.value

/-- Sets the value of a dynamic variable. -/
def setDynamicValue (dynamic v : Value) : Action Unit := do
  let dynamic ← assertType dynamic (.builtIn .dynamic)
  let image ← get
  setSlotValue dynamic image.realm.names.value v

end LispObjects.Action
