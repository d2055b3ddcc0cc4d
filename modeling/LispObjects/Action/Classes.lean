import LispObjects.Action.Basic

namespace LispObjects.Action

/-!
# Making classes

A new standard class stands under any class, has a representation of its own, and is registered in
the root environment under its name. Registering a name again leaves the class that had it as it is.
-/

/-- Makes a standard class under another class and registers it under a name. -/
def makeClass (name : Symbol) (superclass : Value) : Action ClassId := do
  let superclass ← assertType superclass (.builtIn .classObject)
  -- an instance of a class under `class` passes the check and is no class itself
  let superclass := superclass.classId?.getD BuiltinClass.object.id
  let name ← convert name .vars
  let key ← convert name .classes
  let representation ← onClasses (·.freshRepresentation)
  let c ← onClasses (·.add ⟨name, some superclass, .standard, representation⟩)
  bindRoot key (.classObject c)
  return c

end LispObjects.Action
