import LispObjects.Operation

namespace LispObjects

/-!
# Worlds

Several realms on one heap. A realm's symbol table is known by the realm's number, so symbols of
different realms differ.
-/

/-- A heap and the realms that share it. -/
structure World where
  heap : Heap
  realms : Array Realm

namespace World

/-- A world without realms. -/
def empty : World :=
  ⟨.empty, #[]⟩

/-- Adds a new realm, whose number is the count of those before it. -/
def addRealm : World → Config → World
  | ⟨heap, realms⟩, config =>
    let booted := Realm.boot config realms.size heap
    ⟨booted.2, realms.push booted.1⟩

/-- The heap as one of the realms sees it. -/
def image? (w : World) (i : Nat) : Option Image :=
  w.realms[i]?.map fun realm => ⟨w.heap, realm⟩

/-- Performs an operation in one of the realms; there is no answer if there is no such realm. -/
def perform (w : World) (i : Nat) (op : Operation) : Option (Except Condition Answer) × World :=
  match w with
  | ⟨heap, realms⟩ =>
    match realms[i]? with
    | none => (none, ⟨heap, realms⟩)
    | some realm =>
      let (answer, ⟨heap, realm⟩) := Image.perform ⟨heap, realm⟩ op
      (some answer, ⟨heap, realms.setIfInBounds i realm⟩)

end World

end LispObjects
