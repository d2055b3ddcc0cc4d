import LispObjects.Bindings
import LispObjects.Stream.Input
import LispObjects.Stream.Output
import LispObjects.Value.Basic

namespace LispObjects

/-!
# The heap

Everything that can change after it was made: pairs, frames of environments, slots of objects, and
streams. Making a thing adds a cell, so nothing that was there before changes.
-/

/-- A pair of values, both of which can be replaced. -/
structure Pair where
  car : Value
  cdr : Value
  deriving DecidableEq

instance : Inhabited Pair := ⟨⟨.nil, .nil⟩⟩

instance : Inhabited InputStream := ⟨.ofString ""⟩

instance : Inhabited OutputStream := ⟨.empty⟩

/-- The cells of every kind, and the next identity for things that have nothing else to be told
apart by. -/
structure Heap where
  pairs : Store .pair Pair
  frames : Store .frame (Bindings Value)
  slots : Store .slots (Bindings Value)
  inputs : Store .input InputStream
  outputs : Store .output OutputStream
  nextIdentity : Nat

namespace Heap

/-- A heap in which nothing was made. -/
def empty : Heap :=
  ⟨.empty, .empty, .empty, .empty, .empty, 0⟩

/-- An identity that nothing else has. -/
def freshIdentity (h : Heap) : Nat × Heap :=
  (h.nextIdentity, { h with nextIdentity := h.nextIdentity + 1 })

/-! ### Pairs -/

/-- Makes a pair. -/
def cons (h : Heap) (car cdr : Value) : Value × Heap :=
  let (r, pairs) := h.pairs.alloc ⟨car, cdr⟩
  (.pair r, { h with pairs })

/-- The first half of a pair. -/
def car (h : Heap) (r : Ref .pair) : Value :=
  (h.pairs.read r).car

/-- The second half of a pair. -/
def cdr (h : Heap) (r : Ref .pair) : Value :=
  (h.pairs.read r).cdr

/-- Replaces the first half of a pair. -/
def setCar (h : Heap) (r : Ref .pair) (v : Value) : Heap :=
  { h with pairs := h.pairs.write r ⟨v, h.cdr r⟩ }

/-- Replaces the second half of a pair. -/
def setCdr (h : Heap) (r : Ref .pair) (v : Value) : Heap :=
  { h with pairs := h.pairs.write r ⟨h.car r, v⟩ }

/-! ### Objects -/

/-- Makes an object of a class, without slots. -/
def newObject (h : Heap) (c : ClassId) : StandardObject × Heap :=
  let (r, slots) := h.slots.alloc .empty
  (⟨c, r⟩, { h with slots })

/-- The slots of an object. -/
def slotsOf (h : Heap) (o : StandardObject) : Bindings Value :=
  h.slots.read o.slots

/-- Sets a slot of an object, which need not have been there. -/
def setSlot (h : Heap) (o : StandardObject) (key : Symbol) (v : Value) : Heap :=
  { h with slots := h.slots.write o.slots ((h.slotsOf o).put key v) }

/-! ### Streams -/

/-- Makes an input stream over a text. -/
def newInput (h : Heap) (text : String) : Value × Heap :=
  let (r, inputs) := h.inputs.alloc (.ofString text)
  (.inputStream r, { h with inputs })

/-- Makes an output stream. -/
def newOutput (h : Heap) : Value × Heap :=
  let (r, outputs) := h.outputs.alloc .empty
  (.outputStream r, { h with outputs })

end Heap

end LispObjects
