import LispObjects.Fault
import LispObjects.Heap.Basic

namespace LispObjects.Heap

/-!
# Lists

A list is a chain of pairs linked by their second halves; it is proper if it ends in `nil`. Every
operation here starts from the chain's *spine*: the first halves in order, and the value at the end.
-/

/-- The spine of a chain, following at most `count` pairs. -/
def spineUpTo (h : Heap) : Nat → Value → List Value × Value
  | count + 1, .pair r =>
    let (cars, tail) := h.spineUpTo count (h.cdr r)
    (h.car r :: cars, tail)
  | _, v => ([], v)

/-- The first halves of the pairs of a chain, and the value at its end. A chain that ends passes each
pair of the heap at most once, and at most one reference that leads nowhere, so the count cuts off
nothing but a chain that runs in a circle. -/
def spine (h : Heap) (v : Value) : List Value × Value :=
  h.spineUpTo (h.pairs.size + 1) v

/-- The elements of a proper list; the end of any other chain is not a list. -/
def elements (h : Heap) (v : Value) : Except Fault (List Value) :=
  match h.spine v with
  | (cars, .nil) => .ok cars
  | (_, tail) => .error (.notA .list tail)

/-- The element at an index, of a chain that may be improper; what the index leads to instead of a
pair is not a pair. -/
def element (h : Heap) : Value → Nat → Except Fault Value
  | .pair r, 0 => .ok (h.car r)
  | .pair r, index + 1 => h.element (h.cdr r) index
  | v, _ => .error (.notA .cons v)

/-- Makes a chain of new pairs that holds the items and ends in `tail`. -/
def chain (h : Heap) (items : List Value) (tail : Value) : Value × Heap :=
  items.foldr (fun item (rest, h) => h.cons item rest) (tail, h)

/-- Makes a proper list of the items. -/
def list (h : Heap) (items : List Value) : Value × Heap :=
  h.chain items .nil

end LispObjects.Heap
