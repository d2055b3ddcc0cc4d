import LispObjects.Heap.Basic

namespace LispObjects.Heap

/-!
# Equality of values

Pairs are compared by what they hold, all other values by `Value.atomEq`. A pair is equal to itself
without looking inside.

The comparison goes through a stack of what is still to be compared, so it takes no recursion in
either half of a pair, however long or deep a value is. It ends at the first difference, or when
nothing is left. Of values that contain themselves it need not end.
-/

/-- One step of the comparison of the values of each pending pair to each other, the first pair
first: what is pending after it, or the answer. -/
def compareStep (h : Heap) : List (Value × Value) → List (Value × Value) ⊕ Bool
  | [] => .inr true
  | (.pair r, .pair s) :: pending =>
    if r = s then .inl pending
    else .inl ((h.car r, h.car s) :: (h.cdr r, h.cdr s) :: pending)
  | (a, b) :: pending => if a.atomEq b then .inl pending else .inr false

/-- Whether the values of each pending pair are equal to each other. -/
def equalPending (h : Heap) (pending : List (Value × Value)) : Bool :=
  Id.run (repeatM (fun pending => pure (h.compareStep pending)) pending)

/-- Whether two values are equal. -/
def equal (h : Heap) (a b : Value) : Bool :=
  h.equalPending [(a, b)]

end LispObjects.Heap
