import LispObjects.Heap.Environment
import LispObjects.Heap.List

namespace LispObjects.Heap

/-!
# Descriptions of values

A text for every value, for diagnosis: lists in parentheses with a point before an improper end,
texts quoted, symbols with their namespace's sigil, and everything that is known by its identity as a
form that says what it is.
-/

/-- An environment as a record. -/
def describeEnvironment (h : Heap) (e : Environment) : String :=
  Text.record "Environment"
    [("bindings", toString (h.localSize e)), ("has_parent", toString e.parent?.isSome)]

/-- An object as a record of its class and the names of its slots. -/
def describeObject (h : Heap) (o : StandardObject) : String :=
  Text.record "StandardObject"
    [("class", o.classId.describe),
      ("slots", Text.bracketed ((h.slotsOf o).keys.map fun key => Text.quoteString key.name))]

/-- The description of a value, given that of pairs. -/
def describeWith (h : Heap) (describePair : Ref .pair → String) : Value → String
  | .host v => "Host(" ++ v.describe ++ ")"
  | .boolean true => "#t"
  | .boolean false => "#f"
  | .number d => toString d
  | .string s => Text.quoteString s
  | .symbol s => toString s
  | .pair r => describePair r
  | .nil => "#nil"
  | .void => "#void"
  | .ignore => "#ignore"
  | .environment e => h.describeEnvironment e
  | .classObject c => "#<class " ++ toString c.index ++ ">"
  | .builtIn _ name _ => "#<built-in-operator " ++ toString name ++ ">"
  | .fexpr .. => "#<fexpr>"
  | .function _ operator => "#<function " ++ h.describeWith describePair operator ++ ">"
  | .inputStream _ => "#<string-input-stream>"
  | .outputStream _ => "#<string-output-stream>"
  | .object o => h.describeObject o

/-- The description of a list, with lists inside lists down to the given depth. -/
def describeList (h : Heap) : Nat → Ref .pair → String
  | 0, _ => ""
  | depth + 1, r =>
    let (cars, tail) := h.spine (.pair r)
    let ending :=
      match tail with
      | .nil => ""
      | v => " . " ++ h.describeWith (h.describeList depth) v
    "(" ++ " ".intercalate (cars.map (h.describeWith (h.describeList depth))) ++ ending ++ ")"

/-- The description of a value. Lists that do not contain themselves are nested no deeper than there
are pairs in the heap, and one level more for a reference that leads nowhere. -/
def describe (h : Heap) (v : Value) : String :=
  h.describeWith (h.describeList (h.pairs.size + 1)) v

end LispObjects.Heap
