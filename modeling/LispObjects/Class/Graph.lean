import LispObjects.Class.Builtin
import LispObjects.Symbol.Basic

namespace LispObjects

/-!
# The class graph

The records of a realm's classes, each with at most one superclass. Records are only ever added, and
a handle is a position, so a handle keeps its meaning for ever.

A handle may come from another graph and lie outside this one. A query reads it as the handle of the
first class, `object` (`resolve`); a record keeps the handle of its superclass as it was given. That may
be the very handle that the new class gets, and then the chain of superclasses runs in a circle. A climb
along such a chain does not end unless it meets what it looks for. It is told from one that ends by how
long it is: only a climb that comes back to a record is longer than there are records (`climb?`).
-/

/-- What stands behind the instances of a class. -/
inductive Representation where
  /-- The kind of value that the built-in class is tied to. -/
  | builtIn (c : BuiltinClass)
  /-- A token that no other class of the graph has. -/
  | token (n : Nat)
  deriving DecidableEq, Repr

/-- The representation as a record shows it. -/
def Representation.describe : Representation → String
  | builtIn c => "BuiltIn(" ++ c.label ++ ")"
  | token n => "Standard(" ++ toString n ++ ")"

/-- What is known of one class. -/
structure ClassRecord where
  /-- The name, a symbol of the variables' namespace. -/
  name : Symbol
  superclass? : Option ClassId
  metaclass : Metaclass
  representation : Representation
  deriving DecidableEq, Repr

/-- The class's record as text. -/
def ClassRecord.describe (r : ClassRecord) : String :=
  let superclass :=
    match r.superclass? with
    | none => "None"
    | some c => "Some(" ++ c.describe ++ ")"
  Text.record "ClassRecord"
    [("name", r.name.describe), ("superclass", superclass), ("metaclass", r.metaclass.label),
      ("repr", r.representation.describe)]

/-- The records of all classes, and the next representation token. -/
structure ClassGraph where
  records : Array ClassRecord
  /-- The next token. Like a position it is a number of 32 bits where programs run, so it would wrap around
  after 2 ^ 32 classes; graphs of that size are out of scope. -/
  nextToken : Nat
  deriving Repr

namespace ClassGraph

/-- A graph without classes. -/
def empty : ClassGraph :=
  ⟨#[], 0⟩

/-- How many classes there are. -/
def size (g : ClassGraph) : Nat :=
  g.records.size

/-- Whether there are no classes. -/
def isEmpty (g : ClassGraph) : Bool :=
  g.size == 0

/-- Adds a class, and gives its handle. -/
def add (g : ClassGraph) (r : ClassRecord) : ClassId × ClassGraph :=
  (⟨g.records.size⟩, { g with records := g.records.push r })

/-- A representation that no class has been given yet. -/
def freshRepresentation (g : ClassGraph) : Representation × ClassGraph :=
  (.token g.nextToken, { g with nextToken := g.nextToken + 1 })

/-- Whether the handle is one of this graph. -/
def contains (g : ClassGraph) (c : ClassId) : Bool :=
  c.index < g.size

/-- The handle itself if it is one of this graph, else that of `object`. -/
def resolve (g : ClassGraph) (c : ClassId) : ClassId :=
  if g.contains c then c else BuiltinClass.object.id

/-- The record that the handle stands for. -/
def get? (g : ClassGraph) (c : ClassId) : Option ClassRecord :=
  g.records[(g.resolve c).index]?

/-- The recorded superclass. -/
def superclass? (g : ClassGraph) (c : ClassId) : Option ClassId :=
  (g.get? c).bind (·.superclass?)

/-- The handles of a climb that begins at `c` and goes on with `up`, as far as that leads; none if there are
more than `count`. -/
def climb? (up : ClassId → Option ClassId) : Nat → ClassId → Option (List ClassId)
  | 0, _ => none
  | count + 1, c =>
    match up c with
    | none => some [c]
    | some s => (climb? up count s).map (c :: ·)

/-- The class and those above it, up to `object`; none if the chain has no end. -/
def chain? (g : ClassGraph) (c : ClassId) : Option (List ClassId) :=
  climb? g.superclass? (g.size + 1) (g.resolve c)

/-- The class and those above it. An endless chain is never listed, and stands here as the empty list. -/
def ancestors (g : ClassGraph) (c : ClassId) : List ClassId :=
  (g.chain? c).getD []

/-- The next handle of a climb that ends where it meets `d`. -/
def superclassUpTo? (g : ClassGraph) (d c : ClassId) : Option ClassId :=
  if c = d then none else g.superclass? c

/-- Whether `sup` is met on the climb from `sub`, which goes no further than that; none if the climb never
ends. -/
@[irreducible] def isSubclass? (g : ClassGraph) (sub sup : ClassId) : Option Bool :=
  (climb? (g.superclassUpTo? sup) (g.size + 1) (g.resolve sub)).map (·.contains sup)

/-- Whether it is found out that `sup` is `sub` or stands above it. On a climb that never ends nothing is
found out. -/
def isSubclass (g : ClassGraph) (sub sup : ClassId) : Bool :=
  (g.isSubclass? sub sup).getD false

end ClassGraph

end LispObjects
