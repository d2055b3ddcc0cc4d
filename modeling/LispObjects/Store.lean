namespace LispObjects

/-!
# Stores

A store keeps the changeable cells of one kind. A cell is made once, stays for ever, and is known by
a reference that says which kind of cell it leads to; two references are equal exactly if they lead
to the same cell. Reading a reference that the store never gave out yields the default cell, and
writing one does nothing.
-/

/-- The kinds of things that can change after they were made. -/
inductive CellKind where
  | pair
  | frame
  | slots
  | input
  | output
  deriving DecidableEq, Repr

/-- A reference to a cell of the given kind. -/
structure Ref (kind : CellKind) where
  index : Nat
  deriving DecidableEq, Repr

/-- The cells of one kind, in the order in which they were made. -/
structure Store (kind : CellKind) (α : Type) where
  cells : Array α
  deriving Repr

namespace Store

variable {kind : CellKind} {α : Type}

/-- A store without cells. -/
def empty : Store kind α :=
  ⟨#[]⟩

/-- How many cells were made. -/
def size (s : Store kind α) : Nat :=
  s.cells.size

/-- Makes a cell. -/
def alloc (s : Store kind α) (a : α) : Ref kind × Store kind α :=
  (⟨s.cells.size⟩, ⟨s.cells.push a⟩)

/-- What the cell holds. -/
def read [Inhabited α] (s : Store kind α) (r : Ref kind) : α :=
  s.cells.getD r.index default

/-- Changes what the cell holds. -/
def write (s : Store kind α) (r : Ref kind) (a : α) : Store kind α :=
  ⟨s.cells.setIfInBounds r.index a⟩

/-- The store gave out the reference. -/
def Contains (s : Store kind α) (r : Ref kind) : Prop :=
  r.index < s.cells.size

instance (s : Store kind α) (r : Ref kind) : Decidable (s.Contains r) :=
  inferInstanceAs (Decidable (r.index < s.cells.size))

/-! ### What the operations do to a read -/

/-- There is one cell more. -/
@[simp] theorem size_alloc (s : Store kind α) (a : α) : (s.alloc a).2.size = s.size + 1 := by
  simp [alloc, size]

/-- Writing makes no cell. -/
@[simp] theorem size_write (s : Store kind α) (r : Ref kind) (a : α) :
    (s.write r a).size = s.size := by
  simp [write, size]

/-- The new cell is there. -/
theorem contains_alloc_self (s : Store kind α) (a : α) : (s.alloc a).2.Contains (s.alloc a).1 := by
  show s.size < (s.alloc a).2.size
  rw [size_alloc]
  omega

/-- A write makes no cell and takes none away. -/
theorem contains_write {s : Store kind α} {r t : Ref kind} {a : α} :
    (s.write r a).Contains t ↔ s.Contains t := by
  show t.index < (s.write r a).size ↔ _
  rw [size_write]
  rfl

/-- The new cell reads what it was made with. -/
@[simp] theorem read_alloc_self [Inhabited α] (s : Store kind α) (a : α) :
    (s.alloc a).2.read (s.alloc a).1 = a := by
  simp [alloc, read]

/-- A new cell changes no old one. -/
theorem read_alloc [Inhabited α] {s : Store kind α} {r : Ref kind} (h : s.Contains r) (a : α) :
    (s.alloc a).2.read r = s.read r := by
  have h : r.index < s.cells.size := h
  simp [alloc, read, Array.getD_eq_getD_getElem?, Array.getElem?_push, Nat.ne_of_lt h]

/-- A write changes the cell written and no other. -/
theorem read_write [Inhabited α] {s : Store kind α} {r : Ref kind} (h : s.Contains r) (t : Ref kind)
    (a : α) : (s.write r a).read t = if t = r then a else s.read t := by
  have h : r.index < s.cells.size := h
  obtain ⟨i⟩ := r
  obtain ⟨j⟩ := t
  by_cases hij : j = i
  · subst hij
    have h : j < s.cells.size := h
    simp [write, read, Array.getD_eq_getD_getElem?, h]
  · simp [write, read, Array.getD_eq_getD_getElem?, hij, Ne.symm hij]

end Store

end LispObjects
