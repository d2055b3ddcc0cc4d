import LispObjects.Symbol.Basic

namespace LispObjects

/-!
# Symbol tables

A table hands out one symbol for every pair of a name and a namespace, the same one each time it is
asked. Symbols are never taken back, so a symbol's position in its table is where it will always be.
-/

/-- The symbols handed out so far, each at its own position. -/
structure SymbolTable where
  /-- What tells this table from others. -/
  id : Nat
  /-- The symbols, from the oldest to the newest. -/
  symbols : Array Symbol
  deriving Repr

namespace SymbolTable

/-- A table that has handed out nothing. -/
def empty (id : Nat) : SymbolTable :=
  ⟨id, #[]⟩

/-- The symbol for a name and a namespace, if it was handed out before. -/
def find? (t : SymbolTable) (name : String) (space : Namespace) : Option Symbol :=
  t.symbols.find? fun s => s.space == space && s.name == name

/-- The symbol for a name and a namespace, handed out now if it was not before. -/
def intern (t : SymbolTable) (name : String) (space : Namespace) : Symbol × SymbolTable :=
  match t.find? name space with
  | some s => (s, t)
  | none =>
    let s := ⟨t.id, t.symbols.size, name, space⟩
    (s, { t with symbols := t.symbols.push s })

/-- The table's symbol of the same name in another namespace; `s` may come from any table. -/
def convert (t : SymbolTable) (s : Symbol) (space : Namespace) : Symbol × SymbolTable :=
  t.intern s.name space

/-- How many symbols the table has handed out. -/
def size (t : SymbolTable) : Nat :=
  t.symbols.size

/-- Whether the table has handed out nothing. -/
def isEmpty (t : SymbolTable) : Bool :=
  t.size == 0

/-! ### Small facts -/

/-- What is interned is found. -/
theorem find?_intern (t : SymbolTable) (name : String) (space : Namespace) :
    (t.intern name space).2.find? name space = some (t.intern name space).1 := by
  unfold intern
  split
  · assumption
  · next h =>
    simp only [find?] at h
    simp [find?, Array.find?_push, h]

/-- A symbol that is found has the name and the namespace asked for. -/
theorem eq_of_find? {t : SymbolTable} {name : String} {space : Namespace} {s : Symbol}
    (h : t.find? name space = some s) : s.space = space ∧ s.name = name := by
  have hs := Array.find?_some h
  simpa using hs

/-- The symbol that is interned has the name that was asked for. -/
@[simp] theorem name_intern (t : SymbolTable) (name : String) (space : Namespace) :
    (t.intern name space).1.name = name := by
  unfold intern
  split
  · next h => exact (eq_of_find? h).2
  · rfl

/-- It is in the namespace that was asked for. -/
@[simp] theorem space_intern (t : SymbolTable) (name : String) (space : Namespace) :
    (t.intern name space).1.space = space := by
  unfold intern
  split
  · next h => exact (eq_of_find? h).1
  · rfl

/-- A name that is there is interned without a change. -/
theorem intern_of_find? {t : SymbolTable} {name : String} {space : Namespace} {s : Symbol}
    (h : t.find? name space = some s) : t.intern name space = (s, t) := by
  simp [intern, h]

end SymbolTable

end LispObjects
