import LispObjects.Text.Quoted
import LispObjects.Text.Record

namespace LispObjects

/-!
# Symbols

A symbol is an identifier that a symbol table has handed out. It carries its name and its namespace,
and beside them the place it was handed out from: the table, and the position in it. Two symbols are
the same if they came from the same place, so symbols of different tables never are.
-/

/-- The four independent sets of identifiers. `x` as a variable, as a function, as a class and as a
keyword are four unrelated symbols. -/
inductive Namespace where
  | vars
  | functions
  | classes
  | keywords
  deriving DecidableEq, Repr

namespace Namespace

/-- What one identifier of the namespace is called. -/
def kind : Namespace → String
  | vars => "variable"
  | functions => "function"
  | classes => "class"
  | keywords => "keyword"

/-- What stands before a name to tell its namespace. -/
def sigil : Namespace → String
  | vars => ""
  | functions => "#'"
  | classes => "#^"
  | keywords => ":"

/-- The kind, capitalised, as descriptions show it. -/
def label : Namespace → String
  | vars => "Variable"
  | functions => "Function"
  | classes => "Class"
  | keywords => "Keyword"

end Namespace

/-- An identifier of a symbol table. -/
structure Symbol where
  /-- The table that handed the symbol out. -/
  table : Nat
  /-- The symbol's position in that table. -/
  index : Nat
  name : String
  space : Namespace
  deriving DecidableEq, Repr

namespace Symbol

/-- Whether the symbol is a keyword. -/
def isKeyword (s : Symbol) : Bool :=
  s.space == .keywords

/-- The name after its namespace's sigil. -/
instance : ToString Symbol := ⟨fun s => s.space.sigil ++ s.name⟩

/-- The symbol as a record. -/
def describe (s : Symbol) : String :=
  Text.record "Symbol" [("name", Text.quoteString s.name), ("namespace", s.space.label)]

end Symbol

end LispObjects
