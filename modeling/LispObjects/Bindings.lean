import LispObjects.Symbol.Basic

namespace LispObjects

/-!
# Bindings

Values by symbol, in the order in which the symbols were first bound. Binding a symbol again changes
its value and leaves it in its place. The frames of environments and the slots of objects are
bindings; `get?_put` and `keys_put` say all that a write does.
-/

/-- Pairs of a symbol and a value. -/
structure Bindings (α : Type) where
  entries : List (Symbol × α)
  deriving Repr

namespace Bindings

variable {α : Type}

/-- No bindings. -/
def empty : Bindings α :=
  ⟨[]⟩

instance : Inhabited (Bindings α) := ⟨empty⟩

/-- The value bound to a symbol. -/
def get? (b : Bindings α) (s : Symbol) : Option α :=
  b.entries.lookup s

/-- Whether the symbol is bound. -/
def contains (b : Bindings α) (s : Symbol) : Bool :=
  b.entries.any fun e => e.1 == s

/-- How many symbols are bound. -/
def size (b : Bindings α) : Nat :=
  b.entries.length

/-- The bound symbols, in the order of their first binding. -/
def keys (b : Bindings α) : List Symbol :=
  b.entries.map (·.1)

/-- Gives the symbol's entry a new value, or adds an entry at the end. -/
def putEntry (s : Symbol) (a : α) : List (Symbol × α) → List (Symbol × α)
  | [] => [(s, a)]
  | (t, b) :: rest => if t = s then (t, a) :: rest else (t, b) :: putEntry s a rest

/-- Binds the symbol, whether or not it was bound before. -/
def put (b : Bindings α) (s : Symbol) (a : α) : Bindings α :=
  ⟨putEntry s a b.entries⟩

/-! ### What a write does -/

@[simp] theorem get?_empty (s : Symbol) : (empty : Bindings α).get? s = none := rfl

/-- A write changes the value of its own symbol and of no other. -/
theorem get?_put (b : Bindings α) (s t : Symbol) (a : α) :
    (b.put s a).get? t = if t = s then some a else b.get? t := by
  obtain ⟨entries⟩ := b
  simp only [get?, put]
  induction entries with
  | nil => by_cases h : t = s <;> simp [putEntry, List.lookup_cons, h, beq_eq_false_iff_ne.2]
  | cons e rest ih =>
    obtain ⟨u, b⟩ := e
    -- a key that is there is overwritten in its place
    by_cases hu : u = s
    · subst hu
      by_cases h : t = u <;> simp [putEntry, List.lookup_cons, h, beq_eq_false_iff_ne.2]
    · by_cases h : t = u
      · subst h
        simp [putEntry, hu]
      · simp [putEntry, hu, List.lookup_cons, beq_eq_false_iff_ne.2 h, ih]

/-- A write of a bound symbol keeps the order, and any other write adds its symbol at the end. -/
theorem keys_put (b : Bindings α) (s : Symbol) (a : α) :
    (b.put s a).keys = if s ∈ b.keys then b.keys else b.keys ++ [s] := by
  obtain ⟨entries⟩ := b
  simp only [keys, put]
  induction entries with
  | nil => simp [putEntry]
  | cons e rest ih =>
    obtain ⟨u, b⟩ := e
    by_cases hu : u = s
    · simp [putEntry, hu]
    · simp only [putEntry, hu, if_false, List.map_cons, ih, List.mem_cons, Ne.symm hu, false_or]
      split <;> simp_all

/-- A symbol is bound exactly if it has a value. -/
theorem contains_eq_isSome_get? (b : Bindings α) (s : Symbol) :
    b.contains s = (b.get? s).isSome := by
  obtain ⟨entries⟩ := b
  simp only [contains, get?]
  induction entries with
  | nil => rfl
  | cons e rest ih =>
    obtain ⟨u, b⟩ := e
    by_cases h : u = s
    · simp [h]
    · simp [List.lookup_cons, h, beq_eq_false_iff_ne.2 (Ne.symm h), ih]

end Bindings

end LispObjects
