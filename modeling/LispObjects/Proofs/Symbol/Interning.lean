import LispObjects.Symbol.Table
import Mathlib.Tactic.ByContra

namespace LispObjects.SymbolTable

/-!
# What interning keeps

A table that was built by interning has one symbol for a name and a namespace, and each of its
symbols says where it stands.

* `find?_intern_eq` — all that interning does to what is found;
* `Extends` — what is found in one table is found in the other, as it is after interning;
* `WellFormed` — the invariant, which the empty table has and interning keeps;
* `WellFormed.find?_eq_some_iff` — what is found is exactly what the table holds.
-/

variable {t t' t'' : SymbolTable} {name name' : String} {space space' : Namespace} {s s' : Symbol}

/-! ### Lookups after interning -/

/-- The table after a symbol was handed out that was not there. -/
theorem intern_of_find?_eq_none (h : t.find? name space = none) :
    t.intern name space =
      (⟨t.id, t.symbols.size, name, space⟩,
        { t with symbols := t.symbols.push ⟨t.id, t.symbols.size, name, space⟩ }) := by
  simp [intern, h]

/-- Interning leaves the table's own mark. -/
@[simp] theorem id_intern (t : SymbolTable) (name : String) (space : Namespace) :
    (t.intern name space).2.id = t.id := by
  unfold intern
  split <;> rfl

/-- **Interning changes one lookup.** The symbol handed out is found under its own name and namespace,
    and every other lookup gives what it gave before. -/
theorem find?_intern_eq (t : SymbolTable) (name name' : String) (space space' : Namespace) :
    (t.intern name' space').2.find? name space =
      if name = name' ∧ space = space' then some (t.intern name' space').1
      else t.find? name space := by
  by_cases hpair : name = name' ∧ space = space'
  · obtain ⟨rfl, rfl⟩ := hpair
    rw [if_pos ⟨rfl, rfl⟩, find?_intern]
  rw [if_neg hpair]
  cases hfind : t.find? name' space' with
  | some s => rw [intern_of_find? hfind]
  | none =>
    -- another name or another namespace does not find the new symbol
    have hnew : (space' == space && name' == name) = false := by
      rw [Bool.and_eq_false_iff, beq_eq_false_iff_ne, beq_eq_false_iff_ne]
      by_contra hboth
      rw [not_or, not_not, not_not] at hboth
      exact hpair ⟨hboth.2.symm, hboth.1.symm⟩
    rw [intern_of_find?_eq_none hfind]
    simp only [find?, Array.find?_push, hnew]
    cases t.symbols.find? _ <;> rfl

/-- What was found is found for ever. -/
theorem find?_intern_of_find? (h : t.find? name space = some s) (name' : String)
    (space' : Namespace) : (t.intern name' space').2.find? name space = some s := by
  rw [find?_intern_eq]
  split
  · next hpair =>
    obtain ⟨rfl, rfl⟩ := hpair
    rw [intern_of_find? h]
  · exact h

/-- A symbol that is not there yet makes the table larger by one. -/
theorem size_intern (t : SymbolTable) (name : String) (space : Namespace) :
    (t.intern name space).2.size =
      if (t.find? name space).isSome then t.size else t.size + 1 := by
  cases hfind : t.find? name space with
  | some s => rw [intern_of_find? hfind]; rfl
  | none => rw [intern_of_find?_eq_none hfind]; simp [size]

/-- Whatever is found in `t` is found in `t'`. -/
def Extends (t t' : SymbolTable) : Prop :=
  ∀ name space s, t.find? name space = some s → t'.find? name space = some s

/-- A table extends itself. -/
theorem Extends.refl (t : SymbolTable) : t.Extends t :=
  fun _ _ _ h => h

/-- Extensions of extensions are extensions. -/
theorem Extends.trans (h : t.Extends t') (h' : t'.Extends t'') : t.Extends t'' :=
  fun name space s hs => h' name space s (h name space s hs)

/-- Interning takes no symbol away. -/
theorem extends_intern (t : SymbolTable) (name : String) (space : Namespace) :
    t.Extends (t.intern name space).2 :=
  fun _ _ _ h => find?_intern_of_find? h name space

/-- A larger table hands out the same symbol. -/
theorem Extends.intern_eq (h : (t.intern name space).2.Extends t') :
    t'.intern name space = ((t.intern name space).1, t') :=
  intern_of_find? (h name space _ (find?_intern t name space))

/-- Symbols of different names differ. -/
theorem ne_of_find? (h : t.find? name space = some s) (h' : t.find? name' space = some s')
    (hne : name ≠ name') : s ≠ s' := by
  rintro rfl
  exact hne ((eq_of_find? h).2.symm.trans (eq_of_find? h').2)

/-- What is found as a keyword is one. -/
theorem isKeyword_of_find? (h : t.find? name .keywords = some s) : s.isKeyword = true := by
  rw [Symbol.isKeyword, (eq_of_find? h).1]
  rfl

/-- What is found as a variable is no keyword. -/
theorem not_isKeyword_of_find? (h : t.find? name .vars = some s) : ¬ s.isKeyword = true := by
  rw [Symbol.isKeyword, (eq_of_find? h).1]
  decide

/-! ### The invariant -/

/-- Every symbol stands where it says, and is the one of its name and namespace. -/
structure WellFormed (t : SymbolTable) : Prop where
  place : ∀ (i : Nat) (s : Symbol), t.symbols[i]? = some s → s.table = t.id ∧ s.index = i
  found : ∀ s ∈ t.symbols, t.find? s.name s.space = some s

/-- In a table without symbols there is nothing to be wrong. -/
theorem wellFormed_empty (id : Nat) : (empty id).WellFormed := by
  refine ⟨?_, ?_⟩
  · intro i s h
    simp [empty] at h
  · intro s h
    simp [empty] at h

/-- **Invariant.** By cases on whether the symbol was there; a new one goes to the end. -/
theorem WellFormed.intern (h : t.WellFormed) (name : String) (space : Namespace) :
    (t.intern name space).2.WellFormed := by
  cases hfind : t.find? name space with
  | some s =>
    rw [intern_of_find? hfind]
    exact h
  | none =>
    -- the new symbol is at the end, and knows its place
    refine ⟨?_, ?_⟩
    · intro i s hs
      rw [intern_of_find?_eq_none hfind] at hs ⊢
      rw [Array.getElem?_push] at hs
      split at hs
      · next hlast =>
        cases hs
        exact ⟨rfl, hlast.symm⟩
      · exact h.place i s hs
    · intro s hs
      rw [intern_of_find?_eq_none hfind, Array.mem_push] at hs
      rcases hs with hs | rfl
      · exact find?_intern_of_find? (h.found s hs) name space
      · rw [find?_intern, intern_of_find?_eq_none hfind]

/-- A symbol that is found is one of the table. -/
theorem mem_of_find? (h : t.find? name space = some s) : s ∈ t.symbols :=
  Array.mem_of_find?_eq_some h

/-- What is found is what the table holds. -/
theorem WellFormed.find?_eq_some_iff (h : t.WellFormed) :
    t.find? name space = some s ↔ s ∈ t.symbols ∧ s.name = name ∧ s.space = space := by
  constructor
  · intro hfind
    obtain ⟨hspace, hname⟩ := eq_of_find? hfind
    exact ⟨mem_of_find? hfind, hname, hspace⟩
  · rintro ⟨hmem, rfl, rfl⟩
    exact h.found s hmem

/-- A symbol knows the table that it is in. -/
theorem WellFormed.table_eq (h : t.WellFormed) (hs : s ∈ t.symbols) : s.table = t.id := by
  obtain ⟨i, hi⟩ := Array.getElem?_of_mem hs
  exact (h.place i s hi).1

/-- Symbols of a table that stand in one place are the same. -/
theorem WellFormed.eq_of_index_eq (h : t.WellFormed) (hs : s ∈ t.symbols) (hs' : s' ∈ t.symbols)
    (hindex : s.index = s'.index) : s = s' := by
  obtain ⟨i, hi⟩ := Array.getElem?_of_mem hs
  obtain ⟨j, hj⟩ := Array.getElem?_of_mem hs'
  have hij : i = j := by rw [← (h.place i s hi).2, ← (h.place j s' hj).2, hindex]
  rw [hij, hj] at hi
  exact (Option.some.inj hi).symm

end LispObjects.SymbolTable
