import LispObjects.Proofs.Class.BuiltIn

namespace LispObjects.ClassGraph

/-!
# One more class

What adding a standard class does to a graph, record by record.  The new class takes the next
handle, all handles of the graph keep their records, and a handle that is still outside stands for
`object` as before.

* `addStandard` — the graph with a new class under a given superclass;
* `get?_addStandard_of_contains`, `get?_addStandard_next` — its records;
* `superclass?_addStandard_of_contains`, `superclass?_addStandard_next` — its chain links.
-/

variable {g : ClassGraph} {c s : ClassId} {name : Symbol}

/-- The handle that the next class gets. -/
def next (g : ClassGraph) : ClassId :=
  ⟨g.size⟩

/-- The graph with a new standard class under `s`. -/
def addStandard (g : ClassGraph) (name : Symbol) (s : ClassId) : ClassGraph :=
  ⟨g.records.push ⟨name, some s, .standard, .token g.nextToken⟩, g.nextToken + 1⟩

/-- There is one class more. -/
@[simp] theorem size_addStandard : (g.addStandard name s).size = g.size + 1 := by
  simp [addStandard, size]

/-- A handle of the graph is less than its size. -/
theorem contains_iff : g.contains c = true ↔ c.index < g.size := by
  simp [contains]

/-- The next handle is not one of the graph yet. -/
@[simp] theorem not_contains_next (g : ClassGraph) : g.contains g.next = false := by
  simp [contains, next]

/-- The handles of the larger graph are the old ones and the next one. -/
theorem contains_addStandard :
    (g.addStandard name s).contains c = true ↔ g.contains c = true ∨ c = g.next := by
  obtain ⟨i⟩ := c
  simp only [contains_iff, size_addStandard, next, ClassId.mk.injEq]
  omega

/-- The handles of the graph stay in it. -/
theorem contains_addStandard_of_contains (h : g.contains c = true) :
    (g.addStandard name s).contains c = true :=
  contains_addStandard.mpr (.inl h)

/-- The next handle is the new one of the graph. -/
theorem contains_addStandard_next : (g.addStandard name s).contains g.next = true :=
  contains_addStandard.mpr (.inr rfl)

/-- **Old records stay.** -/
theorem get?_addStandard_of_contains (h : g.contains c = true) :
    (g.addStandard name s).get? c = g.get? c := by
  rw [get?, get?, resolve_of_contains h, resolve_of_contains (contains_addStandard_of_contains h)]
  have hne : c.index ≠ g.records.size := Nat.ne_of_lt (contains_iff.mp h)
  simp [addStandard, Array.getElem?_push, hne]

/-- **The new record.** It holds the superclass's handle as it was given. -/
theorem get?_addStandard_next :
    (g.addStandard name s).get? g.next = some ⟨name, some s, .standard, .token g.nextToken⟩ := by
  rw [get?, resolve_of_contains contains_addStandard_next]
  simp [addStandard, next, size]

/-- The superclasses of the classes that are there stay. -/
theorem superclass?_addStandard_of_contains (h : g.contains c = true) :
    (g.addStandard name s).superclass? c = g.superclass? c := by
  rw [superclass?, superclass?, get?_addStandard_of_contains h]

/-- The new class has the superclass that it was given. -/
theorem superclass?_addStandard_next : (g.addStandard name s).superclass? g.next = some s := by
  rw [superclass?, get?_addStandard_next]
  rfl

/-- The built-in classes keep their rows. -/
theorem HasBuiltIns.addStandard (hb : g.HasBuiltIns) : (g.addStandard name s).HasBuiltIns := by
  intro c
  obtain ⟨r, hr, hrow⟩ := hb c
  refine ⟨r, ?_, hrow⟩
  have hin := hb.contains_id c
  have hget : (g.addStandard name s).get? c.id = g.get? c.id := get?_addStandard_of_contains hin
  rw [get?, get?, resolve_of_contains hin,
    resolve_of_contains (contains_addStandard_of_contains hin)] at hget
  rw [hget, hr]

end LispObjects.ClassGraph
