import LispObjects.Proofs.Class.Lineage
import LispObjects.Realm.Basic

namespace LispObjects

/-!
# The built-in classes of a graph

Every graph that a realm ever has begins with the records of the built-in classes, and they alone
fix how built-in classes stand to each other.

* `BuiltinClass.lineage` — the chain from a built-in class to `object`, read off the table;
* `ClassGraph.HasBuiltIns` — the graph begins with the table's rows, in order;
* `ClassGraph.HasBuiltIns.isSubclass_id` — in such a graph the subclass test between built-in
  classes is membership in the table's lineage, whatever else the graph holds;
* `ClassGraph.hasBuiltIns_builtIn` — the graph of a new realm is such a graph.
-/

/-! ### The table -/

namespace BuiltinClass

variable {c d : BuiltinClass}

/-- A handle belongs to one built-in class. -/
theorem id_injective (h : c.id = d.id) : c = d := by
  have hc := all_getElem?_id c
  rw [h, all_getElem?_id d, Option.some.injEq] at hc
  exact hc.symm

@[simp] theorem id_inj : c.id = d.id ↔ c = d :=
  ⟨id_injective, fun h => h ▸ rfl⟩

/-- The class at a position of the list has the position as its handle. -/
theorem id_getElem_all : ∀ i : Fin all.length, all[i].id = ⟨i⟩ := by
  decide

/-- Every handle below their number belongs to one of them. -/
theorem exists_eq_id_of_lt {h : ClassId} (hlt : h.index < all.length) :
    ∃ c : BuiltinClass, h = c.id :=
  ⟨_, (id_getElem_all ⟨h.index, hlt⟩).symm⟩

/-- The first classes of the chain that leads from `c` to `object`, at most `count` of them. -/
def lineageUpTo : Nat → BuiltinClass → List BuiltinClass
  | 0, _ => []
  | count + 1, c =>
    c :: match c.superclass? with
      | none => []
      | some s => lineageUpTo count s

/-- The chain that leads from `c` to `object`. -/
def lineage (c : BuiltinClass) : List BuiltinClass :=
  lineageUpTo all.length c

/-- The chain of a class goes on with that of its superclass. -/
theorem lineage_eq (c : BuiltinClass) : c.lineage = c :: c.superclass?.elim [] lineage := by
  cases c <;> rfl

example : lineage .typeError = [.typeError, .error, .condition, .standardObject, .object] := by
  decide

end BuiltinClass

/-- `r` is the table's row for the built-in class `c`. -/
structure ClassRecord.IsRowOf (r : ClassRecord) (c : BuiltinClass) : Prop where
  name : r.name.name = c.name
  space : r.name.space = .vars
  superclass? : r.superclass? = c.superclass?.map BuiltinClass.id
  metaclass : r.metaclass = c.metaclass
  representation : r.representation = .builtIn c

namespace ClassGraph

variable {g : ClassGraph} {c d : BuiltinClass} {h : ClassId}

/-- The graph begins with the rows of all built-in classes, each at its own handle. -/
def HasBuiltIns (g : ClassGraph) : Prop :=
  ∀ c : BuiltinClass, ∃ r, g.records[c.id.index]? = some r ∧ r.IsRowOf c

/-! ### What the rows say -/

namespace HasBuiltIns

/-- The handles of built-in classes are handles of the graph. -/
theorem contains_id (hb : g.HasBuiltIns) (c : BuiltinClass) : g.contains c.id = true := by
  obtain ⟨r, hr, -⟩ := hb c
  obtain ⟨hlt, -⟩ := Array.getElem?_eq_some_iff.mp hr
  exact decide_eq_true hlt

/-- There is a first class. -/
theorem size_pos (hb : g.HasBuiltIns) : 0 < g.size :=
  Nat.lt_of_le_of_lt (Nat.zero_le _) (of_decide_eq_true (hb.contains_id .object))

/-- The record of a built-in class is its row. -/
theorem get?_id (hb : g.HasBuiltIns) (c : BuiltinClass) :
    ∃ r, g.get? c.id = some r ∧ r.IsRowOf c := by
  rw [get?, resolve_of_contains (hb.contains_id c)]
  exact hb c

/-- The recorded superclass is the one of the table. -/
theorem superclass?_id (hb : g.HasBuiltIns) (c : BuiltinClass) :
    g.superclass? c.id = c.superclass?.map BuiltinClass.id := by
  obtain ⟨r, hr, hrow⟩ := hb.get?_id c
  rw [superclass?, hr, Option.bind_some, hrow.superclass?]

/-- `object` stands at the top. -/
theorem superclass?_object (hb : g.HasBuiltIns) :
    g.superclass? BuiltinClass.object.id = none :=
  hb.superclass?_id .object

/-- A handle from outside the graph is read as `object`, and so stands at the top as well. -/
theorem superclass?_of_not_contains (hb : g.HasBuiltIns) (hout : g.contains h = false) :
    g.superclass? h = none := by
  rw [← superclass?_resolve, resolve_of_not_contains hout]
  exact hb.superclass?_object

/-- The lineage of a built-in class is the table's. -/
theorem lineage_id (hb : g.HasBuiltIns) (c : BuiltinClass) :
    g.Lineage c.id (c.lineage.map BuiltinClass.id) := by
  -- by the position in the table, where superclasses come first
  induction hn : c.id.index using Nat.strongRecOn generalizing c with
  | _ n ih =>
    rw [BuiltinClass.lineage_eq c]
    have hsup := hb.superclass?_id c
    cases hs : c.superclass? with
    | none =>
      rw [hs] at hsup
      exact .top hsup
    | some s =>
      rw [hs] at hsup
      have hlt : s.id.index < n := hn ▸ BuiltinClass.id_superclass_lt hs
      exact .under hsup (ih _ hlt s rfl)

/-- The chain of a built-in class, also if it is looked up first. -/
theorem lineage_resolve_id (hb : g.HasBuiltIns) (c : BuiltinClass) :
    g.Lineage (g.resolve c.id) (c.lineage.map BuiltinClass.id) := by
  rw [resolve_of_contains (hb.contains_id c)]
  exact hb.lineage_id c

/-- **Subclasses among built-in classes.** The test is decided by the table. -/
theorem isSubclass_id (hb : g.HasBuiltIns) (c d : BuiltinClass) :
    g.isSubclass c.id d.id = decide (d ∈ c.lineage) := by
  rw [Bool.eq_iff_iff, decide_eq_true_eq, isSubclass_iff_reflTransGen,
    ← (hb.lineage_resolve_id c).mem_iff]
  simp

end HasBuiltIns

/-! ### The graph of a new realm -/

/-- A built-in class is recorded with its row, whatever the symbol table. -/
theorem isRowOf_record (c : BuiltinClass) (t : SymbolTable) :
    (c.record.run t).1.IsRowOf c :=
  ⟨t.name_intern c.name .vars, t.space_intern c.name .vars, rfl, rfl, rfl⟩

/-- The classes of a list are recorded with their rows, in order. -/
theorem isRowOf_mapM_record (cs : List BuiltinClass) (t : SymbolTable) :
    List.Forall₂ (fun r c => r.IsRowOf c) ((cs.mapM BuiltinClass.record).run t).1 cs := by
  induction cs generalizing t with
  | nil => exact .nil
  | cons c cs ih =>
    rw [List.mapM_cons]
    exact .cons (isRowOf_record c t) (ih _)

/-- The records of a new realm's graph are those rows. -/
theorem records_builtIn (t : SymbolTable) :
    (builtIn.run t).1.records = ((BuiltinClass.all.mapM BuiltinClass.record).run t).1.toArray := by
  unfold builtIn
  generalize BuiltinClass.all = cs
  rfl

/-- The graph of a new realm begins with the built-in classes. -/
theorem hasBuiltIns_builtIn (t : SymbolTable) : (builtIn.run t).1.HasBuiltIns := by
  intro c
  rw [records_builtIn]
  have hrows := isRowOf_mapM_record BuiltinClass.all t
  generalize ((BuiltinClass.all.mapM BuiltinClass.record).run t).1 = rows at hrows ⊢
  obtain ⟨hlt, hc⟩ := List.getElem?_eq_some_iff.mp (BuiltinClass.all_getElem?_id c)
  have hlt' : c.id.index < rows.length := hrows.length_eq ▸ hlt
  refine ⟨rows[c.id.index], by simp [hlt'], ?_⟩
  have hrow := hrows.get hlt' hlt
  rw [List.get_eq_getElem, List.get_eq_getElem, hc] at hrow
  exact hrow

/-- It has no others. -/
theorem size_builtIn (t : SymbolTable) :
    (builtIn.run t).1.size = BuiltinClass.all.length := by
  rw [size, records_builtIn, List.size_toArray, (isRowOf_mapM_record _ t).length_eq]

end ClassGraph

end LispObjects
