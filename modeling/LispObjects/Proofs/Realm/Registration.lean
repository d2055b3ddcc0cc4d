import LispObjects.Proofs.Heap.Frames
import LispObjects.Proofs.Realm.WellFormed
import LispObjects.Realm.TypeData

namespace LispObjects

/-!
# The classes that a new realm registers

Every built-in class is found under its name in a new realm.

* `BuiltinClass.name_injective` — no two of them have one name;
* `Realm.findClass?_boot` — each of them is found.
-/

namespace BuiltinClass

variable {c d : BuiltinClass}

/-- A built-in class is the one of its name. -/
theorem ofName?_name (c : BuiltinClass) : ofName? c.name = some c := by
  cases c <;> decide

/-- Names tell the built-in classes apart. -/
theorem name_injective (h : c.name = d.name) : c = d := by
  have hc := ofName?_name c
  rw [h, ofName?_name d, Option.some.injEq] at hc
  exact hc.symm

theorem mem_all (c : BuiltinClass) : c ∈ all :=
  List.mem_of_getElem? (all_getElem?_id c)

end BuiltinClass

/-- A symbol that is always given the same value has that value. -/
theorem Bindings.get?_ofPuts_of_forall {α : Type} {puts : List (Symbol × α)} {s : Symbol} {a : α}
    (hmem : (s, a) ∈ puts) (hall : ∀ p ∈ puts, p.1 = s → p.2 = a) :
    (ofPuts puts).get? s = some a := by
  induction puts using List.reverseRecOn with
  | nil => cases hmem
  | append_singleton puts p ih =>
    rw [ofPuts_concat, get?_put]
    -- the newest put of the key decides, and all of them agree
    by_cases hp : s = p.1
    · rw [if_pos hp, hall p (by simp) hp.symm]
    · rw [if_neg hp]
      refine ih ?_ fun q hq => hall q (by simp [hq])
      rcases List.mem_append.mp hmem with hmem | hmem
      · exact hmem
      · rw [← List.mem_singleton.mp hmem] at hp
        exact absurd rfl hp

namespace Realm

variable {r : Realm} {h h' : Heap} {cs : List BuiltinClass} {c : BuiltinClass}

/-- Classes that are registered in an environment that was just made are found there. -/
theorem findClass?_registered (hroot : r.root = (h.newEnvironment none).1)
    (hheap : h' = (cs.map fun c =>
        ((r.symbols.intern c.name .classes).1, Value.classObject c.id)).foldl
          (fun h' b => h'.bind (h.newEnvironment none).1 b.1 b.2) (h.newEnvironment none).2)
    (hfound : ∀ c ∈ cs, r.symbols.find? c.name .classes =
      some (r.symbols.intern c.name .classes).1) (hc : c ∈ cs) :
    r.findClass? h' c.name = some c.id := by
  let bindings := cs.map fun c => ((r.symbols.intern c.name .classes).1, Value.classObject c.id)
  have hread : h'.frames.read (h.newEnvironment none).1.frame = .ofPuts bindings := by
    have hcontains : (h.newEnvironment none).2.frames.Contains (h.newEnvironment none).1.frame :=
      h.frames.contains_alloc_self .empty
    have hempty : (h.newEnvironment none).2.frames.read (h.newEnvironment none).1.frame = .empty :=
      h.frames.read_alloc_self .empty
    rw [hheap, Heap.frames_foldl_bind, Store.read_foldl_put_self hcontains, hempty]
    rfl
  -- no two classes are registered under one symbol
  have hget : (Bindings.ofPuts bindings).get? (r.symbols.intern c.name .classes).1 =
      some (.classObject c.id) := by
    refine Bindings.get?_ofPuts_of_forall (List.mem_map.mpr ⟨c, hc, rfl⟩) ?_
    intro p hp hkey
    obtain ⟨d, -, rfl⟩ := List.mem_map.mp hp
    have hname : d.name = c.name := by
      have htext := congrArg Symbol.name hkey
      rwa [SymbolTable.name_intern, SymbolTable.name_intern] at htext
    rw [BuiltinClass.name_injective hname]
  have hlookup : h'.lookup? r.root (r.symbols.intern c.name .classes).1 =
      some (.classObject c.id) := by
    rw [hroot]
    show [(h.newEnvironment none).1.frame].findSome? _ = _
    rw [List.findSome?_singleton, hread, hget]
  rw [findClass?, hfound c hc, Option.bind_eq_bind, Option.bind_some, hlookup]
  rfl

/-- A new realm takes a frame from the heap, and leaves all else there as it is. -/
theorem exists_heap_boot (config : Config) (tableId : Nat) (h : Heap) :
    ∃ frames, (boot config tableId h).2 = { h with frames } := by
  rw [(registration_boot config tableId h).2.1, Heap.foldl_bind_eq]
  exact ⟨_, rfl⟩

/-- **New realms** find every built-in class. -/
theorem findClass?_boot (config : Config) (tableId : Nat) (h : Heap) (c : BuiltinClass) :
    (boot config tableId h).1.findClass? (boot config tableId h).2 c.name = some c.id := by
  obtain ⟨hroot, hheap, hfound⟩ := registration_boot config tableId h
  exact findClass?_registered hroot hheap hfound c.mem_all

end Realm

end LispObjects
