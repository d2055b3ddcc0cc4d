import LispObjects.Proofs.Realm.Registration
import LispObjects.Proofs.Realm.TypeData
import LispObjects.Proofs.World.Realms

namespace LispObjects

/-!
# Type specifications in a run

After any run a realm reads its own data for a type specification back, as long as the names in it are
registered to the classes that they are the names of.

* `World.ReadsBack` — what is read back, what it accepts, and the data that it is written as again;
* `World.readsBack_run` — this holds in every realm that is ever reached.
-/

variable {image : Image} {spec : TypeSpec} {v : Value}

/-! ### The operations -/

/-- Data that is read as a specification is answered as that, with nothing changed. -/
theorem Image.perform_specOfData (h : image.realm.specOfData image.heap v = .ok spec) :
    image.perform (.specOfData v) = (.ok (.spec spec), image) := by
  apply perform_of_ok
  simp only [Operation.action, Action.runOn_bind, Action.runOn_query, h, Action.runOn_pure]

/-- A test against data is the test against what the data is read as. -/
theorem Image.perform_hasTypeData {data : Value}
    (h : image.realm.specOfData image.heap data = .ok spec) (v : Value) :
    image.perform (.hasTypeData v data) =
      (.ok (.boolean (image.realm.hasType v spec)), image) := by
  have htest : image.realm.hasTypeData image.heap v data = .ok (image.realm.hasType v spec) := by
    rw [Realm.hasTypeData, h]
    rfl
  apply perform_of_ok
  simp only [Operation.action, Action.runOn_bind, Action.runOn_query, htest, Action.runOn_pure]

namespace World

variable {w : World} {events : List Event} {i : Nat} {r : Realm}

/-- Writing a specification leaves the realm as it was. -/
theorem perform_specData (hr : w.realms[i]? = some r) (spec : TypeSpec) :
    ∃ after, w.perform i (.specData spec) =
        (some (.ok (.value (r.specData spec w.heap).1)), after) ∧
      after.heap = (r.specData spec w.heap).2 ∧ after.realms[i]? = some r := by
  obtain ⟨hlt, -⟩ := Array.getElem?_eq_some_iff.mp hr
  refine ⟨_, perform_of_realm hr (.specData spec), rfl, ?_⟩
  exact Array.getElem?_setIfInBounds_self_of_lt hlt

/-- In a world the answer is the same. -/
theorem answer_specOfData (hr : w.realms[i]? = some r) (h : r.specOfData w.heap v = .ok spec) :
    (w.perform i (.specOfData v)).1 = some (.ok (.spec spec)) := by
  rw [perform_of_realm hr, Image.perform_specOfData h]

/-- In a world a test against data answers as the test against what it is read as. -/
theorem answer_hasTypeData (hr : w.realms[i]? = some r) {data : Value}
    (h : r.specOfData w.heap data = .ok spec) (v : Value) :
    (w.perform i (.hasTypeData v data)).1 = some (.ok (.boolean (r.hasType v spec))) := by
  rw [perform_of_realm hr, Image.perform_hasTypeData h]

/-! ### Reading back -/

/-- In a run in which a realm is given no superclass from outside its graph, everything is of the type
    `object`, so the type that is read back is the same. -/
theorem hasType_general (hr : (run events).realms[i]? = some r) (hown : OwnSuperclasses events i)
    (v : Value) (spec : TypeSpec) : r.hasType v spec.general = r.hasType v spec := by
  have ho := ordered_run hown (graph?_of_realm hr)
  exact TypeSpec.accepts_general v (ho.isSubclass_object (r.classOf v)) spec

/-- After the run the realm `i`, which is `r`, writes the specification as data.  It reads the data back
    with `any` for each `object`, and what it writes for that equals the data.  If the realm was never
    given a superclass from outside its graph, the data stands for the same type. -/
def ReadsBack (events : List Event) (i : Nat) (r : Realm) (spec : TypeSpec) : Prop :=
  ∃ data written, (run events).perform i (.specData spec) = (some (.ok (.value data)), written) ∧
    (written.perform i (.specOfData data)).1 = some (.ok (.spec spec.general)) ∧
    (OwnSuperclasses events i → ∀ v, (written.perform i (.hasTypeData v data)).1 =
      some (.ok (.boolean (r.hasType v spec)))) ∧
    ∃ again rewritten, written.perform i (.specData spec.general) =
        (some (.ok (.value again)), rewritten) ∧
      rewritten.heap.equal data again = true

/-- **Reading back in a run.** In every realm that is ever reached, for every specification with no tag
    `"null"` and with classes that are registered under their names, as long as `object` is. -/
theorem readsBack_run (hr : (run events).realms[i]? = some r)
    (hobject : r.findClass? (run events).heap "object" = some BuiltinClass.object.id)
    (hspec : r.Registered (run events).heap spec) : ReadsBack events i r spec := by
  obtain ⟨written, hwritten, hheap, hr'⟩ := perform_specData hr spec
  obtain ⟨rewritten, hrewritten, hheap', -⟩ := perform_specData hr' spec.general
  have hread := Realm.specOfData_specData (wellFormed_run hr) hobject hspec
  rw [← hheap] at hread
  refine ⟨_, written, hwritten, answer_specOfData hr' hread, fun hown v => ?_, _, rewritten,
    hrewritten, ?_⟩
  · rw [answer_hasTypeData hr' hread, hasType_general hr hown]
  · rw [hheap', hheap]
    exact r.equal_specData spec (run events).heap

/-- A new realm has registered the built-in classes under their names. -/
theorem findClass?_run_newRealm (config : Config) :
    ∃ r, (run [.newRealm config]).realms[0]? = some r ∧
      ∀ c : BuiltinClass, r.findClass? (run [.newRealm config]).heap c.name = some c.id := by
  have hrun : run [.newRealm config] = empty.after (.newRealm config) := run_concat [] _
  rw [hrun, realms_newRealm, heap_newRealm]
  exact ⟨_, Array.getElem?_push_size, Realm.findClass?_boot config _ _⟩

/-- A specification with a union inside a union, for a realm that has just been made. -/
def nestedUnion : TypeSpec :=
  .oneOf [.builtIn .string, .null, .tag "number", .oneOf [.builtIn .object, .any]]

/-- A union within a union, with the host's null and a class among its members. -/
theorem readsBack_nestedUnion :
    ∃ r, (run [.newRealm {}]).realms[0]? = some r ∧
      ReadsBack [.newRealm {}] 0 r nestedUnion := by
  obtain ⟨r, hr, hfind⟩ := findClass?_run_newRealm {}
  have hclass : ∀ c : BuiltinClass, r.Registered (run [.newRealm {}]).heap (.builtIn c) := by
    intro c
    show r.findClass? _ (r.className c.id).name = some c.id
    rw [Realm.name_className_builtIn (hasBuiltIns_classes hr), hfind]
  have htag : "number" ≠ "null" := by decide
  refine ⟨r, hr, readsBack_run hr (hfind .object) ?_⟩
  exact ⟨hclass .string, trivial, htag, ⟨hclass .object, trivial, trivial⟩, trivial⟩

end World

end LispObjects
