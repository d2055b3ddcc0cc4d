import LispObjects.Proofs.Realm.Rendering
import LispObjects.Proofs.World.TypeErrors

namespace LispObjects

/-!
# The wording of type errors in a run

Every type error says which type was expected, in the very words in which the data in its slot
`expected-type` is described.

* `Condition.ShowsExpectation` — the message of a condition against that slot;
* `World.WordsAsData` — so it is with the type errors that a realm makes, and with those that its
  operations end in;
* `World.wordsAsData_run` — this holds in every realm that is ever reached.
-/

variable {r : Realm} {h : Heap} {datum : Value} {spec : TypeSpec}

/-- The message names the expected type as the value of the slot is described. -/
def Condition.ShowsExpectation (c : Condition) (r : Realm) (h : Heap) : Prop :=
  ∃ data, c.slot? r h "expected-type" = some data ∧
    c.message = "Type assertion failed: expected " ++ h.describe data

/-- The condition for a wrong type shows it in the words of the data in it. -/
theorem Realm.showsExpectation_report (hr : r.WellFormed) (datum : Value) (spec : TypeSpec)
    (h : Heap) :
    (r.report (.wrongType datum spec) h).1.ShowsExpectation r
      (r.report (.wrongType datum spec) h).2 :=
  ⟨_, (r.slot?_wrongType hr.names datum spec h).2, r.message_report hr datum spec h⟩

namespace World

variable {w after : World} {events : List Event} {i : Nat} {before : Realm} {op : Operation}
  {condition : Condition}

/-- The type errors of the realm `i`, which is `r`, are worded as their data is described. -/
structure WordsAsData (w : World) (i : Nat) (r : Realm) : Prop where
  /-- On every heap a specification is shown as the data that it is written as is described. -/
  render (spec : TypeSpec) (h : Heap) :
    r.renderSpec spec = (r.specData spec h).2.describe (r.specData spec h).1
  /-- A type error can be made for every datum and specification.  Its message shows the specification,
  and describes the data for it, which is in its slot. -/
  report (datum : Value) (spec : TypeSpec) : ∃ condition after,
    w.perform i (.report (.wrongType datum spec)) = (some (.ok (.condition condition)), after) ∧
      condition.object.classId = BuiltinClass.typeError ∧
      condition.message = "Type assertion failed: expected " ++ r.renderSpec spec ∧
      condition.slot? r after.heap "datum" = some datum ∧
      condition.slot? r after.heap "expected-type" = some (r.specData spec w.heap).1 ∧
      condition.ShowsExpectation r after.heap
  /-- An operation that ends in a type error ends in one that is worded so. -/
  raised (op : Operation) (condition : Condition) (after : World) :
    w.perform i op = (some (.error condition), after) →
      condition.object.classId = BuiltinClass.typeError →
        ∃ r', after.realms[i]? = some r' ∧ condition.ShowsExpectation r' after.heap

/-- The operation that makes a condition. -/
theorem perform_report (hr : w.realms[i]? = some r) (f : Fault) :
    ∃ after, w.perform i (.report f) = (some (.ok (.condition (r.report f w.heap).1)), after) ∧
      after.heap = (r.report f w.heap).2 :=
  ⟨_, perform_of_realm hr (.report f), rfl⟩

/-- A type error that an operation ends in reports a fault for a wrong type, in the realm as the operation
left it. -/
theorem showsExpectation_of_raised (hr : (run events).realms[i]? = some before)
    (h : (run events).perform i op = (some (.error condition), after))
    (htype : condition.object.classId = BuiltinClass.typeError) :
    ∃ r, after.realms[i]? = some r ∧ condition.ShowsExpectation r after.heap := by
  obtain ⟨datum, expected, middle, hrun⟩ := exists_wrongType hr (congrArg Prod.fst h) htype
  obtain ⟨after', hperform, hheap, hr'⟩ := perform_of_runOn_error hr hrun
  obtain ⟨rfl, rfl⟩ : condition = _ ∧ after = after' := by simpa using h.symm.trans hperform
  have hself : (run (events ++ [.perform i op])).realms[i]? = some middle.realm := by
    rw [run_concat, World.after, h]
    exact hr'
  refine ⟨middle.realm, hr', ?_⟩
  rw [hheap]
  exact Realm.showsExpectation_report (wellFormed_run hself) datum expected middle.heap

/-- **Wordings in a run.** In every realm that is ever reached, a type error is worded as its data is
described. -/
theorem wordsAsData_run (hr : (run events).realms[i]? = some r) :
    (run events).WordsAsData i r where
  render := Realm.render_eq_describe_specData (wellFormed_run hr)
  report datum spec := by
    have hwf := wellFormed_run hr
    obtain ⟨after, hperform, hheap⟩ := perform_report hr (.wrongType datum spec)
    obtain ⟨hdatum, hexpected⟩ := Realm.slot?_wrongType hwf.names datum spec (run events).heap
    refine ⟨_, after, hperform, rfl, rfl, ?_, ?_, ?_⟩
    · rw [hheap]
      exact hdatum
    · rw [hheap]
      exact hexpected
    · rw [hheap]
      exact Realm.showsExpectation_report hwf datum spec (run events).heap
  raised op condition after := showsExpectation_of_raised hr

/-- The wordings agree in a realm that has just been made. -/
theorem wordsAsData_newRealm :
    ∃ r, (run [.newRealm {}]).realms[0]? = some r ∧ (run [.newRealm {}]).WordsAsData 0 r := by
  obtain ⟨g, hg, -⟩ := graph?_run_newRealm {}
  obtain ⟨r, hr, -⟩ := graph?_eq_some_iff.mp hg
  exact ⟨r, hr, wordsAsData_run hr⟩

end World

end LispObjects
