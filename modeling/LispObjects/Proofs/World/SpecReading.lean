import LispObjects.Proofs.Realm.Report
import LispObjects.Proofs.Realm.SpecGrammar
import LispObjects.Proofs.World.TypeData

namespace LispObjects

/-!
# Reading types from data in a run

Data of every shape is given to a realm that any run has led to.

* `World.ReadsGrammar` — what is read as a type, and the two ways in which the rest is refused;
* `World.readsGrammar_run` — this holds in every realm that is ever reached, for every finite value;
* `World.not_unknown_of_improper` — a list headed by `or` that ends in a number is not unknown, but the
  number is blamed for not being a list.
-/

variable {image : Image} {f : Fault} {v : Value}

/-- Data that cannot be read fails with nothing changed. -/
theorem Image.runOn_specOfData_error (h : image.realm.specOfData image.heap v = .error f) :
    (Operation.specOfData v).action.runOn image = (.error f, image) := by
  simp only [Operation.action, Action.runOn_bind, Action.runOn_query, h]

namespace World

variable {w : World} {events : List Event} {i : Nat} {r : Realm}

/-- What data is refused for is reported, and the realm stays as it was. -/
theorem perform_specOfData_error (hr : w.realms[i]? = some r)
    (hread : r.specOfData w.heap v = .error f) :
    ∃ after, w.perform i (.specOfData v) = (some (.error (r.report f w.heap).1), after) ∧
      after.heap = (r.report f w.heap).2 := by
  have hrun : (Operation.specOfData v).action.runOn ⟨w.heap, r⟩ = (.error f, ⟨w.heap, r⟩) :=
    Image.runOn_specOfData_error hread
  obtain ⟨after, hperform, hheap, -⟩ := perform_of_runOn_error hr hrun
  exact ⟨after, hperform, hheap⟩

/-- The data is refused: it comes to the `tail`, which is blamed for not being a list. -/
def BlamesTail (w : World) (i : Nat) (r : Realm) (v tail : Value) : Prop :=
  ∃ condition after, w.perform i (.specOfData v) = (some (.error condition), after) ∧
    condition.object.classId = BuiltinClass.typeError ∧
    condition.slot? r after.heap "datum" = some tail ∧
    condition.slot? r after.heap "expected-type" = some (.symbol (r.className BuiltinClass.list))

/-- The data is refused: it is no type that is known. -/
def Unknown (w : World) (i : Nat) (v : Value) : Prop :=
  ∃ condition after, w.perform i (.specOfData v) = (some (.error condition), after) ∧
    condition.object.classId = BuiltinClass.assertionError ∧
    condition.message = "Unknown type spec"

/-- The realm `i`, which is `r`, reads the value as the grammar says. -/
structure ReadsGrammar (w : World) (i : Nat) (r : Realm) (v : Value) : Prop where
  /-- Data is read as a type exactly if it describes the type, -/
  spec_iff (spec : TypeSpec) :
    (w.perform i (.specOfData v)).1 = some (.ok (.spec spec)) ↔ r.Describes w.heap v spec
  /-- the end of a union that is no proper list is blamed, if nothing before it is unknown, -/
  blamesTail_iff (tail : Value) : w.BlamesTail i r v tail ↔ r.StopsAt w.heap v tail
  /-- and all else is unknown. -/
  unknown_iff : w.Unknown i v ↔
    (∀ spec, ¬ r.Describes w.heap v spec) ∧ ∀ tail, ¬ r.StopsAt w.heap v tail

/-- A refusal reports the fault that the reading ended in. -/
theorem exists_fault_of_specOfData {condition : Condition} {after : World}
    (hr : w.realms[i]? = some r)
    (h : w.perform i (.specOfData v) = (some (.error condition), after)) :
    ∃ f, r.specOfData w.heap v = .error f ∧ condition = (r.report f w.heap).1 ∧
      after.heap = (r.report f w.heap).2 := by
  cases hread : r.specOfData w.heap v with
  | ok spec =>
    have hanswer := answer_specOfData hr hread
    rw [h] at hanswer
    cases hanswer
  | error f =>
    obtain ⟨after', hperform, hheap⟩ := perform_specOfData_error hr hread
    obtain ⟨rfl, rfl⟩ : condition = _ ∧ after = _ := by simpa using h.symm.trans hperform
    exact ⟨f, rfl, rfl, hheap⟩

/-- What blames a tail in the realm blames it in the world. -/
theorem blamesTail_iff_notA (hr : w.realms[i]? = some r) (hwf : r.WellFormed)
    (hv : w.heap.IsFinite v) (tail : Value) :
    w.BlamesTail i r v tail ↔ r.specOfData w.heap v = .error (.notA .list tail) := by
  constructor
  · rintro ⟨condition, after, hperform, htype, hdatum, -⟩
    obtain ⟨f, hread, rfl, hheap⟩ := exists_fault_of_specOfData hr hperform
    -- reading fails in two ways, which are reported as conditions of different classes
    obtain rfl | ⟨tail', rfl⟩ := Realm.error_of_specOfData hv hread
    · cases BuiltinClass.id_injective htype
    · obtain ⟨hdatum', -⟩ := Realm.slot?_wrongType hwf.names tail' (.builtIn .list) w.heap
      rw [hheap] at hdatum
      obtain rfl : tail' = tail := Option.some.inj (hdatum'.symm.trans hdatum)
      exact hread
  · intro hread
    obtain ⟨after, hperform, hheap⟩ := perform_specOfData_error hr hread
    obtain ⟨hdatum, hexpected⟩ := Realm.slot?_wrongType hwf.names tail (.builtIn .list) w.heap
    refine ⟨_, after, hperform, rfl, ?_, ?_⟩
    · rw [hheap]
      exact hdatum
    · rw [hheap]
      exact hexpected

/-- What is unknown in the realm is unknown in the world. -/
theorem unknown_iff_unknownTypeSpec (hr : w.realms[i]? = some r) (hv : w.heap.IsFinite v) :
    w.Unknown i v ↔ r.specOfData w.heap v = .error .unknownTypeSpec := by
  constructor
  · rintro ⟨condition, after, hperform, htype, -⟩
    obtain ⟨f, hread, rfl, -⟩ := exists_fault_of_specOfData hr hperform
    obtain rfl | ⟨tail, rfl⟩ := Realm.error_of_specOfData hv hread
    · exact hread
    · cases BuiltinClass.id_injective htype
  · intro hread
    obtain ⟨after, hperform, -⟩ := perform_specOfData_error hr hread
    exact ⟨_, after, hperform, rfl, rfl⟩

/-- **Reading in a run.** In every realm that is ever reached, every finite value is read as the grammar
says. -/
theorem readsGrammar_run (hr : (run events).realms[i]? = some r)
    (hv : (run events).heap.IsFinite v) : (run events).ReadsGrammar i r v where
  spec_iff spec := by
    rw [← Realm.specOfData_eq_ok_iff hv]
    constructor
    · intro hanswer
      -- reading ends in a specification or in a fault, and only the first is answered
      cases hread : r.specOfData (run events).heap v with
      | ok spec' =>
        rw [answer_specOfData hr hread] at hanswer
        cases hanswer
        rfl
      | error f =>
        obtain ⟨after, hperform, -⟩ := perform_specOfData_error hr hread
        rw [hperform] at hanswer
        cases hanswer
    · exact answer_specOfData hr
  blamesTail_iff tail := by
    rw [blamesTail_iff_notA hr (wellFormed_run hr) hv, Realm.specOfData_eq_notA_iff hv]
  unknown_iff := by
    rw [unknown_iff_unknownTypeSpec hr hv, Realm.specOfData_eq_unknown_iff hv]

/-! ### An improper union -/

/-- The symbol `or` of a world's first realm. -/
def orName : Symbol :=
  ⟨0, 12, "or", .vars⟩

/-- A new realm makes a list that is headed by `or`, goes on with the text `a`, and ends in a number. -/
def improperUnion : List Event :=
  [.newRealm {}, .perform 0 (.chain [.symbol orName, .string "a"] (.number (.ofInt 3)))]

/-- That list. -/
def improperUnionData : Value :=
  ((run [.newRealm {}]).heap.chain [.symbol orName, .string "a"] (.number (.ofInt 3))).1

/-- The list is finite, and it is read up to the number. -/
theorem improperUnion_stops :
    ∃ r, (run improperUnion).realms[0]? = some r ∧
      (run improperUnion).heap.IsFinite improperUnionData ∧
      r.StopsAt (run improperUnion).heap improperUnionData (.number (.ofInt 3)) := by
  have hfirst := realm_run_newRealm {}
  have hor : (Realm.boot {} 0 .empty).1.names.or = orName := by decide
  have hsplit : improperUnion = [.newRealm {}] ++
      [.perform 0 (.chain [.symbol orName, .string "a"] (.number (.ofInt 3)))] := rfl
  have hchain := Heap.isChain_chain (run [.newRealm {}]).heap [.symbol orName, .string "a"]
    (.number (.ofInt 3))
  have hheap : (run improperUnion).heap = ((run [.newRealm {}]).heap.chain
      [.symbol orName, .string "a"] (.number (.ofInt 3))).2 := by
    rw [hsplit, run_concat, heap_perform hfirst]
    rfl
  rw [← hheap] at hchain
  -- its items are no pairs, so the list is finite, and it stops at its end
  refine ⟨(Realm.boot {} 0 .empty).1, ?_, ?_, ?_⟩
  · rw [hsplit, run_concat, realm_perform_self hfirst]
    rfl
  · refine hchain.isFinite (fun item hitem => ?_) (Heap.isFinite_of_ne_pair (by simp))
    apply Heap.isFinite_of_ne_pair
    intro q hq
    rw [hq] at hitem
    simp at hitem
  · obtain ⟨p, hp, -, hcar, hrest⟩ := hchain
    show Realm.StopsAt _ _ improperUnionData _
    rw [improperUnionData, hp]
    exact .here (hcar.trans (by rw [hor])) hrest.passes (by simp) (by simp)

/-- The number is blamed. -/
theorem readsGrammar_improperUnion :
    ∃ r, (run improperUnion).realms[0]? = some r ∧
      (run improperUnion).heap.IsFinite improperUnionData ∧
      (run improperUnion).ReadsGrammar 0 r improperUnionData := by
  obtain ⟨r, hr, hv, -⟩ := improperUnion_stops
  exact ⟨r, hr, hv, readsGrammar_run hr hv⟩

/-- **An improper union is not unknown.** It is a finite value that describes no type, and the refusal is
not the one for unknown types. -/
theorem not_unknown_of_improper :
    ∃ r, (run improperUnion).realms[0]? = some r ∧
      (run improperUnion).heap.IsFinite improperUnionData ∧
      (∀ spec, ¬ r.Describes (run improperUnion).heap improperUnionData spec) ∧
      ¬ (run improperUnion).Unknown 0 improperUnionData := by
  obtain ⟨r, hr, hv, hstop⟩ := improperUnion_stops
  have hread := (Realm.specOfData_eq_notA_iff hv).mpr hstop
  refine ⟨r, hr, hv, fun spec hd => ?_, fun hunknown => ?_⟩
  · rw [← Realm.specOfData_eq_ok_iff hv, hread] at hd
    cases hd
  · rw [unknown_iff_unknownTypeSpec hr hv, hread] at hunknown
    cases hunknown

end World

end LispObjects
