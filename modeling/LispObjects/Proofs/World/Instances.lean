import LispObjects.Proofs.Action.Instances
import LispObjects.Proofs.World.ClassRecords
import LispObjects.Proofs.World.TypeErrors

namespace LispObjects.World

/-!
# Instances in a run

A realm that any run has led to is asked for an instance of a class, whatever the class and the
initialisers are.

* `World.InstanceLaws` — when an instance is made and what its slots are, and what is reported when none
  is;
* `World.instanceLaws_run` — this holds in every realm that is ever reached.
-/

variable {w : World} {events : List Event} {i : Nat} {r : Realm} {c : ClassId}
  {initializers : List Value} {v : Value} {after : World}

/-- The operation ends in a type error that blames `datum` for not being of the type `expected`. -/
def FailsBlaming (w : World) (i : Nat) (op : Operation) (datum : Value) (expected : TypeSpec) : Prop :=
  ∃ condition after r, w.perform i op = (some (.error condition), after) ∧
    condition.object.classId = BuiltinClass.typeError ∧
    w.Blames i op condition after r datum expected

/-- A wrong type that the operation ends in is blamed. -/
theorem failsBlaming_of_runOn {op : Operation} {datum : Value} {expected : TypeSpec} {middle : Image}
    (hr : (run events).realms[i]? = some r) (hop : op.Checks)
    (h : op.action.runOn ⟨(run events).heap, r⟩ = (.error (.wrongType datum expected), middle)) :
    (run events).FailsBlaming i op datum expected := by
  obtain ⟨condition, after, hperform, htype, hblames⟩ := blames_of_runOn hr hop h
  exact ⟨condition, after, _, hperform, htype, hblames⟩

/-- The realm `i`, which is `r`, is asked for an instance of the class `c`. -/
structure InstanceLaws (w : World) (i : Nat) (r : Realm) (c : ClassId) (initializers : List Value) :
    Prop where
  /-- There is one exactly if the class is a standard class, no value is missing that is asked for, and
  all names are symbols. -/
  made_iff : (∃ v after, w.perform i (.makeInstance c initializers) = (some (.ok (.value v)), after)) ↔
    r.metaclassOf c = BuiltinClass.standardClass ∧
      (initializers.length % 2 = 0 ∨ r.config.strictInitializers = false) ∧ Action.Named initializers
  /-- It is a new object, and has the slots that the names and values stand for. -/
  made (v : Value) (after : World) :
    w.perform i (.makeInstance c initializers) = (some (.ok (.value v)), after) →
      ∃ o r' pairs, v = .object o ∧ ¬ w.heap.slots.Contains o.slots ∧
        after.realms[i]? = some r' ∧ Action.Pairing initializers pairs ∧
        r'.Instantiates after.heap c pairs o
  /-- The class is refused first, -/
  wrongClass : r.metaclassOf c ≠ BuiltinClass.standardClass →
    w.FailsBlaming i (.makeInstance c initializers) (.classObject c) (.builtIn .standardClass)
  /-- then a value that is missing, -/
  missing : r.metaclassOf c = BuiltinClass.standardClass → initializers.length % 2 = 1 →
    r.config.strictInitializers = true →
      ∃ condition after,
        w.perform i (.makeInstance c initializers) = (some (.error condition), after) ∧
          condition.object.classId = BuiltinClass.assertionError ∧
          condition.message = "Odd number of slot initializers"
  /-- then the first name that is no symbol. -/
  unnamed (v : Value) : r.metaclassOf c = BuiltinClass.standardClass →
    (initializers.length % 2 = 0 ∨ r.config.strictInitializers = false) →
      Action.FirstUnnamed initializers v →
        w.FailsBlaming i (.makeInstance c initializers) v (.builtIn .symbol)

/-! ### Refusals -/

/-- The operation fails as the action does. -/
theorem runOn_makeInstance_error {image middle : Image} {f : Fault}
    (h : (Action.makeInstance c initializers).runOn image = (.error f, middle)) :
    (Operation.makeInstance c initializers).action.runOn image = (.error f, middle) := by
  simp only [Operation.action, Action.runOn_bind, h]

/-- In a world a type error is reported that blames what the action blames. -/
theorem failsBlaming_of_makeInstance {datum : Value} {expected : TypeSpec} {middle : Image}
    (hr : (run events).realms[i]? = some r)
    (h : (Action.makeInstance c initializers).runOn ⟨(run events).heap, r⟩ =
      (.error (.wrongType datum expected), middle)) :
    (run events).FailsBlaming i (.makeInstance c initializers) datum expected :=
  failsBlaming_of_runOn hr trivial (runOn_makeInstance_error h)

/-- **The class** is checked first, and blamed if it is no standard class. -/
theorem failsBlaming_class (hr : (run events).realms[i]? = some r) (initializers : List Value)
    (hclass : r.metaclassOf c ≠ BuiltinClass.standardClass) :
    (run events).FailsBlaming i (.makeInstance c initializers) (.classObject c)
      (.builtIn .standardClass) := by
  apply failsBlaming_of_makeInstance hr
  rw [Action.runOn_makeInstance (hasBuiltIns_classes hr), if_neg hclass]

/-- **A half pair** is refused next, where the realm is strict, before any name is looked at. -/
theorem fails_missing (hr : (run events).realms[i]? = some r)
    (hclass : r.metaclassOf c = BuiltinClass.standardClass)
    (hcount : initializers.length % 2 = 1 ∧ r.config.strictInitializers = true) :
    ∃ condition after,
      (run events).perform i (.makeInstance c initializers) = (some (.error condition), after) ∧
        condition.object.classId = BuiltinClass.assertionError ∧
        condition.message = "Odd number of slot initializers" := by
  have hrun : (Action.makeInstance c initializers).runOn ⟨(run events).heap, r⟩ =
      (.error .oddInitializers, ⟨(run events).heap, r⟩) := by
    rw [Action.runOn_makeInstance (hasBuiltIns_classes hr), if_pos hclass, if_pos hcount]
  obtain ⟨after, hperform, -⟩ := perform_of_runOn_error hr (runOn_makeInstance_error hrun)
  exact ⟨_, after, hperform, rfl, rfl⟩

/-- **The names** are checked in their order, and the first one that is no symbol is blamed. -/
theorem failsBlaming_name (hr : (run events).realms[i]? = some r)
    (hclass : r.metaclassOf c = BuiltinClass.standardClass)
    (hcount : ¬ (initializers.length % 2 = 1 ∧ r.config.strictInitializers = true))
    (hunnamed : Action.FirstUnnamed initializers v) :
    (run events).FailsBlaming i (.makeInstance c initializers) v (.builtIn .symbol) := by
  obtain ⟨middle, hrun⟩ := Action.makeInstance_unnamed ⟨(run events).heap, r⟩
    (hasBuiltIns_classes hr) hclass hcount hunnamed
  exact failsBlaming_of_makeInstance hr hrun

/-! ### Instances -/

/-- **An instance** is made in all other cases, with the slots that its initialisers name. -/
theorem exists_instance (hr : (run events).realms[i]? = some r)
    (hclass : r.metaclassOf c = BuiltinClass.standardClass)
    (hcount : ¬ (initializers.length % 2 = 1 ∧ r.config.strictInitializers = true))
    (hnamed : Action.Named initializers) :
    ∃ o after r',
      (run events).perform i (.makeInstance c initializers) =
          (some (.ok (.value (.object o))), after) ∧
        ¬ (run events).heap.slots.Contains o.slots ∧ after.realms[i]? = some r' ∧
        r'.Instantiates after.heap c (Action.slotPairs initializers) o := by
  obtain ⟨o, middle, hrun, hnew, hslots⟩ := Action.makeInstance_named ⟨(run events).heap, r⟩
    (hasBuiltIns_classes hr) hclass hcount hnamed
  have hrunOp : (Operation.makeInstance c initializers).action.runOn ⟨(run events).heap, r⟩ =
      (.ok (.value (.object o)), middle) := by
    simp only [Operation.action, Action.runOn_bind, hrun, Action.runOn_pure]
  obtain ⟨after, hperform, hheap, hr'⟩ := perform_of_runOn_ok hr hrunOp
  exact ⟨o, after, middle.realm, hperform, hnew, hr', hheap ▸ hslots⟩

/-- What is asked of an instance that is made. -/
theorem asked_of_made (hr : (run events).realms[i]? = some r)
    (h : (run events).perform i (.makeInstance c initializers) = (some (.ok (.value v)), after)) :
    r.metaclassOf c = BuiltinClass.standardClass ∧
      ¬ (initializers.length % 2 = 1 ∧ r.config.strictInitializers = true) ∧
      Action.Named initializers := by
  -- each refusal excludes the others, so a success means that none of them applied
  have hclass : r.metaclassOf c = BuiltinClass.standardClass := by
    by_contra hwrong
    obtain ⟨_, _, _, hfails, -⟩ := failsBlaming_class hr initializers hwrong
    cases h.symm.trans hfails
  have hcount : ¬ (initializers.length % 2 = 1 ∧ r.config.strictInitializers = true) := by
    intro hmissing
    obtain ⟨_, _, hfails, -⟩ := fails_missing hr hclass hmissing
    cases h.symm.trans hfails
  refine ⟨hclass, hcount, ?_⟩
  obtain ⟨hnamed, -⟩ | ⟨x, -, hunnamed, -⟩ :=
    Action.slotsOfInitializers_cases initializers ⟨(run events).heap, r⟩
  · exact hnamed
  · obtain ⟨_, _, _, hfails, -⟩ := failsBlaming_name hr hclass hcount hunnamed
    cases h.symm.trans hfails

/-- **Instances in a run.** In every realm that is ever reached, for every handle of a class and every
list of initialisers. -/
theorem instanceLaws_run (hr : (run events).realms[i]? = some r) (c : ClassId)
    (initializers : List Value) : (run events).InstanceLaws i r c initializers := by
  -- a count that is no matter: it is even, or the realm is not strict
  have hcount_iff : (initializers.length % 2 = 0 ∨ r.config.strictInitializers = false) ↔
      ¬ (initializers.length % 2 = 1 ∧ r.config.strictInitializers = true) := by
    rw [not_and_or, Bool.not_eq_true]
    exact or_congr_left Nat.mod_two_ne_one.symm
  constructor
  · rw [hcount_iff]
    constructor
    · rintro ⟨v, after, h⟩
      exact asked_of_made hr h
    · rintro ⟨hclass, hcount, hnamed⟩
      obtain ⟨o, after, _, hperform, -⟩ := exists_instance hr hclass hcount hnamed
      exact ⟨.object o, after, hperform⟩
  -- an instance that is made is the only one that there is to make
  · intro v after h
    obtain ⟨hclass, hcount, hnamed⟩ := asked_of_made hr h
    obtain ⟨o, after', r', hperform, hnew, hr', hslots⟩ := exists_instance hr hclass hcount hnamed
    obtain ⟨rfl, rfl⟩ : v = .object o ∧ after = after' := by simpa using h.symm.trans hperform
    exact ⟨o, r', _, rfl, hnew, hr', Action.pairing_slotPairs initializers hnamed, hslots⟩
  · exact failsBlaming_class hr initializers
  · exact fun hclass hodd hstrict => fails_missing hr hclass ⟨hodd, hstrict⟩
  · exact fun v hclass hcount => failsBlaming_name hr hclass (hcount_iff.mp hcount)

/-- A realm in which the last name may go without a value. -/
def lenientRealm : List Event :=
  [.newRealm ⟨20, false⟩]

/-- A name, another one, and the first one again without a value. -/
def repeatedName : List Value :=
  [.symbol ⟨0, 0, "message", .vars⟩, .void, .symbol ⟨0, 1, "datum", .vars⟩, .nil,
    .symbol ⟨0, 0, "message", .vars⟩]

/-- An instance is made of them. -/
theorem instanceLaws_repeatedName :
    ∃ r, (run lenientRealm).realms[0]? = some r ∧
      (run lenientRealm).InstanceLaws 0 r BuiltinClass.standardObject repeatedName ∧
      ∃ v after, (run lenientRealm).perform 0
        (.makeInstance BuiltinClass.standardObject repeatedName) =
          (some (.ok (.value v)), after) := by
  have hr := realm_run_newRealm ⟨20, false⟩
  have hlaws := instanceLaws_run hr BuiltinClass.standardObject repeatedName
  refine ⟨_, hr, hlaws, hlaws.made_iff.mpr ⟨?_, .inr rfl, ?_⟩⟩
  · exact Realm.classOf_builtIn (hasBuiltIns_classes hr) .standardObject
  · exact ((Action.named_singleton _).cons _ _).cons _ _

end LispObjects.World
