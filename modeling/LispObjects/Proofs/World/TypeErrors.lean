import LispObjects.Proofs.Action.TypeErrors
import LispObjects.Proofs.Realm.Report
import LispObjects.Proofs.World.Realms

namespace LispObjects

/-!
# Type errors in a run

An operation that ends in a type error, in a world that any run has led to.

* `World.Blames` — the condition carries the value and the expectation that it was raised with;
* `World.blames_of_typeError` — so does every type error of an operation that checks what it is given, and
  what it blames is found not to be of the type, but for the refusals that `Operation.RefusesFitting` lists;
* `World.blames_fitting_text` — a text of two characters, blamed for not being a text.
-/

variable {image middle : Image} {op : Operation} {datum : Value} {expected : TypeSpec} {f : Fault}
  {condition : Condition}

namespace World

variable {w after : World} {events : List Event} {i : Nat} {r before : Realm}

/-- The operation was performed in the realm `i` and failed as `condition` says, which blames `datum` for
not being of the type `expected`; its slots are read in the realm `r` as the operation left it. -/
structure Blames (w : World) (i : Nat) (op : Operation) (condition : Condition) (after : World)
    (r : Realm) (datum : Value) (expected : TypeSpec) : Prop where
  raised : ∃ before image, w.realms[i]? = some before ∧
    op.action.runOn ⟨w.heap, before⟩ = (.error (.wrongType datum expected), image)
  realm : after.realms[i]? = some r
  datum : condition.slot? r after.heap "datum" = some datum
  expected : condition.slot? r after.heap "expected-type" = some (r.specData expected w.heap).1

/-- Only a fault for a wrong type is reported as a type error. -/
theorem exists_wrongType (hbefore : w.realms[i]? = some before)
    (h : (w.perform i op).1 = some (.error condition))
    (htype : condition.object.classId = BuiltinClass.typeError) :
    ∃ datum expected middle,
      op.action.runOn ⟨w.heap, before⟩ = (.error (.wrongType datum expected), middle) := by
  rw [perform_of_realm hbefore] at h
  cases hrun : op.action.runOn ⟨w.heap, before⟩ with
  | mk result middle =>
    cases result with
    | ok answer =>
      rw [Image.perform_of_ok hrun] at h
      cases h
    | error f =>
      rw [Image.perform_of_error hrun] at h
      cases h
      -- the class of the condition tells the kind of the fault
      have hcategory : f.category = .typeError := BuiltinClass.id_injective htype
      cases f with
      | wrongType datum expected => exact ⟨datum, expected, middle, rfl⟩
      | _ => cases hcategory

/-- A fault for a wrong type is the one that the condition blames the value for. -/
theorem blames_of_runOn (hbefore : (run events).realms[i]? = some before) (hop : op.Checks)
    (hrun : op.action.runOn ⟨(run events).heap, before⟩ = (.error (.wrongType datum expected), middle)) :
    ∃ condition after, (run events).perform i op = (some (.error condition), after) ∧
      condition.object.classId = BuiltinClass.typeError ∧
      (run events).Blames i op condition after middle.realm datum expected := by
  have hheap : middle.heap = (run events).heap := by
    obtain rfl | ⟨c, initializers, -, rfl⟩ := Operation.image_of_error (hasBuiltIns_classes hbefore)
      (Operation.not_reachesBody_of_checks hop) hrun <;> rfl
  have hperform := perform_of_realm hbefore op
  rw [Image.perform_of_error hrun] at hperform
  -- the realm as it is afterwards knows the names of the slots
  have hafter : ((run (events ++ [.perform i op])).realms)[i]? = some middle.realm := by
    rw [run_concat, realm_perform_self hbefore, Image.perform_of_error hrun]
  have hnames := (wellFormed_run hafter).names
  obtain ⟨hdatum, hexpected⟩ := Realm.slot?_wrongType hnames datum expected middle.heap
  refine ⟨_, _, hperform, rfl, ⟨_, _, hbefore, hrun⟩, ?_, hdatum, ?_⟩
  · rw [run_concat] at hafter
    rw [← hafter, World.after, hperform]
  · rw [← hheap]
    exact hexpected

/-- **Type errors.** After any run in which the realm is given no superclass from outside its graph, an
operation that ends in a type error was raised with a value and an expectation that the error carries.
Whether the value is of the expected type is found out, and it is in the listed cases only. -/
theorem blames_of_typeError (events : List Event) (i : Nat) (op : Operation) (condition : Condition)
    (after : World) (hown : OwnSuperclasses events i) (hop : op.Checks)
    (hends : op.ChainsEnd (run events).heap)
    (h : (run events).perform i op = (some (.error condition), after))
    (htype : condition.object.classId = BuiltinClass.typeError) :
    ∃ r datum expected fits, (run events).Blames i op condition after r datum expected ∧
      r.hasType? datum expected = some fits ∧
        (fits = true ↔ op.RefusesFitting r datum expected) := by
  obtain ⟨before, hbefore⟩ := exists_realm_of_answer (congrArg Prod.fst h)
  have hb := hasBuiltIns_classes hbefore
  obtain ⟨datum, expected, middle, hrun⟩ := exists_wrongType hbefore (congrArg Prod.fst h) htype
  obtain ⟨_, _, hperform, -, hblames⟩ := blames_of_runOn hbefore hop hrun
  obtain ⟨rfl, rfl⟩ : _ = condition ∧ _ = after := by simpa using hperform.symm.trans h
  -- a failed operation may have keyed slot names, and has made no class
  have hclasses : middle.realm.classes = before.classes := by
    obtain rfl | ⟨c, initializers, -, rfl⟩ :=
      Operation.image_of_error hb (Operation.not_reachesBody_of_checks hop) hrun <;> rfl
  -- every chain ends in such a realm, and so does the search
  have ho : middle.realm.classes.Ordered := hclasses ▸ ordered_run hown (graph?_of_realm hbefore)
  refine ⟨middle.realm, datum, expected, _, hblames, Realm.hasType?_eq_some_of_ordered ho datum expected,
    fun hfits => ?_, fun hrefused => ?_⟩
  · rw [Realm.hasType_congr hclasses] at hfits
    have howns := Operation.raises_owns hop _ _ _ hrun hb hends
    exact (howns datum expected rfl hfits).congr hclasses
  · exact hrefused.hasType (hclasses ▸ hb)

/-- A number is asked for, and the second operand is a text. -/
def sumWithText : Operation :=
  .add (.number (.ofInt 1)) (.string "1")

/-- The text is blamed. -/
theorem blames_of_sumWithText :
    ∃ condition after, OwnSuperclasses [.newRealm {}] 0 ∧ sumWithText.Checks ∧
      sumWithText.ChainsEnd (run [.newRealm {}]).heap ∧
      (run [.newRealm {}]).perform 0 sumWithText = (some (.error condition), after) ∧
      condition.object.classId = BuiltinClass.typeError ∧
      ∃ r datum expected fits,
        (run [.newRealm {}]).Blames 0 sumWithText condition after r datum expected ∧
          r.hasType? datum expected = some fits ∧
            (fits = true ↔ sumWithText.RefusesFitting r datum expected) := by
  obtain ⟨g, hg, -⟩ := graph?_run_newRealm {}
  obtain ⟨r, hr, -⟩ := graph?_eq_some_iff.mp hg
  have hown : OwnSuperclasses [.newRealm {}] 0 := ownSuperclasses_newRealm _ _
  have hop : sumWithText.Checks := trivial
  have hends : sumWithText.ChainsEnd (run [.newRealm {}]).heap := trivial
  have hrun : sumWithText.action.runOn ⟨(run [.newRealm {}]).heap, r⟩ =
      (.error (.notA .number (.string "1")), ⟨(run [.newRealm {}]).heap, r⟩) := rfl
  obtain ⟨condition, after, hperform, htype, -⟩ := blames_of_runOn hr hop hrun
  exact ⟨condition, after, hown, hop, hends, hperform, htype,
    blames_of_typeError _ 0 _ condition after hown hop hends hperform htype⟩

/-! ### A refusal of what fits -/

/-- A realm that makes an output stream. -/
def madeOutput : List Event :=
  [.newRealm {}, .perform 0 .makeOutput]

/-- A text of two characters is to be written as one. -/
def writtenPair : Operation :=
  .writeChar (.outputStream ⟨0⟩) (.string "xy")

/-- **A text blamed for not being one.** -/
theorem blames_fitting_text :
    ∃ condition after r,
      (run madeOutput).perform 0 writtenPair = (some (.error condition), after) ∧
        condition.object.classId = BuiltinClass.typeError ∧
        (run madeOutput).Blames 0 writtenPair condition after r (.string "xy") (.builtIn .string) ∧
        r.hasType (.string "xy") (.builtIn .string) = true := by
  have hsplit : madeOutput = [.newRealm {}] ++ [.perform 0 .makeOutput] := rfl
  obtain ⟨g, hg, -⟩ := graph?_run_newRealm {}
  obtain ⟨first, hfirst, -⟩ := graph?_eq_some_iff.mp hg
  obtain ⟨r, hr, -⟩ := exists_extends_after hfirst (.perform 0 .makeOutput)
  rw [← run_concat, ← hsplit] at hr
  have hop : writtenPair.Checks := trivial
  have hrun : writtenPair.action.runOn ⟨(run madeOutput).heap, r⟩ =
      (.error (.notA .string (.string "xy")), ⟨(run madeOutput).heap, r⟩) := rfl
  obtain ⟨condition, after, hperform, htype, hblames⟩ := blames_of_runOn hr hop hrun
  refine ⟨condition, after, r, hperform, htype, hblames, ?_⟩
  exact (Realm.hasType_builtIn_of_kind (hasBuiltIns_classes hr) rfl .string).trans (by decide)

end World

end LispObjects
