import LispObjects.Proofs.Action.Outcome
import LispObjects.Proofs.Class.Extension
import LispObjects.Proofs.Heap.Growth
import LispObjects.Proofs.Realm.TypeTest

namespace LispObjects

/-!
# Making a class

The outcome of making a standard class, for every value that may be given as the superclass.

* `Image.addClass` — the image with one more class, registered under its name;
* `Action.makeClass_of_hasType`, `Action.makeClass_of_not_hasType` — an instance of `class` makes
  such an image, and any other value is refused with the image as it was;
* `Image.MakesClass`, `Image.RefusesClass` — the same for the operation, whose refusal is reported by
  a condition that touches neither the realm nor an environment.
-/

variable {image : Image} {name : Symbol} {v : Value} {c s : ClassId}

/-- The superclass that a new class is recorded with: the handle of a class, and `object` for
    anything else that passes for one. -/
def Value.superclassHandle (v : Value) : ClassId :=
  v.classId?.getD BuiltinClass.object.id

/-- The image with a new class under `s`, bound in the root environment to its name as a class. -/
def Image.addClass (image : Image) (name : Symbol) (s : ClassId) : Image :=
  let (plain, symbols) := image.realm.symbols.convert name .vars
  let (key, symbols) := symbols.convert plain .classes
  ⟨image.heap.bind image.realm.root key (.classObject image.realm.classes.next),
    { image.realm with symbols, classes := image.realm.classes.addStandard plain s }⟩

/-- What making a class does to the graph. -/
@[simp] theorem Image.classes_addClass (image : Image) (name : Symbol) (s : ClassId) :
    (image.addClass name s).realm.classes =
      image.realm.classes.addStandard (image.realm.symbols.convert name .vars).1 s := rfl

namespace Action

/-- An instance of `class` as the superclass makes a class. -/
theorem makeClass_of_hasType (h : image.realm.hasType v (.builtIn .classObject) = true) :
    (makeClass name v).runOn image =
      (.ok image.realm.classes.next, image.addClass name v.superclassHandle) := by
  simp only [makeClass, assertType, runOn_bind, runOn_query, Realm.assertType, h, if_true]
  -- the rest cannot fail: two symbols, a representation, a record and a binding
  simp only [convert, bindRoot, runOn_bind, runOn_onSymbols, runOn_onClasses, runOn_get,
    runOn_changeHeap, runOn_pure]
  rfl

/-- Anything else is refused, and the image stays as it is. -/
theorem makeClass_of_not_hasType (h : image.realm.hasType v (.builtIn .classObject) = false) :
    (makeClass name v).runOn image = (.error (.notA .classObject v), image) := by
  simp only [makeClass, assertType, runOn_bind, runOn_query, Realm.assertType, h]
  rfl

end Action

/-! ### The operation -/

namespace Image

/-- **Success.** The answer is the next handle of the graph. -/
theorem perform_makeClass_ok (image : Image) (name : Symbol)
    (h : image.realm.hasType v (.builtIn .classObject) = true) :
    image.perform (.makeClass name v) =
      (.ok (.value (.classObject image.realm.classes.next)),
        image.addClass name v.superclassHandle) := by
  apply perform_of_ok
  rw [Operation.action, Action.runOn_bind, Action.makeClass_of_hasType h]
  rfl

/-- Making a class under `v` succeeds, and the new class has the superclass `s`. -/
def MakesClass (image : Image) (name : Symbol) (v : Value) (s : ClassId) : Prop :=
  ∃ after, image.perform (.makeClass name v) =
      (.ok (.value (.classObject image.realm.classes.next)), after) ∧
    after.realm.classes.superclass? image.realm.classes.next = some s

/-- Making a class under `v` fails with a `type-error`.  The realm is as before, and so is all that is
    bound in any environment. -/
def RefusesClass (image : Image) (name : Symbol) (v : Value) : Prop :=
  ∃ condition after, image.perform (.makeClass name v) = (.error condition, after) ∧
    condition.object.classId = BuiltinClass.typeError.id ∧
    after.realm = image.realm ∧ after.heap.frames = image.heap.frames

/-- What passes for a class makes one, under the handle that it holds. -/
theorem makesClass_of_hasType (h : image.realm.hasType v (.builtIn .classObject) = true) :
    image.MakesClass name v v.superclassHandle :=
  ⟨_, perform_makeClass_ok image name h, ClassGraph.superclass?_addStandard_next⟩

/-- **Refusal.** A `type-error` is reported; no class is made and nothing is bound. -/
theorem refusesClass_of_not_hasType
    (h : image.realm.hasType v (.builtIn .classObject) = false) : image.RefusesClass name v := by
  have hrun : (Operation.makeClass name v).action.runOn image =
      (.error (.notA .classObject v), image) := by
    rw [Operation.action, Action.runOn_bind, Action.makeClass_of_not_hasType h]
  refine ⟨_, _, perform_of_error hrun, rfl, rfl, ?_⟩
  exact (Heap.grows_report _ _ _).frames

/-- The superclass of the new class is determined. -/
theorem MakesClass.unique (hc : image.MakesClass name v c) (hs : image.MakesClass name v s) :
    c = s := by
  obtain ⟨after, hafter, hc⟩ := hc
  obtain ⟨after', hafter', hs⟩ := hs
  rw [hafter, Prod.mk.injEq] at hafter'
  rw [← hafter'.2, hc, Option.some.injEq] at hs
  exact hs

/-- A class is not made and refused. -/
theorem MakesClass.not_refusesClass (hc : image.MakesClass name v c) :
    ¬ image.RefusesClass name v := by
  rintro ⟨condition, after', hfail, -⟩
  obtain ⟨after, hok, -⟩ := hc
  rw [hok] at hfail
  cases hfail

end Image

end LispObjects
