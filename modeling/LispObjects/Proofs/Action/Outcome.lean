import LispObjects.Operation
import Mathlib.Order.Defs.Unbundled

namespace LispObjects

/-!
# Outcomes of actions

What an action gives and leaves behind, read off its parts, and what actions keep.

* `runOn_bind` and its siblings — the outcome of each way to build an action;
* `Keeps R a` — whatever the action `a` ends in, the image that it leaves is related by `R` to the
  one it began with.  For a preorder `R` this passes from the parts of an action to the whole
  (`Keeps.bind`), faults included;
* `Image.perform_of_ok`, `Image.perform_of_error` — what performing an operation makes of the
  outcome of the action behind it.
-/

namespace Action

variable {α β : Type} {R : Image → Image → Prop} {a : Action α} {f : α → Action β}

/-! ### Outcomes -/

/-- A value is given and the image left as it is. -/
@[simp] theorem runOn_pure (x : α) (image : Image) :
    (pure x : Action α).runOn image = (.ok x, image) := rfl

/-- An action after another one begins with what the first gives and leaves; a fault ends both. -/
theorem runOn_bind (a : Action α) (f : α → Action β) (image : Image) :
    (a >>= f).runOn image =
      match a.runOn image with
      | (.ok x, image) => (f x).runOn image
      | (.error e, image) => (.error e, image) := by
  simp only [runOn, ExceptT.run_bind, StateT.run_bind]
  obtain ⟨x | e, image⟩ := StateT.run (ExceptT.run a) image <;> rfl

/-- The image is given as it is. -/
@[simp] theorem runOn_get (image : Image) : (get : Action Image).runOn image = (.ok image, image) :=
  rfl

/-- A fault leaves the image as it is. -/
@[simp] theorem runOn_fail (e : Fault) (image : Image) :
    (fail e : Action α).runOn image = (.error e, image) := rfl

/-- A result that is computed without the image leaves it as it is. -/
@[simp] theorem runOn_ofExcept (x : Except Fault α) (image : Image) :
    (ofExcept x : Action α).runOn image = (x, image) := by
  cases x <;> rfl

/-- A result that is computed from the image leaves it as it is. -/
@[simp] theorem runOn_query (q : Realm → Heap → Except Fault α) (image : Image) :
    (query q).runOn image = (q image.realm image.heap, image) := by
  rw [query, runOn_bind, runOn_get]
  exact runOn_ofExcept _ image

/-- A step on the heap gives its value and leaves the realm. -/
@[simp] theorem runOn_onHeap (h : Heap → α × Heap) (image : Image) :
    (onHeap h).runOn image =
      (.ok (h image.heap).1, { image with heap := (h image.heap).2 }) := rfl

/-- A change of the heap leaves the realm. -/
@[simp] theorem runOn_changeHeap (h : Heap → Heap) (image : Image) :
    (changeHeap h).runOn image = (.ok (), { image with heap := h image.heap }) := rfl

/-- A step on the symbol table leaves the rest of the realm and the heap. -/
@[simp] theorem runOn_onSymbols (t : SymbolTable → α × SymbolTable) (image : Image) :
    (onSymbols t).runOn image =
      (.ok (t image.realm.symbols).1,
        { image with realm.symbols := (t image.realm.symbols).2 }) := rfl

/-- A step on the class graph leaves the rest of the realm and the heap. -/
@[simp] theorem runOn_onClasses (g : ClassGraph → α × ClassGraph) (image : Image) :
    (onClasses g).runOn image =
      (.ok (g image.realm.classes).1,
        { image with realm.classes := (g image.realm.classes).2 }) := rfl

/-! ### What actions keep -/

/-- Whatever `a` ends in, the image left behind is related by `R` to the one it began with. -/
def Keeps (R : Image → Image → Prop) (a : Action α) : Prop :=
  ∀ image, R image (a.runOn image).2

namespace Keeps

variable [IsPreorder Image R]

/-- An action that only looks keeps everything. -/
theorem of_runOn_snd (h : ∀ image, (a.runOn image).2 = image) : Keeps R a := by
  intro image
  rw [h]
  exact refl_of R image

/-- Giving a value changes nothing, which every preorder allows. -/
@[simp] theorem pure (x : α) : Keeps R (Pure.pure x : Action α) :=
  of_runOn_snd fun image => by rw [runOn_pure]

/-- Looking at the image changes nothing. -/
@[simp] theorem get : Keeps R (MonadState.get : Action Image) :=
  of_runOn_snd fun image => by rw [runOn_get]

/-- Failing changes nothing. -/
@[simp] theorem fail (e : Fault) : Keeps R (Action.fail e : Action α) :=
  of_runOn_snd fun image => by rw [runOn_fail]

/-- A computation without the image changes nothing. -/
@[simp] theorem of_except (x : Except Fault α) : Keeps R (ofExcept x : Action α) :=
  of_runOn_snd fun image => by rw [runOn_ofExcept]

/-- A computation that only reads the image changes nothing. -/
@[simp] theorem query (q : Realm → Heap → Except Fault α) : Keeps R (Action.query q) :=
  of_runOn_snd fun image => by rw [runOn_query]

/-- **Sequencing.** What both parts keep, the whole keeps, also where the first part fails. -/
@[simp] theorem bind (ha : Keeps R a) (hf : ∀ x, Keeps R (f x)) : Keeps R (a >>= f) := by
  intro image
  have hfirst := ha image
  rw [runOn_bind]
  generalize a.runOn image = outcome at hfirst ⊢
  obtain ⟨result, image'⟩ := outcome
  cases result with
  | error e => exact hfirst
  | ok x => exact trans_of R hfirst (hf x image')

/-- What is done to the value changes no image. -/
@[simp] theorem map {g : α → β} (ha : Keeps R a) : Keeps R (g <$> a) := by
  rw [map_eq_pure_bind]
  exact ha.bind fun x => .pure (g x)

end Keeps

end Action

/-! ### Performing operations -/

namespace Image

variable {image after : Image} {op : Operation} {answer : Answer} {f : Fault}

/-- An operation whose action succeeds answers with its value. -/
theorem perform_of_ok (h : op.action.runOn image = (.ok answer, after)) :
    image.perform op = (.ok answer, after) := by
  simp only [perform, h]

/-- A fault of an operation is reported by a condition of the fault's class, in the realm as the
    operation left it. -/
theorem perform_of_error (h : op.action.runOn image = (.error f, after)) :
    image.perform op =
      (.error (after.realm.report f after.heap).1,
        ⟨(after.realm.report f after.heap).2, after.realm⟩) := by
  simp only [perform, h]

/-- The report of a fault leaves the realm alone. -/
theorem realm_perform (image : Image) (op : Operation) :
    (image.perform op).2.realm = (op.action.runOn image).2.realm := by
  cases hrun : op.action.runOn image with
  | mk result after =>
    cases result with
    | ok answer => rw [perform_of_ok hrun]
    | error f => rw [perform_of_error hrun]

end Image

end LispObjects
