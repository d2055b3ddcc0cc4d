import LispObjects.Proofs.Action.Outcome

namespace LispObjects

/-!
# Actions that fail without a trace

An action that makes its last check before its first change leaves the image as it was if it fails.

* `Keeps Eq a` — the action `a` only looks at the image;
* `Total a` — `a` never fails;
* `Atomic a` — if `a` fails, the image is as it was.  Looking first keeps this
  (`Atomic.bind_of_keeps`), and so does going on without failing (`Atomic.bind_of_total`);
* `Operation.atomic` — every operation is atomic, with three exceptions.
-/

namespace Action

variable {α β : Type} {a : Action α} {f : α → Action β}

/-- The action never fails. -/
def Total (a : Action α) : Prop :=
  ∀ image, ∃ x after, a.runOn image = (.ok x, after)

/-- If the action fails, the image is as it was. -/
def Atomic (a : Action α) : Prop :=
  ∀ image e after, a.runOn image = (.error e, after) → after = image

/-- An action in two parts fails in its first part, or in the second after the first. -/
theorem runOn_bind_eq_error_iff {image after : Image} {e : Fault} :
    (a >>= f).runOn image = (.error e, after) ↔
      a.runOn image = (.error e, after) ∨
        ∃ x middle, a.runOn image = (.ok x, middle) ∧ (f x).runOn middle = (.error e, after) := by
  rw [runOn_bind]
  obtain ⟨result, middle⟩ := a.runOn image
  cases result with
  | error e' => simp
  | ok x =>
    constructor
    · intro h
      exact .inr ⟨x, middle, rfl, h⟩
    · rintro (h | ⟨x', middle', hfirst, h⟩)
      · cases h
      · cases hfirst
        exact h

/-- It succeeds in both. -/
theorem runOn_bind_eq_ok_iff {image after : Image} {y : β} :
    (a >>= f).runOn image = (.ok y, after) ↔
      ∃ x middle, a.runOn image = (.ok x, middle) ∧ (f x).runOn middle = (.ok y, after) := by
  rw [runOn_bind]
  obtain ⟨result, middle⟩ := a.runOn image
  cases result with
  | error e => simp
  | ok x =>
    constructor
    · intro h
      exact ⟨x, middle, rfl, h⟩
    · rintro ⟨x', middle', hfirst, h⟩
      cases hfirst
      exact h

/-- An action that only looks leaves the image that it looks at. -/
theorem Keeps.eq_of_runOn {image after : Image} {result : Except Fault α} (ha : Keeps Eq a)
    (h : a.runOn image = (result, after)) : after = image := by
  have hsame := ha image
  rw [h] at hsame
  exact hsame.symm

/-! ### Actions that never fail -/

namespace Total

/-- A value is given without a check. -/
@[simp] theorem pure (x : α) : Total (Pure.pure x : Action α) :=
  fun image => ⟨x, image, runOn_pure x image⟩

/-- The image can always be looked at. -/
@[simp] theorem get : Total (MonadState.get : Action Image) :=
  fun image => ⟨image, image, runOn_get image⟩

/-- A step on the heap has no way to fail. -/
@[simp] theorem onHeap (h : Heap → α × Heap) : Total (Action.onHeap h) :=
  fun image => ⟨_, _, runOn_onHeap h image⟩

/-- A change of the heap that gives no value has no way to fail either. -/
@[simp] theorem changeHeap (h : Heap → Heap) : Total (Action.changeHeap h) :=
  onHeap _

/-- The symbol table is stepped on without a failure. -/
@[simp] theorem onSymbols (t : SymbolTable → α × SymbolTable) : Total (Action.onSymbols t) :=
  fun image => ⟨_, _, runOn_onSymbols t image⟩

/-- The class graph is stepped on without a failure. -/
@[simp] theorem onClasses (g : ClassGraph → α × ClassGraph) : Total (Action.onClasses g) :=
  fun image => ⟨_, _, runOn_onClasses g image⟩

/-- Two parts that never fail make an action that never fails. -/
@[simp] theorem bind (ha : Total a) (hf : ∀ x, Total (f x)) : Total (a >>= f) := by
  intro image
  obtain ⟨x, middle, hfirst⟩ := ha image
  obtain ⟨y, after, hsecond⟩ := hf x middle
  refine ⟨y, after, ?_⟩
  rw [runOn_bind, hfirst]
  exact hsecond

/-- What is done to the value cannot fail. -/
@[simp] theorem map {g : α → β} (ha : Total a) : Total (g <$> a) := by
  rw [map_eq_pure_bind]
  exact ha.bind fun x => .pure (g x)

/-- An action that never fails has no run that ends in a fault. -/
theorem ne_error (ha : Total a) (image : Image) (e : Fault) (after : Image) :
    a.runOn image ≠ (.error e, after) := by
  obtain ⟨x, after', hok⟩ := ha image
  rw [hok]
  intro h
  cases h

end Total

/-! ### Atomic actions -/

namespace Atomic

/-- What only looks leaves no trace. -/
theorem of_keeps (ha : Keeps Eq a) : Atomic a :=
  fun _ _ _ h => ha.eq_of_runOn h

/-- What never fails leaves no trace of a failure. -/
theorem of_total (ha : Total a) : Atomic a :=
  fun image e after h => absurd h (ha.ne_error image e after)

/-- **Looking first.** The image is the same when the rest begins. -/
theorem bind_of_keeps (ha : Keeps Eq a) (hf : ∀ x, Atomic (f x)) : Atomic (a >>= f) := by
  intro image e after h
  rcases runOn_bind_eq_error_iff.mp h with hfirst | ⟨x, middle, hfirst, hrest⟩
  · exact ha.eq_of_runOn hfirst
  · rw [← ha.eq_of_runOn hfirst]
    exact hf x middle e after hrest

/-- All checks before all changes. -/
theorem check_then (ha : Keeps Eq a) (hf : ∀ x, Total (f x)) : Atomic (a >>= f) :=
  bind_of_keeps ha fun x => of_total (hf x)

/-- **Going on without failing.** Only the first part can have failed. -/
theorem bind_of_total (ha : Atomic a) (hf : ∀ x, Total (f x)) : Atomic (a >>= f) := by
  intro image e after h
  rcases runOn_bind_eq_error_iff.mp h with hfirst | ⟨x, middle, -, hrest⟩
  · exact ha image e after hfirst
  · exact absurd hrest ((hf x).ne_error middle e after)

/-- A failure does not depend on what would have been done to the value. -/
theorem map {g : α → β} (ha : Atomic a) : Atomic (g <$> a) := by
  rw [map_eq_pure_bind]
  exact ha.bind_of_total fun x => .pure (g x)

end Atomic

/-! ### Parts that never fail -/

/-- Interning has no check: a name that is there gives the symbol that it has. -/
@[simp] theorem total_internName (name : String) (space : Namespace) :
    Total (internName name space) :=
  Total.onSymbols _

/-- A symbol of any namespace has one of any other. -/
@[simp] theorem total_convert (s : Symbol) (space : Namespace) : Total (convert s space) :=
  Total.onSymbols _

/-- A list of any items can be made. -/
@[simp] theorem total_list (items : List Value) : Total (list items) :=
  Total.onHeap _

/-- The root is always there to be bound in. -/
@[simp] theorem total_bindRoot (s : Symbol) (v : Value) : Total (bindRoot s v) := by
  unfold bindRoot
  exact Total.get.bind fun _ => Total.changeHeap _

/-- A definition interns a name and binds it, and neither is checked. -/
@[simp] theorem total_define (name : String) (v : Value) : Total (define name v) := by
  unfold define
  exact (total_internName _ _).bind fun _ => total_bindRoot _ _

/-- Each symbol has a key to write under: a keyword that of the variable with its name, any other
    itself. -/
@[simp] theorem total_keyForWrite (key : Symbol) : Total (keyForWrite key) := by
  unfold keyForWrite
  split
  · exact total_convert _ _
  · exact Total.pure _

/-- An object can be made of any class and with any slots; checks are the business of the caller. -/
@[simp] theorem total_newObject (c : ClassId) (slots : List (Symbol × Value)) :
    Total (newObject c slots) :=
  Total.onHeap _

/-- An operator can be made from any name and any body. -/
@[simp] theorem total_makeBuiltIn (name : String) (body : Primitive) :
    Total (makeBuiltIn name body) := by
  unfold makeBuiltIn
  exact (total_internName _ _).bind fun _ => (Total.onHeap _).bind fun _ => Total.pure _

/-! ### Parts that only look -/

/-- A type is checked against the image as it is. -/
@[simp] theorem looks_assertType (v : Value) (spec : TypeSpec) : Keeps Eq (assertType v spec) :=
  Keeps.query _

/-- A list is read as it is, and fails with nothing changed if it does not end. -/
@[simp] theorem looks_elements (v : Value) : Keeps Eq (elements v) :=
  Keeps.query _

/-- A dynamic variable is checked and then read. -/
@[simp] theorem looks_dynamicValue (dynamic : Value) : Keeps Eq (dynamicValue dynamic) := by
  unfold dynamicValue
  exact (looks_assertType _ _).bind fun _ => Keeps.get.bind fun _ => Keeps.query _

/-- At its end a stream is left where it is. -/
@[simp] theorem looks_ended (stream : Value) (atEnd : AtEnd) : Keeps Eq (ended stream atEnd) := by
  cases atEnd
  · exact Keeps.fail _
  · exact Keeps.pure _

/-- In front of bytes that are no character a stream is left where it is. -/
@[simp] theorem looks_noCharacter (stream : Value) (atEnd : AtEnd) (s : InputStream) :
    Keeps Eq (noCharacter stream atEnd s) := by
  unfold noCharacter
  split
  · exact looks_ended _ _
  · exact Keeps.fail _

/-! ### Classes and objects -/

/-- The superclass is checked before a symbol, a representation, a record or a binding is made. -/
theorem atomic_makeClass (name : Symbol) (superclass : Value) :
    Atomic (makeClass name superclass) := by
  unfold makeClass
  refine Atomic.check_then (looks_assertType _ _) fun superclass => ?_
  exact (total_convert _ _).bind fun _ => (total_convert _ _).bind fun _ =>
    (Total.onClasses _).bind fun _ => (Total.onClasses _).bind fun _ =>
      (total_bindRoot _ _).bind fun _ => Total.pure _

/-- The owner of the slot is looked at before the slot's key is made. -/
theorem atomic_setSlotValue (object : Value) (key : Symbol) (v : Value) :
    Atomic (setSlotValue object key v) := by
  unfold setSlotValue
  refine Atomic.check_then (Keeps.of_except _) fun o => ?_
  exact (total_keyForWrite _).bind fun _ => Total.changeHeap _

/-- Both checks, that of the dynamic variable and that of the slot's owner, come before the change. -/
theorem atomic_setDynamicValue (dynamic v : Value) : Atomic (setDynamicValue dynamic v) := by
  unfold setDynamicValue
  exact Atomic.bind_of_keeps (looks_assertType _ _) fun _ =>
    Atomic.bind_of_keeps Keeps.get fun _ => atomic_setSlotValue _ _ _

/-! ### Operators -/

/-- The operator is checked before an identity is taken. -/
theorem atomic_wrap (operator : Value) : Atomic (wrap operator) := by
  unfold wrap
  refine Atomic.check_then (looks_assertType _ _) fun operator => ?_
  exact (Total.onHeap _).bind fun _ => Total.pure _

/-- An application that reaches no body does nothing but fail. -/
theorem atomic_apply {operator : Value}
    (h : ∀ identity name body, operator.innermost ≠ .builtIn identity name body) (args : Value) :
    Atomic (apply operator args) := by
  unfold apply applyWith
  split
  · next identity name body hbody => exact absurd hbody (h identity name body)
  · exact Atomic.of_keeps (Keeps.fail _)

/-! ### Streams -/

/-- A stream is moved only where there was something to read. -/
theorem atomic_readWith {stream : Value} {read : InputStream → Option (Value × InputStream)}
    {otherwise : InputStream → Action Value} (hother : ∀ s, Keeps Eq (otherwise s)) :
    Atomic (readWith stream read otherwise) := by
  unfold readWith
  refine Atomic.bind_of_keeps (Keeps.of_except _) fun r => ?_
  refine Atomic.bind_of_keeps Keeps.get fun image => ?_
  dsimp only
  split
  · exact Atomic.of_total ((Total.changeHeap _).bind fun _ => Total.pure _)
  · exact Atomic.of_keeps (hother _)

/-- The character and the stream are checked before the stream is moved, and so is what it was read
    as. -/
theorem atomic_unreadChar (stream character : Value) : Atomic (unreadChar stream character) := by
  unfold unreadChar
  refine Atomic.bind_of_keeps (Keeps.of_except _) fun c => ?_
  refine Atomic.bind_of_keeps (Keeps.of_except _) fun r => ?_
  refine Atomic.bind_of_keeps Keeps.get fun image => ?_
  split
  · exact Atomic.of_total (Total.changeHeap _)
  · exact Atomic.of_keeps (Keeps.fail _)

/-- The stream is checked before anything is written. -/
theorem atomic_writeWith (stream : Value) (write : OutputStream → OutputStream) :
    Atomic (writeWith stream write) := by
  unfold writeWith
  exact Atomic.check_then (Keeps.of_except _) fun r => Total.changeHeap _

end Action

/-! ### All operations -/

namespace Operation

/-- The operation is an application that ends in a primitive body. -/
def ReachesBody : Operation → Prop
  | apply operator _ => ∃ identity name body, operator.innermost = .builtIn identity name body
  | _ => False

open LispObjects.Action in
/-- **Failures leave no trace.** The exceptions are the making of an instance, the definition of a
    built-in operator, and an application that reaches a body. -/
theorem atomic {op : Operation} (hinstance : ∀ c initializers, op ≠ .makeInstance c initializers)
    (hdefine : ∀ name body, op ≠ .defineBuiltIn name body) (hbody : ¬ op.ReachesBody) :
    Atomic op.action := by
  cases op
  case makeInstance c initializers => exact absurd rfl (hinstance c initializers)
  case defineBuiltIn name body => exact absurd rfl (hdefine name body)
  case apply operator args =>
    have hreach : ∀ identity name body, operator.innermost ≠ .builtIn identity name body :=
      fun identity name body h => hbody ⟨identity, name, body, h⟩
    exact (atomic_apply hreach args).map
  -- the operations without a lemma of their own above are put together from those that have one
  all_goals simp [action, Action.intern, Action.reverse, Action.append, Action.lookup,
    Action.slotValue, Action.element, Action.makeDynamic, Action.makeFexpr, Action.readByte,
    Action.peekByte, Action.readChar, Action.peekChar, Action.writeByte, Action.writeChar,
    Action.writeString, Action.outputString, Atomic.of_keeps, Atomic.of_total,
    Atomic.check_then, Atomic.bind_of_keeps, Atomic.map, atomic_makeClass, atomic_setSlotValue,
    atomic_setDynamicValue, atomic_wrap, atomic_readWith, atomic_unreadChar, atomic_writeWith]

end Operation

end LispObjects
