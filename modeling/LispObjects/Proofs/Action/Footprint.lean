import LispObjects.Proofs.Action.Outcome
import LispObjects.Proofs.Heap.Growth

namespace LispObjects

/-!
# Footprints of operations

Any operation may hand out symbols, make pairs and objects, and move streams.  Class graphs, frames, and
the slots of objects and the pairs that are there are changed by a few operations only, and an operation's
footprint says by which.

* `Operation.footprint` — the parts of an image that the operation may change;
* `ImageFrame R` — the preorder `R` holds across every step that changes none of these parts, and
  `Part.Free R p` — it also holds across every change of the part `p`;
* `Operation.keeps` — `R` holds across every operation whose footprint is free in it.
-/

/-- A part of an image that only few operations change. -/
inductive Part where
  /-- The class graph of the realm. -/
  | classes
  /-- The frames of environments. -/
  | frames
  /-- The slots of objects that are there. -/
  | slots
  /-- The pairs that are there. -/
  | pairs
  deriving DecidableEq, Repr

/-- The parts of an image that the operation may change. -/
def Operation.footprint : Operation → List Part
  | makeEnvironment _ | bind .. | define .. | defineBuiltIn .. | apply .. => [.frames]
  | makeClass .. => [.classes, .frames]
  | setSlotValue .. | setSlot .. | setDynamicValue .. => [.slots]
  | setCar .. | setCdr .. => [.pairs]
  | _ => []

/-- A preorder on images that holds across every step that changes no part. -/
class ImageFrame (R : Image → Image → Prop) : Prop extends IsPreorder Image R where
  intern : ∀ (image : Image) (name : String) (space : Namespace),
    R image { image with realm.symbols := (image.realm.symbols.intern name space).2 }
  grows : ∀ (image : Image) (heap : Heap), image.heap.Grows heap → R image { image with heap }
  inputs : ∀ (image : Image) (inputs : Store .input InputStream),
    R image { image with heap.inputs := inputs }
  outputs : ∀ (image : Image) (outputs : Store .output OutputStream),
    R image { image with heap.outputs := outputs }
  nextIdentity : ∀ (image : Image) (nextIdentity : Nat),
    R image { image with heap.nextIdentity := nextIdentity }

/-- The relation also holds across every change of the part. -/
def Part.Free (R : Image → Image → Prop) : Part → Prop
  | classes => ∀ (image : Image) (graph : ClassGraph), R image { image with realm.classes := graph }
  | frames => ∀ (image : Image) (frames : Store .frame (Bindings Value)),
    R image { image with heap.frames := frames }
  | slots => ∀ (image : Image) (slots : Store .slots (Bindings Value)),
    R image { image with heap.slots := slots }
  | pairs => ∀ (image : Image) (pairs : Store .pair Pair), R image { image with heap.pairs := pairs }

variable {α : Type} {R : Image → Image → Prop}

namespace Action

/-- What a step on the heap does is all that it does. -/
theorem keeps_onHeap {f : Heap → α × Heap}
    (h : ∀ image : Image, R image { image with heap := (f image.heap).2 }) : Keeps R (onHeap f) :=
  h

/-- A change of the class graph is kept where `classes` is free. -/
theorem keeps_onClasses (hclasses : Part.classes.Free R) (f : ClassGraph → α × ClassGraph) :
    Keeps R (onClasses f) :=
  fun image => hclasses image _

/-- A binding is a change of the frames. -/
theorem keeps_bind (hframes : Part.frames.Free R) (e : Environment) (s : Symbol) (v : Value) :
    Keeps R (changeHeap (·.bind e s v)) :=
  keeps_onHeap fun image => hframes image _

/-- A new environment gets a frame of its own, so it is a change of the frames. -/
theorem keeps_newEnvironment (hframes : Part.frames.Free R) (parent? : Option Environment) :
    Keeps R (onHeap (·.newEnvironment parent?)) :=
  keeps_onHeap fun image => hframes image _

/-- Setting a slot is a change of the slots of objects that are there. -/
theorem keeps_setSlot (hslots : Part.slots.Free R) (o : StandardObject) (key : Symbol) (v : Value) :
    Keeps R (changeHeap (·.setSlot o key v)) :=
  keeps_onHeap fun image => hslots image _

/-- Setting the first half of a pair is a change of the pairs that are there. -/
theorem keeps_setCar (hpairs : Part.pairs.Free R) (r : Ref .pair) (v : Value) :
    Keeps R (changeHeap (·.setCar r v)) :=
  keeps_onHeap fun image => hpairs image _

/-- Setting the second half of a pair is a change of the pairs that are there. -/
theorem keeps_setCdr (hpairs : Part.pairs.Free R) (r : Ref .pair) (v : Value) :
    Keeps R (changeHeap (·.setCdr r v)) :=
  keeps_onHeap fun image => hpairs image _

/-- An application keeps what the primitive that it reaches keeps. -/
theorem keeps_applyWith [IsPreorder Image R] {run : Primitive → Value → Action Value}
    (hrun : ∀ body args, Keeps R (run body args)) (operator args : Value) :
    Keeps R (applyWith run operator args) := by
  unfold applyWith
  split
  · exact hrun _ _
  · exact Keeps.fail _

variable [ImageFrame R]

/-! ### The steps that change something -/

/-- A step that only adds to the heap changes no part: what is there stays as it is. -/
theorem keeps_onHeap_of_grows {f : Heap → α × Heap} (h : ∀ heap : Heap, heap.Grows (f heap).2) :
    Keeps R (onHeap f) :=
  keeps_onHeap fun image => ImageFrame.grows image _ (h image.heap)

/-- Taking an identity moves the counter of identities and nothing else. -/
@[simp] theorem keeps_freshIdentity : Keeps R (onHeap (·.freshIdentity)) :=
  keeps_onHeap fun image => ImageFrame.nextIdentity image _

/-- Streams belong to no part, so opening one to read from changes none. -/
@[simp] theorem keeps_newInput (text : String) : Keeps R (onHeap (·.newInput text)) :=
  keeps_onHeap fun image => ImageFrame.inputs image _

/-- Opening a stream to write to changes no part. -/
@[simp] theorem keeps_newOutput : Keeps R (onHeap (·.newOutput)) :=
  keeps_onHeap fun image => ImageFrame.outputs image _

/-- A new pair is added to the pairs that are there. -/
@[simp] theorem keeps_cons (car cdr : Value) : Keeps R (onHeap (·.cons car cdr)) :=
  keeps_onHeap_of_grows fun h => h.grows_cons car cdr

/-- The new pairs of a whole list are added to the pairs that are there. -/
@[simp] theorem keeps_chain (items : List Value) (tail : Value) :
    Keeps R (onHeap (·.chain items tail)) :=
  keeps_onHeap_of_grows fun h => h.grows_chain items tail

/-- Symbols belong to no part. -/
@[simp] theorem keeps_internName (name : String) (space : Namespace) :
    Keeps R (internName name space) :=
  fun image => ImageFrame.intern image name space

/-- The symbol of another namespace is interned by its name. -/
@[simp] theorem keeps_convert (s : Symbol) (space : Namespace) : Keeps R (convert s space) :=
  fun image => ImageFrame.intern image s.name space

/-! ### Steps that only look -/

/-- A list is read without a change. -/
@[simp] theorem keeps_elements (v : Value) : Keeps R (elements v) :=
  Keeps.query _

/-- An item of a list is read without a change. -/
@[simp] theorem keeps_element (v : Value) (index : Nat) : Keeps R (element v index) :=
  Keeps.query _

/-- A type is checked without a change. -/
@[simp] theorem keeps_assertType (v : Value) (spec : TypeSpec) : Keeps R (assertType v spec) :=
  Keeps.query _

/-- A slot is read without a change: a keyword that names it is looked up and not interned. -/
@[simp] theorem keeps_slotValue (object : Value) (key : Symbol) : Keeps R (slotValue object key) :=
  Keeps.query _

/-- A dynamic variable is read as a slot, after a check of its type. -/
@[simp] theorem keeps_dynamicValue (dynamic : Value) : Keeps R (dynamicValue dynamic) := by
  unfold dynamicValue
  exact Keeps.bind (keeps_assertType _ _) fun _ => Keeps.bind Keeps.get fun _ => keeps_slotValue _ _

/-! ### Lists -/

/-- A proper list is a chain that ends in `nil`. -/
@[simp] theorem keeps_list (items : List Value) : Keeps R (list items) :=
  keeps_chain items .nil

/-- The reversed list is a new one. -/
@[simp] theorem keeps_reverse (v : Value) : Keeps R (reverse v) := by
  unfold reverse
  exact Keeps.bind (keeps_elements _) fun _ => keeps_list _

/-- The front is copied, and the new pairs end in the back. -/
@[simp] theorem keeps_append (front back : Value) : Keeps R (append front back) := by
  unfold append
  exact Keeps.bind (keeps_elements _) fun _ => keeps_chain _ _

/-! ### Frames -/

/-- A binding in the root is one in a frame. -/
theorem keeps_bindRoot (hframes : Part.frames.Free R) (s : Symbol) (v : Value) :
    Keeps R (bindRoot s v) := by
  unfold bindRoot
  exact Keeps.bind Keeps.get fun _ => keeps_bind hframes _ _ _

/-- A definition interns its name and binds it in the root. -/
theorem keeps_define (hframes : Part.frames.Free R) (name : String) (v : Value) :
    Keeps R (define name v) := by
  unfold define
  exact Keeps.bind (keeps_internName _ _) fun _ => keeps_bindRoot hframes _ _

/-! ### Classes -/

/-- A new class takes both parts: a record in the graph and a binding in the root. -/
theorem keeps_makeClass (hclasses : Part.classes.Free R) (hframes : Part.frames.Free R)
    (name : Symbol) (superclass : Value) : Keeps R (makeClass name superclass) := by
  unfold makeClass
  exact Keeps.bind (keeps_assertType _ _) fun _ => Keeps.bind (keeps_convert _ _) fun _ =>
    Keeps.bind (keeps_convert _ _) fun _ => Keeps.bind (keeps_onClasses hclasses _) fun _ =>
      Keeps.bind (keeps_onClasses hclasses _) fun _ => Keeps.bind (keeps_bindRoot hframes _ _)
        fun _ => Keeps.pure _

/-! ### Objects -/

/-- The key that a slot is written under is interned, if it has to be. -/
@[simp] theorem keeps_keyForWrite (key : Symbol) : Keeps R (keyForWrite key) := by
  unfold keyForWrite
  split
  · exact keeps_convert _ _
  · exact Keeps.pure _

/-- By recursion on the initialisers, two at a time; each name may be interned as a key. -/
@[simp] theorem keeps_slotsOfInitializers (initializers : List Value) :
    Keeps R (slotsOfInitializers initializers) := by
  match initializers with
  | [] => exact Keeps.pure _
  | [name] =>
    exact Keeps.bind (Keeps.of_except _) fun s => Keeps.bind (keeps_keyForWrite s) fun _ =>
      Keeps.pure _
  | name :: v :: rest =>
    exact Keeps.bind (Keeps.of_except _) fun s => Keeps.bind (keeps_keyForWrite s) fun _ =>
      Keeps.bind (keeps_slotsOfInitializers rest) fun _ => Keeps.pure _

/-- A new object gets slots of its own, so those of the objects that are there stay. -/
@[simp] theorem keeps_newObject (c : ClassId) (slots : List (Symbol × Value)) :
    Keeps R (newObject c slots) :=
  keeps_onHeap_of_grows fun h => h.grows_withSlots c slots

/-- An instance is made by reading its initialisers and then making an object, also where a half pair is
    refused first. -/
@[simp] theorem keeps_makeInstance (c : ClassId) (initializers : List Value) :
    Keeps R (makeInstance c initializers) := by
  unfold makeInstance
  refine Keeps.bind (keeps_assertType _ _) fun _ => Keeps.bind Keeps.get fun image => ?_
  have hnew : Keeps R (slotsOfInitializers initializers >>= newObject c) :=
    Keeps.bind (keeps_slotsOfInitializers _) fun _ => keeps_newObject _ _
  split
  · exact Keeps.bind (Keeps.fail _) fun _ => hnew
  · exact hnew

/-- A dynamic variable is a new object. -/
@[simp] theorem keeps_makeDynamic (v : Value) : Keeps R (makeDynamic v) := by
  unfold makeDynamic
  exact Keeps.bind Keeps.get fun _ => keeps_newObject _ _

/-- A slot that is set is one of an object that is there. -/
theorem keeps_setSlotValue (hslots : Part.slots.Free R) (object : Value) (key : Symbol)
    (v : Value) : Keeps R (setSlotValue object key v) := by
  unfold setSlotValue
  exact Keeps.bind (Keeps.of_except _) fun _ => Keeps.bind (keeps_keyForWrite _) fun _ =>
    keeps_setSlot hslots _ _ _

/-- A dynamic variable is set as a slot, after a check of its type. -/
theorem keeps_setDynamicValue (hslots : Part.slots.Free R) (dynamic v : Value) :
    Keeps R (setDynamicValue dynamic v) := by
  unfold setDynamicValue
  exact Keeps.bind (keeps_assertType _ _) fun _ => Keeps.bind Keeps.get fun _ =>
    keeps_setSlotValue hslots _ _ _

/-! ### Operators -/

/-- A built-in operator is a new identity under an interned name. -/
@[simp] theorem keeps_makeBuiltIn (name : String) (body : Primitive) :
    Keeps R (makeBuiltIn name body) := by
  unfold makeBuiltIn
  exact Keeps.bind (keeps_internName _ _) fun _ => Keeps.bind keeps_freshIdentity fun _ =>
    Keeps.pure _

/-- An operator made from a program is a new identity. -/
@[simp] theorem keeps_makeFexpr (parameters environmentParameter body : Value) (e : Environment) :
    Keeps R (makeFexpr parameters environmentParameter body e) := by
  unfold makeFexpr
  exact Keeps.bind keeps_freshIdentity fun _ => Keeps.pure _

/-- Wrapping takes an identity, after a check of the type. -/
@[simp] theorem keeps_wrap (operator : Value) : Keeps R (wrap operator) := by
  unfold wrap
  exact Keeps.bind (keeps_assertType _ _) fun _ => Keeps.bind keeps_freshIdentity fun _ =>
    Keeps.pure _

/-- A built-in operator is defined by making it, wrapping it and binding it in the root. -/
theorem keeps_defineBuiltIn (hframes : Part.frames.Free R) (name : String) (body : Primitive) :
    Keeps R (defineBuiltIn name body) := by
  unfold defineBuiltIn
  exact Keeps.bind (keeps_makeBuiltIn _ _) fun _ => Keeps.bind (keeps_wrap _) fun _ =>
    Keeps.bind (keeps_internName _ _) fun _ => Keeps.bind (keeps_bindRoot hframes _ _) fun _ =>
      Keeps.pure _

/-- By induction on the arguments, which `call` passes on without their first. -/
theorem keeps_runOnItems (hframes : Part.frames.Free R) (items : List Value) (body : Primitive)
    (args : Value) : Keeps R (runOnItems items body args) := by
  have hdefine := keeps_define hframes
  induction items generalizing body args with
  | nil => cases body <;> simp [runOnItems, hdefine]
  | cons operator rest ih =>
    have happly := keeps_applyWith ih
    cases body <;> simp [runOnItems, hdefine, happly]

/-- The only thing that a primitive body may change is what `remember` binds in the root. -/
theorem keeps_apply (hframes : Part.frames.Free R) (operator args : Value) :
    Keeps R (apply operator args) := by
  refine keeps_applyWith (fun body args => ?_) operator args
  unfold Primitive.run
  exact Keeps.bind Keeps.get fun _ => keeps_runOnItems hframes _ _ _

/-! ### Streams -/

/-- At the end of a stream an application fails or answers, and changes nothing. -/
@[simp] theorem keeps_ended (stream : Value) (atEnd : AtEnd) : Keeps R (ended stream atEnd) := by
  cases atEnd
  · exact Keeps.fail _
  · exact Keeps.pure _

/-- Bytes that are no character are answered as the end is, or by a failure. -/
@[simp] theorem keeps_noCharacter (stream : Value) (atEnd : AtEnd) (s : InputStream) :
    Keeps R (noCharacter stream atEnd s) := by
  unfold noCharacter
  split
  · exact keeps_ended _ _
  · exact Keeps.fail _

/-- A read keeps what is done instead where there is nothing to read. -/
theorem keeps_readWith {stream : Value} {read : InputStream → Option (Value × InputStream)}
    {otherwise : InputStream → Action Value} (hother : ∀ s, Keeps R (otherwise s)) :
    Keeps R (readWith stream read otherwise) := by
  unfold readWith
  refine Keeps.bind (Keeps.of_except _) fun r => Keeps.bind Keeps.get fun image => ?_
  dsimp only
  split
  · exact Keeps.bind (keeps_onHeap fun image => ImageFrame.inputs image _) fun _ => Keeps.pure _
  · exact hother _

/-- A character that is taken back moves the stream alone. -/
@[simp] theorem keeps_unreadChar (stream character : Value) :
    Keeps R (unreadChar stream character) := by
  unfold unreadChar
  refine Keeps.bind (Keeps.of_except _) fun c => Keeps.bind (Keeps.of_except _) fun r =>
    Keeps.bind Keeps.get fun image => ?_
  split
  · exact keeps_onHeap fun image => ImageFrame.inputs image _
  · exact Keeps.fail _

/-- A write changes the stream alone. -/
@[simp] theorem keeps_writeWith (stream : Value) (write : OutputStream → OutputStream) :
    Keeps R (writeWith stream write) := by
  unfold writeWith
  exact Keeps.bind (Keeps.of_except _) fun _ => keeps_onHeap fun image => ImageFrame.outputs image _

/-! ### Data and conditions -/

/-- A specification is written as data in new pairs. -/
@[simp] theorem keeps_specData (r : Realm) (spec : TypeSpec) : Keeps R (onHeap (r.specData spec)) :=
  keeps_onHeap_of_grows fun h => h.grows_specData r spec

/-- A fault is reported by a new condition, which may have new data in it. -/
@[simp] theorem keeps_report (r : Realm) (f : Fault) : Keeps R (onHeap (r.report f)) :=
  keeps_onHeap_of_grows fun h => h.grows_report r f

/-- A condition is a new object. -/
@[simp] theorem keeps_newCondition (r : Realm) (c : ClassId) (message : String)
    (slots : List (Symbol × Value)) : Keeps R (onHeap (r.newCondition c message slots)) :=
  keeps_onHeap_of_grows fun h => h.grows_newCondition r c message slots

end Action

/-! ### All operations -/

variable {op : Operation} [ImageFrame R]

namespace Operation

open LispObjects.Action in
/-- **Footprints.** What holds across every step that changes no part, and across every change of the
    parts in the footprint, holds across the whole operation. -/
theorem keeps (h : ∀ p ∈ op.footprint, p.Free R) : Keeps R op.action := by
  cases op
  case setCar r v =>
    exact Keeps.bind (keeps_setCar (h _ (by simp [footprint])) _ _) fun _ => Keeps.pure _
  case setCdr r v =>
    exact Keeps.bind (keeps_setCdr (h _ (by simp [footprint])) _ _) fun _ => Keeps.pure _
  case makeEnvironment parent? =>
    exact Keeps.bind (keeps_newEnvironment (h _ (by simp [footprint])) _) fun _ => Keeps.pure _
  case bind e s v =>
    exact Keeps.bind (keeps_bind (h _ (by simp [footprint])) _ _ _) fun _ => Keeps.pure _
  case define name v =>
    exact Keeps.bind (keeps_define (h _ (by simp [footprint])) _ _) fun _ => Keeps.pure _
  case makeClass name v =>
    have hparts := keeps_makeClass (h .classes (by simp [footprint])) (h .frames (by simp [footprint]))
    exact Keeps.bind (hparts _ _) fun _ => Keeps.pure _
  case setSlotValue object key v =>
    exact Keeps.bind (keeps_setSlotValue (h _ (by simp [footprint])) _ _ _) fun _ => Keeps.pure _
  case setSlot o key v =>
    exact Keeps.bind (keeps_setSlot (h _ (by simp [footprint])) _ _ _) fun _ => Keeps.pure _
  case setDynamicValue dynamic v =>
    exact Keeps.bind (keeps_setDynamicValue (h _ (by simp [footprint])) _ _) fun _ => Keeps.pure _
  case defineBuiltIn name body =>
    exact Keeps.bind (keeps_defineBuiltIn (h _ (by simp [footprint])) _ _) fun _ => Keeps.pure _
  case apply operator args =>
    exact Keeps.bind (keeps_apply (h _ (by simp [footprint])) _ _) fun _ => Keeps.pure _
  -- the operations with an empty footprint are put together from the lemmas above
  all_goals simp [action, Action.intern, Action.lookup, Action.readByte, Action.peekByte,
    Action.readChar, Action.peekChar, Action.writeByte, Action.writeChar, Action.writeString,
    Action.outputString, keeps_readWith]

end Operation

/-- A fault that is reported makes the heap grow, so this holds of performing the operation as well. -/
theorem Image.perform_keeps (h : ∀ p ∈ op.footprint, p.Free R) (image : Image) :
    R image (image.perform op).2 := by
  have hkeeps := Operation.keeps h image
  cases hrun : op.action.runOn image with
  | mk result after =>
    rw [hrun] at hkeeps
    cases result with
    | ok answer => rwa [perform_of_ok hrun]
    | error f =>
      rw [perform_of_error hrun]
      exact trans_of R hkeeps (ImageFrame.grows after _ (after.heap.grows_report after.realm f))

end LispObjects
