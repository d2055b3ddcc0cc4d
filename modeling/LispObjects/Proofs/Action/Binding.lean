import LispObjects.Proofs.Action.Footprint
import LispObjects.Proofs.Action.RealmStep
import LispObjects.Proofs.Heap.Frames

namespace LispObjects

/-!
# The puts of an operation

Beside `bind` there are four operations that put something on a frame: a definition, the registration
of a class, the definition of a built-in operator, and an application that ends in remembering its
arguments.  All of them put on the frame of the realm's root environment, under a symbol of the realm.

* `Action.remembered` — what an application remembers;
* `Operation.puts` — the puts that an operation makes, in any image;
* `Image.frames_perform` — the frames are changed by these puts and in no other way, unless a new frame
  is made.
-/

variable {image after : Image} {op : Operation} {name : String} {v : Value} {e : Environment}

/-! ### The puts -/

namespace Action

/-- What an application of the operator remembers, if `next` says it of the primitives. -/
def rememberedWith (next : Primitive → Value → Heap → Option Value) (operator args : Value)
    (h : Heap) : Option Value :=
  match operator.innermost with
  | .builtIn _ _ body => next body args h
  | _ => none

/-- What a primitive remembers on an argument list whose pairs hold `items`: `remember` the list
    itself, and `call` what applying the first argument to the rest remembers. -/
def rememberedOn : List Value → Primitive → Value → Heap → Option Value
  | _, .remember, args, _ => some args
  | operator :: rest, .call, args, h =>
    match h.elements args with
    | .ok _ => rememberedWith (rememberedOn rest) operator (h.list rest).1 (h.list rest).2
    | .error _ => none
  | _, _, _, _ => none

/-- The argument list that is remembered when an operator is applied, if any is. -/
def remembered (operator args : Value) (h : Heap) : Option Value :=
  rememberedWith (fun body args h => rememberedOn (h.spine args).1 body args h) operator args h

end Action

/-- A put on the frame of the root environment, under the realm's symbol of that name. -/
def Realm.rootPut (r : Realm) (name : String) (space : Namespace) (v : Value) : Write .frame :=
  ⟨r.root.frame, (r.symbols.intern name space).1, v⟩

/-- Registering classes in an environment that was just made is putting them on a new frame. -/
theorem Realm.frames_registered {r : Realm} {h h' : Heap} {cs : List BuiltinClass}
    (hroot : r.root = (h.newEnvironment none).1)
    (hheap : h' = (cs.map fun c =>
        ((r.symbols.intern c.name .classes).1, Value.classObject c.id)).foldl
          (fun h' b => h'.bind (h.newEnvironment none).1 b.1 b.2) (h.newEnvironment none).2) :
    h'.frames = (cs.map fun c => r.rootPut c.name .classes (.classObject c.id)).foldl Store.put
      (h.frames.alloc .empty).2 := by
  rw [hheap, Heap.frames_foldl_bind, List.map_map, ← hroot]
  rfl

/-- A new realm binds the built-in classes, one after the other, in a frame of its own. -/
theorem Realm.frames_boot (config : Config) (tableId : Nat) (h : Heap) :
    (boot config tableId h).2.frames =
      (BuiltinClass.all.map fun c =>
        (boot config tableId h).1.rootPut c.name .classes (.classObject c.id)).foldl Store.put
          (h.frames.alloc .empty).2 :=
  frames_registered (registration_boot config tableId h).1 (registration_boot config tableId h).2.1

/-- What an operation puts on the frames of environments. A class and a built-in operator are put in
    the root if they are made, and are what the operation answers. -/
def Operation.puts (image : Image) (op : Operation) : List (Write .frame) :=
  let realm := (image.perform op).2.realm
  match op, (image.perform op).1 with
  | .bind e s v, _ => [⟨e.frame, s, v⟩]
  | .define name v, _ => [realm.rootPut name .vars v]
  | .makeClass name _, .ok (.value c) => [realm.rootPut name.name .classes c]
  | .defineBuiltIn name _, .ok (.value function) => [realm.rootPut name .functions function]
  | .apply operator args, _ =>
    ((Action.remembered operator args image.heap).map (realm.rootPut "last" .vars)).toList
  | _, _ => []

/-! ### What leaves the frames alone -/

/-- The frames are the same, and so is the root environment. -/
def SameFrames (image after : Image) : Prop :=
  after.heap.frames = image.heap.frames ∧ after.realm.root = image.realm.root

instance : ImageFrame SameFrames where
  refl _ := ⟨rfl, rfl⟩
  trans _ _ _ h h' := ⟨h'.1.trans h.1, h'.2.trans h.2⟩
  intern _ _ _ := ⟨rfl, rfl⟩
  grows _ _ h := ⟨h.frames, rfl⟩
  inputs _ _ := ⟨rfl, rfl⟩
  outputs _ _ := ⟨rfl, rfl⟩
  nextIdentity _ _ := ⟨rfl, rfl⟩

/-- Changes of classes, of slots and of pairs leave them alone. -/
theorem Part.free_sameFrames {p : Part} (h : p ≠ .frames) : p.Free SameFrames := by
  cases p with
  | classes => exact fun _ _ => ⟨rfl, rfl⟩
  | frames => exact absurd rfl h
  | slots => exact fun _ _ => ⟨rfl, rfl⟩
  | pairs => exact fun _ _ => ⟨rfl, rfl⟩

/-- A report leaves them alone. -/
theorem Image.frames_perform_eq (image : Image) (op : Operation) :
    (image.perform op).2.heap.frames = (op.action.runOn image).2.heap.frames := by
  cases hrun : op.action.runOn image with
  | mk result after =>
    cases result with
    | ok answer => rw [perform_of_ok hrun]
    | error f =>
      rw [perform_of_error hrun]
      exact (Heap.grows_report _ _ _).frames

/-! ### Definitions and applications -/

/-- A realm's symbol for a name stays what it was when it was interned. -/
theorem Realm.rootPut_intern (r : Realm) (name : String) (space : Namespace) (v : Value) :
    Realm.rootPut { r with symbols := (r.symbols.intern name space).2 } name space v =
      ⟨r.root.frame, (r.symbols.intern name space).1, v⟩ := by
  rw [rootPut, (SymbolTable.Extends.refl _).intern_eq]

/-- From the image to the image after, the values were put under the name in the root and nothing else
    happened to the frames. -/
def PutInRoot (name : String) (space : Namespace) (values : Option Value) (image after : Image) :
    Prop :=
  after.heap.frames =
    (values.map (after.realm.rootPut name space)).toList.foldl Store.put image.heap.frames

/-- Where the frames are left alone, nothing was put. -/
theorem SameFrames.putInRoot_none {space : Namespace} (h : SameFrames image after) :
    PutInRoot name space none image after :=
  h.1

namespace Action

/-- What is made of a result does not touch the image. -/
theorem runOn_bind_pure_snd {α β : Type} (a : Action α) (f : α → β) (image : Image) :
    ((a >>= fun x => pure (f x)).runOn image).2 = (a.runOn image).2 := by
  rw [runOn_bind]
  cases a.runOn image with
  | mk result after => cases result <;> rfl

/-- Interning a symbol and binding it in the root is a put. -/
theorem putInRoot_internName_bindRoot (image : Image) (name : String) (space : Namespace)
    (v : Value) :
    PutInRoot name space (some v) image
      ((internName name space >>= fun s => bindRoot s v).runOn image).2 := by
  show (image.heap.bind image.realm.root (image.realm.symbols.intern name space).1 v).frames =
    image.heap.frames.put (Realm.rootPut
      { image.realm with symbols := (image.realm.symbols.intern name space).2 } name space v)
  rw [Realm.rootPut_intern, Heap.frames_bind]

/-- An application puts what the primitive that it reaches puts, and nothing if it reaches none. -/
theorem putInRoot_applyWith {run : Primitive → Value → Action Value}
    {next : Primitive → Value → Heap → Option Value}
    (hrun : ∀ body args image,
      PutInRoot "last" .vars (next body args image.heap) image ((run body args).runOn image).2)
    (operator args : Value) (image : Image) :
    PutInRoot "last" .vars (rememberedWith next operator args image.heap) image
      ((applyWith run operator args).runOn image).2 := by
  unfold applyWith rememberedWith
  cases operator.innermost with
  | builtIn identity name body => exact hrun body args image
  | _ => rfl

/-- Of the primitives that apply nothing, `remember` puts its arguments in the root, and the others
    leave the frames alone. -/
theorem putInRoot_runOnItems_of_ne_call {body : Primitive} (hcall : body ≠ .call)
    (items : List Value) (args : Value) (image : Image) :
    PutInRoot "last" .vars (rememberedOn items body args image.heap) image
      ((runOnItems items body args).runOn image).2 := by
  by_cases hremember : body = .remember
  · subst hremember
    have hdefine := putInRoot_internName_bindRoot image "last" .vars args
    cases items <;> exact hdefine
  · have hnone : rememberedOn items body args image.heap = none := by
      cases body <;> simp_all [rememberedOn]
    have hkeeps : Keeps SameFrames (runOnItems items body args) := by
      cases body <;> simp_all [runOnItems]
    rw [hnone]
    exact (hkeeps image).putInRoot_none

/-- By induction on the arguments, which `call` passes on without their first. -/
theorem putInRoot_runOnItems (items : List Value) (body : Primitive) (args : Value) (image : Image) :
    PutInRoot "last" .vars (rememberedOn items body args image.heap) image
      ((runOnItems items body args).runOn image).2 := by
  induction items generalizing body args image with
  | nil =>
    by_cases hcall : body = .call
    · subst hcall
      have hkeeps : Keeps SameFrames (element args 0) := keeps_element args 0
      exact (hkeeps image).putInRoot_none
    · exact putInRoot_runOnItems_of_ne_call hcall [] args image
  | cons operator rest ih =>
    by_cases hcall : body = .call
    · subst hcall
      simp only [runOnItems, rememberedOn, elements, runOn_bind, runOn_query]
      cases image.heap.elements args with
      | error f => rfl
      | ok items =>
        -- the new list is made of pairs, so the application begins with the same frames
        have hframes : (image.heap.list rest).2.frames = image.heap.frames :=
          (image.heap.grows_chain rest .nil).frames
        have happly := putInRoot_applyWith ih operator (image.heap.list rest).1
          { image with heap := (image.heap.list rest).2 }
        unfold PutInRoot at happly ⊢
        rw [← hframes]
        exact happly
    · exact putInRoot_runOnItems_of_ne_call hcall (operator :: rest) args image

/-- **Applications** put what is remembered. -/
theorem putInRoot_apply (operator args : Value) (image : Image) :
    PutInRoot "last" .vars (remembered operator args image.heap) image
      ((apply operator args).runOn image).2 := by
  refine putInRoot_applyWith (fun body args image => ?_) operator args image
  unfold Primitive.run
  rw [runOn_bind, runOn_get]
  exact putInRoot_runOnItems _ _ _ _

/-- A built-in operator is made first, which touches no frame, and then put in the root. -/
theorem runOn_defineBuiltIn (name : String) (body : Primitive) (image : Image) :
    (defineBuiltIn name body).runOn image =
      match (makeBuiltIn name body >>= wrap).runOn image with
      | (.ok function, middle) =>
        (.ok function,
          ((internName name .functions >>= fun s => bindRoot s function).runOn middle).2)
      | (.error f, middle) => (.error f, middle) := by
  simp only [defineBuiltIn, runOn_bind]
  cases (makeBuiltIn name body).runOn image with
  | mk result first =>
    cases result with
    | error f => rfl
    | ok operator =>
      dsimp only
      cases (wrap operator).runOn first with
      | mk result second => cases result <;> rfl

/-- Making a built-in operator and wrapping it puts nothing. -/
theorem sameFrames_makeBuiltIn_wrap (name : String) (body : Primitive) :
    Keeps SameFrames (makeBuiltIn name body >>= wrap) :=
  (keeps_makeBuiltIn name body).bind fun _ => keeps_wrap _

end Action

/-! ### All operations -/

namespace Image

/-- A new class is put in the root under its name. -/
theorem frames_addClass (image : Image) (name : Symbol) (s : ClassId) :
    (image.addClass name s).heap.frames =
      image.heap.frames.put ((image.addClass name s).realm.rootPut name.name .classes
        (.classObject image.realm.classes.next)) := by
  have hname : (image.realm.symbols.convert name .vars).1.name = name.name :=
    image.realm.symbols.name_intern name.name .vars
  have hput := Realm.rootPut_intern
    { image.realm with
      symbols := (image.realm.symbols.convert name .vars).2
      classes := image.realm.classes.addStandard (image.realm.symbols.convert name .vars).1 s }
    (image.realm.symbols.convert name .vars).1.name .classes (.classObject image.realm.classes.next)
  rw [← hname]
  exact congrArg image.heap.frames.put hput.symm

/-- **New classes** are put in the root under their names, if they are made. -/
theorem frames_makeClass (image : Image) (name : Symbol) (v : Value) :
    (image.perform (.makeClass name v)).2.heap.frames =
      (Operation.puts image (.makeClass name v)).foldl Store.put image.heap.frames := by
  cases htype : image.realm.hasType v (.builtIn .classObject) with
  | true =>
    simp only [Operation.puts, perform_makeClass_ok image name htype]
    exact frames_addClass image name v.superclassHandle
  | false =>
    have hrefused : image.RefusesClass name v := refusesClass_of_not_hasType htype
    obtain ⟨condition, after, hfail, -, -, hframes⟩ := hrefused
    simp only [Operation.puts, hfail]
    exact hframes

/-- **Built-in operators** are, as functions. -/
theorem frames_defineBuiltIn (image : Image) (name : String) (body : Primitive) :
    (image.perform (.defineBuiltIn name body)).2.heap.frames =
      (Operation.puts image (.defineBuiltIn name body)).foldl Store.put image.heap.frames := by
  have hmade := Action.sameFrames_makeBuiltIn_wrap name body image
  have hrun := Action.runOn_defineBuiltIn name body image
  -- making and wrapping leave the frames, so only the binding at the end puts something
  generalize (Action.makeBuiltIn name body >>= Action.wrap).runOn image = made at hmade hrun
  obtain ⟨result, middle⟩ := made
  cases result with
  | error f =>
    have hfail : (Operation.defineBuiltIn name body).action.runOn image = (.error f, middle) := by
      rw [Operation.action, Action.runOn_bind, hrun]
    rw [frames_perform_eq, hfail]
    simp only [Operation.puts, perform_of_error hfail]
    exact hmade.1
  | ok function =>
    have hok : (Operation.defineBuiltIn name body).action.runOn image =
        (.ok (.value function),
          ((Action.internName name .functions >>= fun s => Action.bindRoot s function).runOn
            middle).2) := by
      rw [Operation.action, Action.runOn_bind, hrun]
      rfl
    have hput := Action.putInRoot_internName_bindRoot middle name .functions function
    simp only [Operation.puts, perform_of_ok hok]
    rw [← hmade.1]
    exact hput

/-- An operation that makes no environment and has no frame in its footprint puts nothing. -/
theorem puts_eq_nil (h : Part.frames ∉ op.footprint) (image : Image) :
    op.puts image = [] := by
  cases op <;> simp_all [Operation.footprint, Operation.puts]

/-- **Puts.** All that an operation does to the frames that are there. -/
theorem frames_perform (h : ∀ parent?, op ≠ .makeEnvironment parent?) (image : Image) :
    (image.perform op).2.heap.frames =
      (op.puts image).foldl Store.put image.heap.frames := by
  by_cases hframes : Part.frames ∈ op.footprint
  -- of the operations that may change frames each has its own puts
  · cases op
    case makeEnvironment parent? => exact absurd rfl (h parent?)
    case bind e s v => rfl
    case define name v =>
      rw [frames_perform_eq]
      exact Action.putInRoot_internName_bindRoot image name .vars v
    case makeClass name v => exact frames_makeClass image name v
    case defineBuiltIn name body => exact frames_defineBuiltIn image name body
    case apply operator args =>
      have happly := Action.putInRoot_apply operator args image
      simp only [Operation.puts, realm_perform, Operation.action, Action.runOn_bind_pure_snd]
      rw [frames_perform_eq, Operation.action, Action.runOn_bind_pure_snd]
      exact happly
    all_goals simp [Operation.footprint] at hframes
  · have hfree : ∀ p ∈ op.footprint, p.Free SameFrames := fun p hp =>
      Part.free_sameFrames fun heq => hframes (heq ▸ hp)
    rw [puts_eq_nil hframes]
    exact (perform_keeps hfree image).1

end Image

/-- What an operation puts is put where it was asked to bind something, or in the root. -/
theorem Operation.cell_of_mem_puts {put : Write .frame} (h : put ∈ op.puts image) :
    (∃ e s v, op = .bind e s v ∧ put.cell = e.frame) ∨ put.cell = image.realm.root.frame := by
  -- the root environment of a realm is the same after any operation
  have hroot : ∀ name space v, ((image.perform op).2.realm.rootPut name space v).cell =
      image.realm.root.frame := fun name space v =>
    congrArg Environment.frame (image.extends_perform op).root
  unfold puts at h
  dsimp only at h
  split at h
  · next e s v =>
    rw [List.mem_singleton.mp h]
    exact .inl ⟨e, s, v, rfl, rfl⟩
  · rw [List.mem_singleton.mp h]
    exact .inr (hroot _ _ _)
  · rw [List.mem_singleton.mp h]
    exact .inr (hroot _ _ _)
  · rw [List.mem_singleton.mp h]
    exact .inr (hroot _ _ _)
  · rw [Option.mem_toList, Option.map_eq_some_iff] at h
    obtain ⟨v, -, rfl⟩ := h
    exact .inr (hroot _ _ _)
  · cases h

end LispObjects
