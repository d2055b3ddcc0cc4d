import LispObjects.Proofs.Action.Failure
import LispObjects.Proofs.Action.Raises
import LispObjects.Proofs.Heap.Finite

namespace LispObjects

/-!
# What type errors blame

An operation that ends in a type error blames a value for not being of a type.  Some operations test the
value against the class graph, others look at what kind of value it is, and a few ask for more than any
type says.  The first blame nothing that is of the type; the others do, in exactly the ways that
`Operation.RefusesFitting` lists.

* `Operation.representations` — the classes whose own kind of value an operation asks for;
* `Operation.RefusesFitting` — a value that is of the type expected of it, and is refused all the same;
* `Operation.raises_owns` — an operation that blames a value of the expected type does so in one of these
  ways.
-/

variable {α β : Type} {image after : Image} {r r' : Realm} {op : Operation} {v datum : Value}
  {expected spec : TypeSpec} {b : BuiltinClass} {e : Fault} {h : Heap}

namespace Operation

/-- What fails in the operation is a check of its own.  The others are an application, which fails as the
applied operator does, a fault in the caller's words, and the reading of type specifications. -/
def Checks : Operation → Prop
  | apply .. | signal _ | hasTypeData .. | specOfData _ => False
  | _ => True

/-- Only an application reaches a primitive body. -/
theorem not_reachesBody_of_checks (hop : op.Checks) : ¬ op.ReachesBody := by
  cases op with
  | apply operator args => exact hop.elim
  | _ => exact id

/-- The built-in classes whose own kind of value the operation asks for, whatever stands under them. -/
def representations : Operation → List BuiltinClass
  | intern .. => [.string]
  | add .. | subtract .. | multiply .. | divide .. => [.number]
  | compare .. => [.number, .string]
  | copyList _ | length _ | reverse _ | append .. => [.list]
  | element .. => [.cons]
  | makeInstance .. => [.symbol]
  | unwrap _ => [.function]
  | readByte .. | peekByte .. | readChar .. | peekChar .. => [.inputStream]
  | unreadChar .. => [.string, .inputStream]
  | writeByte .. => [.number, .outputStream]
  | writeChar .. | writeString .. => [.string, .outputStream]
  | outputString _ => [.outputStream]
  | _ => []

/-- The list that the operation walks along does not run in a circle. -/
def ChainsEnd (h : Heap) : Operation → Prop
  | copyList v | length v | reverse v | append v _ => h.ChainEnds v
  | _ => True

/-- A byte is a number whose whole part lies between 0 and 255. -/
def IsByte (d : Decimal) : Prop :=
  0 ≤ d.toInt64.toInt ∧ d.toInt64.toInt ≤ 255

/-- The operation refuses the value as not being of the type, and it is of the type. -/
inductive RefusesFitting (r : Realm) : Operation → Value → TypeSpec → Prop where
  /-- An object whose class stands under the built-in class is an instance of it, and of another kind. -/
  | object {op : Operation} {o : StandardObject} {b : BuiltinClass} (hb : b ∈ op.representations)
      (ho : r.isSubclass o.classId b = true) : RefusesFitting r op (.object o) (.builtIn b)
  /-- An object under `number` or `string` fits, and is not what anything is compared with. -/
  | comparand {o : StandardObject} {other : Value}
      (ho : r.isSubclass o.classId BuiltinClass.number = true ∨
        r.isSubclass o.classId BuiltinClass.string = true) :
      RefusesFitting r (.compare (.object o) other) (.object o)
        (.oneOf [.builtIn .number, .builtIn .string])
  /-- No type says that a text has one character. -/
  | unread {stream : Value} {s : String} (hs : s.toList.length ≠ 1) :
      RefusesFitting r (.unreadChar stream (.string s)) (.string s) (.builtIn .string)
  | write {stream : Value} {s : String} (hs : s.toList.length ≠ 1) :
      RefusesFitting r (.writeChar stream (.string s)) (.string s) (.builtIn .string)
  /-- No type says that a number is a byte. -/
  | byte {stream : Value} {d : Decimal} (hd : ¬ IsByte d) :
      RefusesFitting r (.writeByte stream (.number d)) (.number d) (.builtIn .number)

/-- What is refused in these ways is of the type. -/
theorem RefusesFitting.hasType (hb : r.classes.HasBuiltIns) (h : RefusesFitting r op v spec) :
    r.hasType v spec = true := by
  cases h with
  | object _ ho => rw [TypeSpec.builtIn, Realm.hasType_object, ho]
  | comparand ho =>
    rw [Realm.hasType_oneOf_pair, TypeSpec.builtIn, TypeSpec.builtIn, Realm.hasType_object,
      Realm.hasType_object, Bool.or_eq_true]
    exact ho
  | unread => exact (Realm.hasType_builtIn_of_kind hb rfl .string).trans (by decide)
  | write => exact (Realm.hasType_builtIn_of_kind hb rfl .string).trans (by decide)
  | byte => exact (Realm.hasType_builtIn_of_kind hb rfl .number).trans (by decide)

/-- What is refused in these ways depends on the realm through its class graph alone. -/
theorem RefusesFitting.congr (hclasses : r'.classes = r.classes) (h : RefusesFitting r op v spec) :
    RefusesFitting r' op v spec := by
  have hsub : ∀ c d, r'.isSubclass c d = r.isSubclass c d := by
    intro c d
    rw [Realm.isSubclass, Realm.isSubclass, hclasses]
  cases h with
  | object hb ho => exact .object hb ((hsub _ _).trans ho)
  | comparand ho => exact .comparand (by rwa [hsub, hsub])
  | unread hs => exact .unread hs
  | write hs => exact .write hs
  | byte hd => exact .byte hd

/-- The fault is no type error, or blames a value that is not of the type, or one in the listed ways. -/
def Owns (op : Operation) (image : Image) (e : Fault) : Prop :=
  image.realm.classes.HasBuiltIns → op.ChainsEnd image.heap → ∀ datum expected,
    e = .wrongType datum expected → image.realm.hasType datum expected = true →
      op.RefusesFitting image.realm datum expected

end Operation

/-! ### Kinds of values -/

/-- The value is blamed for not being of the kind, and is not. -/
def LacksAndBlamed (b : BuiltinClass) (v : Value) (e : Fault) : Prop :=
  e = .notA b v ∧ Realm.LacksKind b v

/-- A value that is blamed for not being a number is of another kind. -/
theorem fails_asNumber (v : Value) : Fails (LacksAndBlamed .number v) v.asNumber := by
  intro e he
  cases v <;> cases he <;> refine ⟨rfl, ?_⟩ <;> rintro k ⟨⟩ <;> decide

/-- A value that is blamed for not being a string is of another kind. -/
theorem fails_asString (v : Value) : Fails (LacksAndBlamed .string v) v.asString := by
  intro e he
  cases v <;> cases he <;> refine ⟨rfl, ?_⟩ <;> rintro k ⟨⟩ <;> decide

/-- What is blamed for not being a symbol, where a slot is named, is of another kind. -/
theorem fails_slotName (v : Value) : Fails (LacksAndBlamed .symbol v) (Action.slotName v) := by
  intro e he
  cases v <;> cases he <;> refine ⟨rfl, ?_⟩ <;> rintro k ⟨⟩ <;> decide

/-- What is blamed for not being a function, where it is unwrapped, is of another kind. -/
theorem fails_unwrap (v : Value) : Fails (LacksAndBlamed .function v) (Action.unwrap v) := by
  intro e he
  cases v <;> cases he <;> refine ⟨rfl, ?_⟩ <;> rintro k ⟨⟩ <;> decide

/-- What is blamed for not being a stream to read from is of another kind. -/
theorem fails_inputOf (v : Value) : Fails (LacksAndBlamed .inputStream v) (Action.inputOf v) := by
  intro e he
  cases v <;> cases he <;> refine ⟨rfl, ?_⟩ <;> rintro k ⟨⟩ <;> decide

/-- What is blamed for not being a stream to write to is of another kind. -/
theorem fails_outputOf (v : Value) : Fails (LacksAndBlamed .outputStream v) (Action.outputOf v) := by
  intro e he
  cases v <;> cases he <;> refine ⟨rfl, ?_⟩ <;> rintro k ⟨⟩ <;> decide

/-- The end of a list that is not proper is no list, unless the chain is cut off at a pair. -/
theorem fails_elements (hends : h.ChainEnds v) :
    Fails (LacksAndBlamed .list (h.spine v).2) (h.elements v) := by
  intro e he
  have hpair := Heap.spine_snd_ne_pair hends
  rw [Heap.elements] at he
  generalize h.spine v = spine at he hpair ⊢
  obtain ⟨items, tail⟩ := spine
  cases tail with
  | nil => cases he
  | pair s => exact absurd rfl (hpair s)
  | _ => cases he; refine ⟨rfl, ?_⟩; rintro k ⟨⟩ <;> decide

/-- An index leads to a value that is not a pair. -/
theorem fails_element (h : Heap) (v : Value) (index : Nat) :
    Fails (fun e => ∃ w, LacksAndBlamed .cons w e) (h.element v index) := by
  induction index generalizing v with
  | zero =>
    intro e he
    cases v <;> cases he <;> refine ⟨_, rfl, ?_⟩ <;> rintro k ⟨⟩ <;> decide
  | succ index ih =>
    intro e he
    cases v with
    | pair r => exact ih (h.cdr r) e he
    | _ => cases he; refine ⟨_, rfl, ?_⟩; rintro k ⟨⟩ <;> decide

/-- A value that is no text of one character is no text, or a text of another length. -/
theorem fails_asCharacter (v : Value) :
    Fails (fun e => LacksAndBlamed .string v e ∨
      e = .notA .string v ∧ ∃ s, v = .string s ∧ s.toList.length ≠ 1) v.asCharacter := by
  intro e he
  cases hs : v.asString with
  | error e' =>
    rw [Value.asCharacter, hs] at he
    cases he
    exact .inl (fails_asString v e hs)
  | ok s =>
    -- a text is blamed for its length and not for its kind
    have hv : v = .string s := by cases v <;> cases hs; rfl
    rw [Value.asCharacter, hs] at he
    refine .inr ⟨?_, s, hv, fun hlength => ?_⟩
    · dsimp only [bind, Except.bind] at he
      split at he
      · cases he
      · cases he; rfl
    · obtain ⟨c, hc⟩ := List.length_eq_one_iff.mp hlength
      simp [hc, bind, Except.bind, pure, Except.pure] at he

/-- A value that is no byte is no number, or a number outside the range. -/
theorem fails_byteOf (v : Value) :
    Fails (fun e => LacksAndBlamed .number v e ∨
      e = .notA .number v ∧ ∃ d, v = .number d ∧ ¬ Operation.IsByte d) (Action.byteOf v) := by
  intro e he
  cases hd : v.asNumber with
  | error e' =>
    rw [Action.byteOf, hd] at he
    cases he
    exact .inl (fails_asNumber v e hd)
  | ok d =>
    -- a number is blamed for its range and not for its kind
    have hv : v = .number d := by cases v <;> cases hd; rfl
    rw [Action.byteOf, hd] at he
    dsimp only [bind, Except.bind] at he
    split at he
    · cases he
    · next hbyte =>
      cases he
      exact .inr ⟨rfl, d, hv, hbyte⟩

/-! ### Faults that an operation owns -/

namespace Operation

/-- No class of classes stands under a class whose own kind of value is asked for. -/
theorem not_mem_lineage_of_mem_representations (hb : b ∈ op.representations) (m : Metaclass) :
    b ∉ m.asClass.lineage := by
  have hnone : ∀ b ∈ [BuiltinClass.number, .string, .symbol, .list, .cons, .function, .inputStream,
      .outputStream], b ∉ m.asClass.lineage := by
    cases m <;> decide
  apply hnone
  cases op <;> simp [representations] at hb ⊢ <;> tauto

/-- Blaming a value of another kind is right unless it is an object of a class below. -/
theorem owns_of_lacks (hb : b ∈ op.representations) (he : LacksAndBlamed b v e) :
    op.Owns image e := by
  obtain ⟨rfl, hkind⟩ := he
  rintro hbuilt - _ _ ⟨⟩ htype
  -- a value of another kind can still be an object below the class
  have hmeta := not_mem_lineage_of_mem_representations hb
  obtain ⟨o, rfl, ho⟩ := (Realm.hasType_builtIn_iff_of_lacksKind hbuilt hkind hmeta).mp htype
  exact .object hb ho

/-- What is not of the type is blamed with good reason. -/
theorem owns_of_not_hasType
    (h : image.realm.classes.HasBuiltIns → image.realm.hasType v spec = false) :
    op.Owns image (.wrongType v spec) := by
  rintro hbuilt - _ _ ⟨⟩ htype
  rw [h hbuilt] at htype
  cases htype

/-- A fault that is no type error blames nothing. -/
theorem owns_of_ne (h : ∀ datum expected, e ≠ .wrongType datum expected) : op.Owns image e :=
  fun _ _ datum expected he => absurd he (h datum expected)

end Operation

namespace Action

open Operation

/-- Slots are asked of a value that is no object, and then it is an instance of no class below
    `standard-object`. -/
theorem fails_owns_slotOwner (v : Value) : Fails (op.Owns image) (slotOwner v) := by
  intro e he
  have hobject : ∀ o, v ≠ .object o := by
    rintro o rfl
    cases he
  have hnotA : e = .wrongType v (.builtIn .standardObject) := by
    cases v <;> cases he <;> rfl
  rw [hnotA]
  refine owns_of_not_hasType fun hbuilt => ?_
  -- a value that is no object is of a kind of its own, and none of these is an instance
  have hkind : Realm.LacksKind .standardObject v := by
    cases v <;> rintro k ⟨⟩ <;> decide
  rw [Bool.eq_false_iff, ne_eq,
    Realm.hasType_builtIn_iff_of_lacksKind hbuilt hkind (by intro m; cases m <;> decide)]
  exact fun ⟨o, ho, _⟩ => hobject o ho

/-- A check of a type blames exactly what fails the test, with the same specification. -/
theorem raises_assertType (v : Value) (spec : TypeSpec) : Raises op.Owns (assertType v spec) := by
  refine Raises.query fun image e he => ?_
  rw [Realm.assertType] at he
  split at he
  · cases he
  · next htype =>
    cases he
    exact owns_of_not_hasType fun _ => Bool.eq_false_iff.mpr htype

/-- A slot without a value is not the fault of the object's type. -/
theorem raises_slotValue (object : Value) (key : Symbol) :
    Raises op.Owns (slotValue object key) := by
  refine Raises.query fun image => (fails_owns_slotOwner object).bind fun o => ?_
  split
  · exact Fails.pure _
  · exact Fails.throw (owns_of_ne fun _ _ h => nomatch h)

/-- After the owner of the slot is found nothing fails any more. -/
theorem raises_setSlotValue (object : Value) (key : Symbol) (v : Value) :
    Raises op.Owns (setSlotValue object key v) := by
  unfold setSlotValue
  refine Raises.bind_of_total (Raises.of_except fun image => fails_owns_slotOwner object) fun o => ?_
  exact (total_keyForWrite _).bind fun _ => Total.changeHeap _

/-- A dynamic variable that passes its check is an object, so it is blamed by neither step. -/
theorem raises_dynamicValue (dynamic : Value) : Raises op.Owns (dynamicValue dynamic) := by
  unfold dynamicValue
  exact (raises_assertType _ _).bind_of_keeps (looks_assertType _ _) fun _ =>
    (Raises.of_total .get).bind_of_keeps Keeps.get fun _ => raises_slotValue _ _

/-- A dynamic variable that passes its check is blamed by neither step where it is set. -/
theorem raises_setDynamicValue (dynamic v : Value) :
    Raises op.Owns (setDynamicValue dynamic v) := by
  unfold setDynamicValue
  exact (raises_assertType _ _).bind_of_keeps (looks_assertType _ _) fun _ =>
    (Raises.of_total .get).bind_of_keeps Keeps.get fun _ => raises_setSlotValue _ _ _

/-- Only the check of the superclass can fail. -/
theorem raises_makeClass (name : Symbol) (superclass : Value) :
    Raises op.Owns (makeClass name superclass) := by
  unfold makeClass
  refine (raises_assertType _ _).bind_of_total fun _ => ?_
  exact (total_convert _ _).bind fun _ => (total_convert _ _).bind fun _ =>
    (Total.onClasses _).bind fun _ => (Total.onClasses _).bind fun _ =>
      (total_bindRoot _ _).bind fun _ => Total.pure _

/-- Only the check of the operator can fail. -/
theorem raises_wrap (operator : Value) : Raises op.Owns (wrap operator) := by
  unfold wrap
  exact (raises_assertType _ _).bind_of_total fun _ => (Total.onHeap _).bind fun _ => Total.pure _

/-- Whatever keys were made before, a slot name is blamed that is no symbol. -/
theorem raises_slotsOfInitializers (initializers : List Value) :
    Raises (fun _ e => ∃ v, LacksAndBlamed .symbol v e) (slotsOfInitializers initializers) := by
  have hname : ∀ v, Raises (fun _ e => ∃ v, LacksAndBlamed .symbol v e)
      (ofExcept (slotName v) : Action Symbol) :=
    fun v => Raises.of_except fun _ => (fails_slotName v).mono fun e he => ⟨v, he⟩
  match initializers with
  | [] =>
    rw [slotsOfInitializers]
    exact Raises.of_total (Total.pure _)
  | [name] =>
    rw [slotsOfInitializers]
    exact (hname name).bind_of_total fun _ => (total_keyForWrite _).bind fun _ => Total.pure _
  | name :: v :: rest =>
    rw [slotsOfInitializers]
    refine (hname name).bind fun _ => (Raises.of_total (total_keyForWrite _)).bind fun _ => ?_
    exact (raises_slotsOfInitializers rest).bind_of_total fun _ => Total.pure _

/-- The class is checked, and then the names of the slots are asked to be symbols. -/
theorem raises_makeInstance (hop : .symbol ∈ op.representations) (c : ClassId)
    (initializers : List Value) : Raises op.Owns (makeInstance c initializers) := by
  -- the slot names are keyed as they come, so the image changes between one blame and the next
  have hslots : Raises op.Owns (slotsOfInitializers initializers) :=
    (raises_slotsOfInitializers initializers).mono fun _ _ ⟨_, he⟩ => owns_of_lacks hop he
  -- an odd count of initialisers is no matter of types
  have hodd : ∀ image, op.Owns image .oddInitializers :=
    fun _ => owns_of_ne fun _ _ h => nomatch h
  have hrest : Raises op.Owns (slotsOfInitializers initializers >>= newObject c) :=
    hslots.bind_of_total fun _ => total_newObject _ _
  unfold makeInstance
  refine (raises_assertType _ _).bind_of_keeps (looks_assertType _ _) fun _ => ?_
  refine (Raises.of_total .get).bind_of_keeps Keeps.get fun image => ?_
  split
  · exact (Raises.fail hodd).bind_of_keeps (Keeps.fail _) fun _ => hrest
  · exact hrest

/-- The end of a stream is a fault of its own and not one of types. -/
theorem raises_ended (stream : Value) (atEnd : AtEnd) : Raises op.Owns (ended stream atEnd) := by
  cases atEnd with
  | fault => exact Raises.fail fun _ => owns_of_ne fun _ _ h => nomatch h
  | value v => exact Raises.of_total (Total.pure _)

/-- Bytes that are no character are a fault of their own too. -/
theorem raises_noCharacter (stream : Value) (atEnd : AtEnd) (s : InputStream) :
    Raises op.Owns (noCharacter stream atEnd s) := by
  unfold noCharacter
  split
  · exact raises_ended stream atEnd
  · exact Raises.fail fun _ => owns_of_ne fun _ _ h => nomatch h

/-- A stream to read from is asked for by its kind. -/
theorem raises_inputOf (hop : .inputStream ∈ op.representations) (stream : Value) :
    Raises op.Owns (ofExcept (inputOf stream) : Action _) :=
  Raises.of_except fun _ => (fails_inputOf stream).mono fun _ => owns_of_lacks hop

/-- A read blames its stream, or fails as what is done where there is nothing to read. -/
theorem raises_readWith (hop : .inputStream ∈ op.representations) {stream : Value}
    {read : InputStream → Option (Value × InputStream)} {otherwise : InputStream → Action Value}
    (hother : ∀ s, Raises op.Owns (otherwise s)) :
    Raises op.Owns (readWith stream read otherwise) := by
  unfold readWith
  refine (raises_inputOf hop stream).bind_of_keeps (Keeps.of_except _) fun r => ?_
  refine (Raises.of_total .get).bind_of_keeps Keeps.get fun image => ?_
  dsimp only
  split
  · exact Raises.of_total ((Total.changeHeap _).bind fun _ => Total.pure _)
  · exact hother _

/-- A stream to write to is asked for by its kind, and nothing else of a write fails. -/
theorem raises_writeWith (hop : .outputStream ∈ op.representations) (stream : Value)
    (write : OutputStream → OutputStream) : Raises op.Owns (writeWith stream write) := by
  unfold writeWith
  refine Raises.bind_of_total (Raises.of_except fun _ => ?_) fun r => Total.changeHeap _
  exact (fails_outputOf stream).mono fun _ => owns_of_lacks hop

/-- A text is asked for by its kind. -/
theorem raises_asString (hop : .string ∈ op.representations) (v : Value) :
    Raises op.Owns (ofExcept v.asString : Action _) :=
  Raises.of_except fun _ => (fails_asString v).mono fun _ => owns_of_lacks hop

/-- What is blamed for not being a list is the end of the chain, and never a pair if the chain ends. -/
theorem raises_elements (hop : .list ∈ op.representations) {v : Value}
    (hends : ∀ h : Heap, op.ChainsEnd h → h.ChainEnds v) : Raises op.Owns (elements v) := by
  refine Raises.query fun image e he hbuilt hchain => ?_
  exact owns_of_lacks hop (fails_elements (hends _ hchain) e he) hbuilt hchain

/-! ### Numbers, texts and bytes -/

/-- A number is asked for by its kind. -/
theorem fails_owns_asNumber (hop : .number ∈ op.representations) (v : Value) :
    Fails (op.Owns image) v.asNumber :=
  (fails_asNumber v).mono fun _ => owns_of_lacks hop

/-- Numbers are asked for by their kind of both operands, the first one first. -/
theorem fails_owns_arithmetic (hop : .number ∈ op.representations)
    (f : Decimal → Decimal → Decimal) (a b : Value) : Fails (op.Owns image) (a.arithmetic f b) :=
  (fails_owns_asNumber hop a).bind fun _ => (fails_owns_asNumber hop b).bind fun _ => Fails.pure _

/-- Division by zero is a fault of its own. -/
theorem fails_owns_divide (hop : .number ∈ op.representations) (places : Nat) (a b : Value) :
    Fails (op.Owns image) (a.divide places b) := by
  refine (fails_owns_asNumber hop a).bind fun x => (fails_owns_asNumber hop b).bind fun y => ?_
  split
  · exact Fails.pure _
  · exact Fails.throw (owns_of_ne fun _ _ h => nomatch h)

/-- What can be compared with nothing is of neither kind. -/
theorem owns_comparand {a b : Value} (hnumber : Realm.LacksKind .number a)
    (hstring : Realm.LacksKind .string a) :
    (Operation.compare a b).Owns image (.wrongType a (.oneOf [.builtIn .number, .builtIn .string])) := by
  rintro hbuilt - _ _ ⟨⟩ htype
  rw [Realm.hasType_oneOf_pair, Bool.or_eq_true,
    Realm.hasType_builtIn_iff_of_lacksKind hbuilt hnumber (by intro m; cases m <;> decide),
    Realm.hasType_builtIn_iff_of_lacksKind hbuilt hstring (by intro m; cases m <;> decide)] at htype
  obtain ⟨o, rfl, ho⟩ | ⟨o, rfl, ho⟩ := htype
  · exact .comparand (.inl ho)
  · exact .comparand (.inr ho)

/-- A comparand is blamed for being neither a number nor a string, and the other one for not being what
    the first is. -/
theorem fails_owns_compare (a b : Value) :
    Fails ((Operation.compare a b).Owns image) (a.compare b) := by
  cases a with
  | number x =>
    exact (fails_owns_asNumber (by simp [representations]) b).bind fun _ => Fails.pure _
  | string s =>
    refine Fails.bind ((fails_asString b).mono fun _ => ?_) fun _ => Fails.pure _
    exact owns_of_lacks (by simp [representations])
  | _ => exact Fails.throw (owns_comparand (by rintro k ⟨⟩ <;> decide) (by rintro k ⟨⟩ <;> decide))

/-- A host number without a decimal is blamed for not being a number, and is of the host's own kind. -/
theorem fails_owns_ofBinary64 (x : Binary64) : Fails (op.Owns image) (Value.ofBinary64 x) := by
  unfold Value.ofBinary64
  split
  · exact Fails.pure _
  · refine Fails.throw (owns_of_not_hasType fun hbuilt => ?_)
    exact (Realm.hasType_builtIn_of_kind hbuilt rfl .number).trans (by decide)

/-- A text that is no literal is a fault of the literal and not of a type. -/
theorem fails_owns_ofLiteral (text : String) : Fails (op.Owns image) (Value.ofLiteral text) := by
  unfold Value.ofLiteral
  split
  · exact Fails.pure _
  · exact Fails.throw (owns_of_ne fun _ _ h => nomatch h)

/-- A text taken back that has not one character is one of the listed ways. -/
theorem fails_owns_unread (stream v : Value) :
    Fails ((Operation.unreadChar stream v).Owns image) v.asCharacter := by
  refine (fails_asCharacter v).mono ?_
  rintro e (he | ⟨rfl, s, rfl, hs⟩)
  · exact owns_of_lacks (by simp [representations]) he
  · rintro - - _ _ ⟨⟩ -
    exact .unread hs

/-- A text written as a character that has not one character is one of the listed ways. -/
theorem fails_owns_write (stream v : Value) :
    Fails ((Operation.writeChar stream v).Owns image) v.asCharacter := by
  refine (fails_asCharacter v).mono ?_
  rintro e (he | ⟨rfl, s, rfl, hs⟩)
  · exact owns_of_lacks (by simp [representations]) he
  · rintro - - _ _ ⟨⟩ -
    exact .write hs

/-- A number that is no byte is one of them too. -/
theorem fails_owns_byte (stream v : Value) :
    Fails ((Operation.writeByte stream v).Owns image) (byteOf v) := by
  refine (fails_byteOf v).mono ?_
  rintro e (he | ⟨rfl, d, rfl, hd⟩)
  · exact owns_of_lacks (by simp [representations]) he
  · rintro - - _ _ ⟨⟩ -
    exact .byte hd

end Action

/-! ### All operations -/

namespace Operation

open LispObjects.Action

/-- **Type errors.** A value of the expected type is refused in the listed ways only. -/
theorem raises_owns (hop : op.Checks) : Raises op.Owns op.action := by
  cases op with
  | apply operator args => exact hop.elim
  | signal f => exact hop.elim
  | hasTypeData v spec => exact hop.elim
  | specOfData v => exact hop.elim
  | intern name space =>
    exact ((raises_asString (by simp [representations]) name).bind_of_total fun _ =>
      total_internName _ _).answer _
  | literal text => exact (Raises.of_except fun _ => fails_owns_ofLiteral text).answer _
  | ofBinary64 x => exact (Raises.of_except fun _ => fails_owns_ofBinary64 x).answer _
  | add a b =>
    exact (Raises.of_except fun _ =>
      fails_owns_arithmetic (by simp [representations]) Decimal.add a b).answer _
  | subtract a b =>
    exact (Raises.of_except fun _ =>
      fails_owns_arithmetic (by simp [representations]) Decimal.sub a b).answer _
  | multiply a b =>
    exact (Raises.of_except fun _ =>
      fails_owns_arithmetic (by simp [representations]) Decimal.mul a b).answer _
  | divide a b =>
    exact (Raises.query fun _ => fails_owns_divide (by simp [representations]) _ a b).answer _
  | compare a b => exact (Raises.of_except fun _ => fails_owns_compare a b).answer _
  | copyList v =>
    have hlist : Raises (copyList v).Owns (elements v) :=
      raises_elements (by simp [representations]) fun _ hends => hends
    exact hlist.bind_of_total fun _ => (total_list _).bind fun _ => Total.pure _
  | length v =>
    have hlist : Raises (length v).Owns (elements v) :=
      raises_elements (by simp [representations]) fun _ hends => hends
    exact hlist.answer _
  | element v index =>
    refine Raises.answer (Raises.query fun image => ?_) _
    exact (fails_element image.heap v index).mono fun e ⟨w, he⟩ =>
      owns_of_lacks (by simp [representations]) he
  | reverse v =>
    have hlist : Raises (reverse v).Owns (elements v) :=
      raises_elements (by simp [representations]) fun _ hends => hends
    exact (hlist.bind_of_total fun _ => total_list _).answer _
  | append front back =>
    have hlist : Raises (append front back).Owns (elements front) :=
      raises_elements (by simp [representations]) fun _ hends => hends
    exact (hlist.bind_of_total fun _ => Total.onHeap _).answer _
  | lookup e s =>
    refine Raises.answer (Raises.query fun image => ?_) _
    split
    · exact Fails.pure _
    · exact Fails.throw (owns_of_ne fun _ _ h => nomatch h)
  | makeClass name superclass => exact (raises_makeClass _ _).answer _
  | makeInstance c initializers =>
    exact (raises_makeInstance (by simp [representations]) _ _).answer _
  | slotValue object key => exact (raises_slotValue _ _).answer _
  | setSlotValue object key v => exact (raises_setSlotValue _ _ _).answer _
  | dynamicValue dynamic => exact (raises_dynamicValue _).answer _
  | setDynamicValue dynamic v => exact (raises_setDynamicValue _ _).answer _
  | assertType v spec => exact (raises_assertType _ _).answer _
  | defineBuiltIn name body =>
    have hdefine : Raises (defineBuiltIn name body).Owns (Action.defineBuiltIn name body) :=
      fun image e after h hbuilt => absurd h (defineBuiltIn_ne_error hbuilt name body e after)
    exact hdefine.answer _
  | wrap operator => exact (raises_wrap _).answer _
  | unwrap function =>
    refine Raises.answer (Raises.of_except fun _ => ?_) _
    exact (fails_unwrap function).mono fun _ => owns_of_lacks (by simp [representations])
  | readByte stream atEnd =>
    exact (raises_readWith (by simp [representations]) fun _ => raises_ended _ _).answer _
  | peekByte stream atEnd =>
    exact (raises_readWith (by simp [representations]) fun _ => raises_ended _ _).answer _
  | readChar stream atEnd =>
    exact (raises_readWith (by simp [representations]) fun _ => raises_noCharacter _ _ _).answer _
  | peekChar stream atEnd =>
    exact (raises_readWith (by simp [representations]) fun _ => raises_noCharacter _ _ _).answer _
  | unreadChar stream character =>
    refine Raises.answer ?_ _
    unfold Action.unreadChar
    refine (Raises.of_except fun _ => fails_owns_unread stream character).bind_of_keeps
      (Keeps.of_except _) fun c => ?_
    refine (raises_inputOf (by simp [representations]) stream).bind_of_keeps (Keeps.of_except _)
      fun r => (Raises.of_total .get).bind_of_keeps Keeps.get fun image => ?_
    split
    · exact Raises.of_total (Total.changeHeap _)
    · exact Raises.fail fun _ => owns_of_ne fun _ _ h => nomatch h
  | writeByte stream byte =>
    exact ((Raises.of_except fun _ => fails_owns_byte stream byte).bind_of_keeps (Keeps.of_except _)
      fun _ => raises_writeWith (by simp [representations]) _ _).answer _
  | writeChar stream character =>
    exact ((Raises.of_except fun _ => fails_owns_write stream character).bind_of_keeps
      (Keeps.of_except _) fun _ => raises_writeWith (by simp [representations]) _ _).answer _
  | writeString stream text =>
    exact ((raises_asString (by simp [representations]) text).bind_of_keeps (Keeps.of_except _)
      fun _ => raises_writeWith (by simp [representations]) _ _).answer _
  | outputString stream =>
    refine Raises.answer (Raises.query fun image e he => ?_) _
    refine owns_of_lacks (by simp [representations]) (fails_outputOf stream e ?_)
    cases hout : outputOf stream with
    | ok out => rw [hout] at he; cases he
    | error e' => rw [hout] at he; cases he; rfl
  -- the others never fail
  | _ => exact Raises.of_total (by simp [action, Action.makeDynamic, Action.makeFexpr])

end Operation

end LispObjects
