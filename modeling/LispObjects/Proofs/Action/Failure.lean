import LispObjects.Proofs.Action.Atomic
import LispObjects.Proofs.Heap.Growth
import LispObjects.Proofs.Realm.TypeTest
import LispObjects.Proofs.Symbol.Interning

namespace LispObjects

/-!
# Failed operations

What an operation leaves behind if it fails, for any operation and any image.  There is one failure
with a trace: an instance that is refused because of a slot name was making the keys of the slots
before it, and keys are never taken back.

* `Action.leadingKeys`, `SymbolTable.internKeywords` — the names before the first that is no symbol,
  and what the keywords among them do to a symbol table;
* `Action.makeInstance_error` — that trace, or none;
* `Image.perform_error` — a failed operation leaves the realm as it was up to such a trace, and the
  heap with nothing but the condition added.
-/

variable {t : SymbolTable} {keys : List Symbol} {key s : Symbol} {name : String}
  {space : Namespace} {image after : Image} {c : ClassId} {initializers : List Value} {e : Fault}
  {op : Operation} {condition : Condition}

/-! ### Keywords -/

namespace SymbolTable

/-- The table after the keywords among the symbols were converted to variables, in order. -/
def internKeywords (t : SymbolTable) (keys : List Symbol) : SymbolTable :=
  (keys.filter Symbol.isKeyword).foldl (fun t key => (t.convert key .vars).2) t

@[simp] theorem internKeywords_nil (t : SymbolTable) : t.internKeywords [] = t := rfl

/-- A keyword has the variable with its name interned. -/
theorem internKeywords_cons_of_isKeyword (h : key.isKeyword = true) (t : SymbolTable)
    (keys : List Symbol) :
    t.internKeywords (key :: keys) = (t.convert key .vars).2.internKeywords keys := by
  rw [internKeywords, List.filter_cons_of_pos h]
  rfl

/-- For a key that is no keyword nothing is to be interned. -/
theorem internKeywords_cons_of_not_isKeyword (h : ¬ key.isKeyword = true) (t : SymbolTable)
    (keys : List Symbol) : t.internKeywords (key :: keys) = t.internKeywords keys := by
  rw [internKeywords, List.filter_cons_of_neg h]
  rfl

/-- What was found is found. -/
theorem find?_internKeywords_of_find? (h : t.find? name space = some s) :
    (t.internKeywords keys).find? name space = some s := by
  induction keys generalizing t with
  | nil => exact h
  | cons key keys ih =>
    by_cases hkey : key.isKeyword = true
    · rw [internKeywords_cons_of_isKeyword hkey]
      exact ih (find?_intern_of_find? h key.name .vars)
    · rw [internKeywords_cons_of_not_isKeyword hkey]
      exact ih h

/-- **The trace.** The symbols that are new are the variables named by the keywords. -/
theorem isSome_find?_internKeywords :
    ((t.internKeywords keys).find? name space).isSome ↔
      (t.find? name space).isSome ∨
        space = .vars ∧ ∃ key ∈ keys, key.isKeyword = true ∧ key.name = name := by
  induction keys generalizing t with
  | nil => simp
  | cons key keys ih =>
    simp only [List.mem_cons, exists_eq_or_imp]
    by_cases hkey : key.isKeyword = true
    · rw [internKeywords_cons_of_isKeyword hkey, ih, convert, find?_intern_eq]
      -- the first keyword's variable is the one that is looked up, or the rest decides
      by_cases hpair : name = key.name ∧ space = .vars
      · simp [hpair, hkey]
      · rw [if_neg hpair]
        have hother : ¬ (space = .vars ∧ key.name = name) := fun h => hpair ⟨h.2.symm, h.1⟩
        tauto
    · rw [internKeywords_cons_of_not_isKeyword hkey, ih]
      tauto

end SymbolTable

/-- The image after keywords were converted to variables. -/
def Image.internKeywords (image : Image) (keys : List Symbol) : Image :=
  { image with realm.symbols := image.realm.symbols.internKeywords keys }

/-- The keys are gone through one after the other. -/
theorem Image.internKeywords_cons (image : Image) (key : Symbol) (keys : List Symbol) :
    image.internKeywords (key :: keys) = (image.internKeywords [key]).internKeywords keys := by
  simp only [internKeywords]
  by_cases hkey : key.isKeyword = true
  · rw [SymbolTable.internKeywords_cons_of_isKeyword hkey,
      SymbolTable.internKeywords_cons_of_isKeyword hkey, SymbolTable.internKeywords_nil]
  · rw [SymbolTable.internKeywords_cons_of_not_isKeyword hkey,
      SymbolTable.internKeywords_cons_of_not_isKeyword hkey, SymbolTable.internKeywords_nil]

namespace Action

/-! ### Making an instance -/

/-- The slot names before the first that is no symbol. -/
def leadingKeys : List Value → List Symbol
  | .symbol key :: _ :: rest => key :: leadingKeys rest
  | [.symbol key] => [key]
  | _ => []

/-- The key of a slot is the slot's name, or the variable that the keyword names. -/
theorem runOn_keyForWrite (key : Symbol) (image : Image) :
    ∃ k, (keyForWrite key).runOn image = (.ok k, image.internKeywords [key]) := by
  unfold keyForWrite
  split
  · next h =>
    rw [Image.internKeywords, SymbolTable.internKeywords_cons_of_isKeyword h]
    exact ⟨_, rfl⟩
  · next h =>
    rw [Image.internKeywords, SymbolTable.internKeywords_cons_of_not_isKeyword h]
    exact ⟨_, rfl⟩

/-- Whether or not all slot names are symbols, the keys up to the first that is none are made. -/
theorem runOn_slotsOfInitializers_snd (initializers : List Value) (image : Image) :
    ((slotsOfInitializers initializers).runOn image).2 =
      image.internKeywords (leadingKeys initializers) := by
  match initializers with
  | [] => rfl
  | [name] =>
    cases name with
    | symbol key =>
      obtain ⟨k, hkey⟩ := runOn_keyForWrite key image
      simp only [slotsOfInitializers, slotName, leadingKeys, runOn_bind, runOn_ofExcept, hkey,
        runOn_pure]
    | _ => rfl
  | name :: v :: rest =>
    cases name with
    | symbol key =>
      obtain ⟨k, hkey⟩ := runOn_keyForWrite key image
      have ih := runOn_slotsOfInitializers_snd rest (image.internKeywords [key])
      simp only [slotsOfInitializers, slotName, leadingKeys, runOn_bind, runOn_ofExcept, hkey]
      -- the rest goes on from the keys made so far, and its outcome is the outcome of the whole
      rw [Image.internKeywords_cons image key (leadingKeys rest), ← ih]
      obtain ⟨slots | e, after⟩ := (slotsOfInitializers rest).runOn (image.internKeywords [key])
        <;> rfl
    | _ => rfl

/-- Once all keys are made nothing fails any more. -/
theorem newObject_slots_error
    (h : (slotsOfInitializers initializers >>= newObject c).runOn image = (.error e, after)) :
    after = image.internKeywords (leadingKeys initializers) := by
  rcases runOn_bind_eq_error_iff.mp h with h | ⟨slots, middle, -, h⟩
  · rw [← runOn_slotsOfInitializers_snd, h]
  · exact absurd h ((total_newObject c slots).ne_error middle e after)

/-- **A refused instance.** The class and the count of the initialisers are checked before any key is
    made, so only a slot name that is no symbol comes too late. -/
theorem makeInstance_error
    (h : (makeInstance c initializers).runOn image = (.error e, after)) :
    after = image ∨ after = image.internKeywords (leadingKeys initializers) := by
  have hlooks := looks_assertType (.classObject c) (.builtIn .standardClass)
  unfold makeInstance at h
  rcases runOn_bind_eq_error_iff.mp h with hclass | ⟨v, middle, hclass, h⟩
  · exact .inl (hlooks.eq_of_runOn hclass)
  have hmiddle : middle = image := hlooks.eq_of_runOn hclass
  rw [hmiddle, runOn_bind, runOn_get] at h
  dsimp only at h
  split at h
  · -- an odd count of initialisers is refused right here
    rcases runOn_bind_eq_error_iff.mp h with h | ⟨_, _, hodd, -⟩
    · cases h
      exact .inl rfl
    · cases hodd
  · exact .inr (newObject_slots_error h)

/-! ### Defining a built-in operator -/

/-- An operator that was just made is an instance of `operator`, so it is wrapped. -/
theorem defineBuiltIn_ne_error (hb : image.realm.classes.HasBuiltIns) (name : String)
    (body : Primitive) (e : Fault) (after : Image) :
    (defineBuiltIn name body).runOn image ≠ (.error e, after) := by
  intro h
  unfold defineBuiltIn at h
  rcases runOn_bind_eq_error_iff.mp h with h | ⟨operator, middle, hmake, h⟩
  · exact (total_makeBuiltIn name body).ne_error image e after h
  have hclasses : middle.realm.classes = image.realm.classes := by
    cases hmake
    rfl
  have hkind : operator.builtinClass? = some .builtInOperator := by
    cases hmake
    rfl
  rcases runOn_bind_eq_error_iff.mp h with h | ⟨function, middle', -, h⟩
  · -- the class of an operator is fixed, so the table of built-in classes decides
    have htype : middle.realm.hasType operator (.builtIn .operator) = true := by
      rw [Realm.hasType_builtIn_of_kind (hclasses ▸ hb) hkind]
      decide
    simp only [wrap, assertType, runOn_bind, runOn_query, Realm.assertType, htype, if_true] at h
    cases h
  · have htotal : Total (do bindRoot (← internName name .functions) function; return function) :=
      (total_internName _ _).bind fun _ => (total_bindRoot _ _).bind fun _ => Total.pure _
    exact htotal.ne_error middle' e after h

end Action

/-! ### All operations -/

/-- **Failures.** Whatever fails leaves the image as it was, but for the keys of a refused instance. -/
theorem Operation.image_of_error (hb : image.realm.classes.HasBuiltIns) (hbody : ¬ op.ReachesBody)
    (h : op.action.runOn image = (.error e, after)) :
    after = image ∨ ∃ c initializers, op = .makeInstance c initializers ∧
      after = image.internKeywords (Action.leadingKeys initializers) := by
  -- of the three exceptions one interns keys, one never fails, and one is excluded
  by_cases hinstance : ∃ c initializers, op = .makeInstance c initializers
  · obtain ⟨c, initializers, rfl⟩ := hinstance
    rcases Action.runOn_bind_eq_error_iff.mp h with h | ⟨_, _, -, h⟩
    · exact (Action.makeInstance_error h).imp_right fun hafter => ⟨c, initializers, rfl, hafter⟩
    · cases h
  by_cases hdefine : ∃ name body, op = .defineBuiltIn name body
  · obtain ⟨name, body, rfl⟩ := hdefine
    rcases Action.runOn_bind_eq_error_iff.mp h with h | ⟨_, _, -, h⟩
    · exact absurd h (Action.defineBuiltIn_ne_error hb name body e after)
    · cases h
  refine .inl (Operation.atomic ?_ ?_ hbody image e after h)
  · intro c initializers heq
    exact hinstance ⟨c, initializers, heq⟩
  · intro name body heq
    exact hdefine ⟨name, body, heq⟩

/-- **Reported failures.** The heap has the condition and its data added, and the realm is as it was
    but for the keys of a refused instance. -/
theorem Image.perform_error (hb : image.realm.classes.HasBuiltIns) (hbody : ¬ op.ReachesBody)
    (h : image.perform op = (.error condition, after)) :
    image.heap.Grows after.heap ∧
      (after.realm = image.realm ∨ ∃ c initializers, op = .makeInstance c initializers ∧
        after.realm = (image.internKeywords (Action.leadingKeys initializers)).realm) := by
  cases hrun : op.action.runOn image with
  | mk result middle =>
    cases result with
    | ok answer =>
      rw [perform_of_ok hrun] at h
      cases h
    | error e =>
      rw [perform_of_error hrun] at h
      cases h
      -- reporting the fault adds to the heap and leaves the realm
      rcases Operation.image_of_error hb hbody hrun with rfl | ⟨c, initializers, hop, rfl⟩
      · exact ⟨Heap.grows_report _ _ _, .inl rfl⟩
      · exact ⟨Heap.grows_report _ _ _, .inr ⟨c, initializers, hop, rfl⟩⟩

end LispObjects
