import LispObjects.Proofs.Action.Slots
import LispObjects.Proofs.Realm.TypeTest

namespace LispObjects

/-!
# Making instances

An instance is made of alternating slot names and values.  What is asked of them is checked in order:
the class, the count, and the names one by one.

* `Action.Named`, `Action.FirstUnnamed` — all names are symbols, or there is a first that is none;
* `Action.runOn_makeInstance` — the class and the count are checked before any name, and
  `Action.slotsOfInitializers_cases` — then the names decide;
* `Action.Pairing` — names and values by their places, and `Action.pairing_slotPairs`;
* `Realm.Instantiates` — the object that is made of such pairs.
-/

variable {image after : Image} {r : Realm} {c : ClassId} {initializers rest : List Value}
  {pairs : List (Symbol × Value)} {key : Symbol} {name v : Value}

namespace Realm

/-- A class is an instance of `standard-class` if that is its metaclass. -/
theorem hasType_standardClass_iff (hb : r.classes.HasBuiltIns) (c : ClassId) :
    r.hasType (.classObject c) (.builtIn .standardClass) = true ↔
      r.metaclassOf c = BuiltinClass.standardClass := by
  rw [TypeSpec.builtIn, hasType_ofClass]
  show r.classes.isSubclass (r.record c).metaclass.asClass.id BuiltinClass.standardClass.id = true ↔
    (r.record c).metaclass.asClass.id = BuiltinClass.standardClass.id
  rw [hb.isSubclass_id, decide_eq_true_eq]
  cases (r.record c).metaclass with
  | builtIn =>
    refine iff_of_false (by decide) fun h => ?_
    cases BuiltinClass.id_injective h
  | standard => exact iff_of_true (by decide) rfl

/-- Such a class is one of the realm's own: a handle from outside stands for `object`. -/
theorem contains_of_metaclassOf (hb : r.classes.HasBuiltIns)
    (h : r.metaclassOf c = BuiltinClass.standardClass) : r.classes.contains c = true := by
  by_contra hout
  obtain ⟨record, hrecord, hrow⟩ := hb.get?_id .object
  have hget : r.classes.get? c = some record := by
    rw [ClassGraph.get?, ClassGraph.resolve_of_not_contains (by simpa using hout), ← hrecord,
      ClassGraph.get?, ClassGraph.resolve_of_contains (hb.contains_id .object)]
  rw [metaclassOf, Realm.record, hget, Option.getD_some, hrow.metaclass] at h
  cases BuiltinClass.id_injective h

end Realm

namespace Action

/-! ### Names -/

/-- At every even place there is a symbol. -/
def Named (initializers : List Value) : Prop :=
  ∀ n v, initializers[2 * n]? = some v → ∃ key, v = .symbol key

/-- The value is the first at an even place that is no symbol. -/
def FirstUnnamed (initializers : List Value) (v : Value) : Prop :=
  ∃ n, initializers[2 * n]? = some v ∧ (∀ key, v ≠ .symbol key) ∧
    ∀ m < n, ∃ key, initializers[2 * m]? = some (.symbol key)

/-- Without initialisers there is no name to be wrong. -/
theorem named_nil : Named [] := by
  intro n v h
  cases h

/-- A single name may be a half pair. -/
theorem named_singleton (key : Symbol) : Named [.symbol key] := by
  intro n v h
  cases n with
  | zero => exact ⟨key, (Option.some.inj h).symm⟩
  | succ n => cases h

/-- The names of the rest stand two places further on. -/
theorem Named.cons (h : Named rest) (key : Symbol) (v : Value) : Named (.symbol key :: v :: rest) := by
  intro n x hx
  cases n with
  | zero => exact ⟨key, (Option.some.inj hx).symm⟩
  | succ n => exact h n x hx

/-- What follows a named pair is named. -/
theorem Named.tail (h : Named (name :: v :: rest)) : Named rest :=
  fun n => h (n + 1)

/-- A first name that is no symbol is the first of them. -/
theorem firstUnnamed_head (hname : ∀ key, name ≠ .symbol key) : FirstUnnamed (name :: rest) name :=
  ⟨0, rfl, hname, fun _ hm => absurd hm (Nat.not_lt_zero _)⟩

/-- Behind a named pair the first name that is no symbol is the same. -/
theorem FirstUnnamed.cons {x : Value} (h : FirstUnnamed rest x) (key : Symbol) (v : Value) :
    FirstUnnamed (.symbol key :: v :: rest) x := by
  obtain ⟨n, hn, hx, hbefore⟩ := h
  refine ⟨n + 1, hn, hx, fun m hm => ?_⟩
  cases m with
  | zero => exact ⟨key, rfl⟩
  | succ m => exact hbefore m (by omega)

/-- Initialisers with such a name are not all named. -/
theorem FirstUnnamed.not_named (h : FirstUnnamed initializers v) : ¬ Named initializers := by
  obtain ⟨n, hn, hv, -⟩ := h
  intro hnamed
  obtain ⟨key, rfl⟩ := hnamed n v hn
  exact hv key rfl

/-- There is only one first. -/
theorem FirstUnnamed.unique {x : Value} (h : FirstUnnamed initializers v)
    (hx : FirstUnnamed initializers x) : v = x := by
  obtain ⟨n, hn, hv, hbefore⟩ := h
  obtain ⟨m, hm, hx, hbefore'⟩ := hx
  rcases Nat.lt_trichotomy n m with hlt | rfl | hlt
  · obtain ⟨key, hkey⟩ := hbefore' n hlt
    rw [hn, Option.some.injEq] at hkey
    exact absurd hkey (hv key)
  · rwa [hn, Option.some.injEq] at hm
  · obtain ⟨key, hkey⟩ := hbefore m hlt
    rw [hm, Option.some.injEq] at hkey
    exact absurd hkey (hx key)

/-- What is no symbol is blamed at once. -/
theorem runOn_slotsOfInitializers_of_ne (hname : ∀ key, name ≠ .symbol key) (rest : List Value)
    (image : Image) :
    (slotsOfInitializers (name :: rest)).runOn image = (.error (.notA .symbol name), image) := by
  have hslot : slotName name = .error (.notA .symbol name) := by
    cases name with
    | symbol key => exact absurd rfl (hname key)
    | _ => rfl
  simp only [slotsOfInitializers, hslot, runOn_bind, runOn_ofExcept]

/-- A pair is put before what becomes of the rest. -/
theorem runOn_slotsOfInitializers_pair (key : Symbol) (v : Value) (rest : List Value)
    (image : Image) :
    (slotsOfInitializers (.symbol key :: v :: rest)).runOn image =
      match (slotsOfInitializers rest).runOn (image.internKeywords [key]) with
      | (.ok slots, after) =>
        (.ok (((image.internKeywords [key]).realm.slotSymbol key, v) :: slots), after)
      | (.error e, after) => (.error e, after) := by
  simp only [slotsOfInitializers, slotName, runOn_bind, runOn_ofExcept, runOn_keyForWrite_eq,
    runOn_pure]
  obtain ⟨slots | e, after⟩ := (slotsOfInitializers rest).runOn (image.internKeywords [key]) <;> rfl

/-- **Names.** They are all turned into keys, or the first that is no symbol is blamed. -/
theorem slotsOfInitializers_cases (initializers : List Value) (image : Image) :
    (Named initializers ∧
        ∃ slots after, (slotsOfInitializers initializers).runOn image = (.ok slots, after)) ∨
      ∃ v after, FirstUnnamed initializers v ∧
        (slotsOfInitializers initializers).runOn image = (.error (.notA .symbol v), after) := by
  -- along the pairs, each with the keys interned that came before it
  match initializers with
  | [] => exact .inl ⟨named_nil, [], image, rfl⟩
  | name :: rest =>
    by_cases hname : ∃ key, name = .symbol key
    · obtain ⟨key, rfl⟩ := hname
      match rest with
      | [] =>
        refine .inl ⟨named_singleton key, ?_⟩
        simp only [slotsOfInitializers, slotName, runOn_bind, runOn_ofExcept, runOn_keyForWrite_eq,
          runOn_pure]
        exact ⟨_, _, rfl⟩
      | v :: rest =>
        have hpair := runOn_slotsOfInitializers_pair key v rest image
        rcases slotsOfInitializers_cases rest (image.internKeywords [key]) with
          ⟨hnamed, slots, after, hrest⟩ | ⟨x, after, hx, hrest⟩
        · rw [hrest] at hpair
          exact .inl ⟨hnamed.cons key v, _, _, hpair⟩
        · rw [hrest] at hpair
          exact .inr ⟨x, after, hx.cons key v, hpair⟩
    · rw [not_exists] at hname
      exact .inr ⟨name, image, firstUnnamed_head hname,
        runOn_slotsOfInitializers_of_ne hname rest image⟩

/-! ### Checks -/

/-- **What is asked of an instance**, in this order: the metaclass, and the count. -/
theorem runOn_makeInstance (hb : image.realm.classes.HasBuiltIns) (c : ClassId)
    (initializers : List Value) :
    (makeInstance c initializers).runOn image =
      if image.realm.metaclassOf c = BuiltinClass.standardClass then
        if initializers.length % 2 = 1 ∧ image.realm.config.strictInitializers = true then
          (.error .oddInitializers, image)
        else (slotsOfInitializers initializers >>= newObject c).runOn image
      else (.error (.wrongType (.classObject c) (.builtIn .standardClass)), image) := by
  have htype := Realm.hasType_standardClass_iff hb c
  rw [makeInstance, runOn_bind, assertType, runOn_query, Realm.assertType]
  -- the two checks one after the other, each of which ends the action
  by_cases hmetaclass : image.realm.metaclassOf c = BuiltinClass.standardClass
  · rw [if_pos (htype.mpr hmetaclass), if_pos hmetaclass]
    show (do let image ← get; _ : Action Value).runOn image = _
    rw [runOn_bind, runOn_get]
    by_cases hodd : initializers.length % 2 = 1 ∧ image.realm.config.strictInitializers = true
    · rw [if_pos hodd]
      simp [hodd, runOn_bind]
    · rw [if_neg hodd]
      simp [hodd]
  · rw [if_neg (mt htype.mp hmetaclass), if_neg hmetaclass]

/-! ### Pairs -/

/-- The initialisers by their places: a name at every even one, and after it the value, which is undefined
if there is none. -/
structure Pairing (initializers : List Value) (pairs : List (Symbol × Value)) : Prop where
  length_eq : pairs.length = (initializers.length + 1) / 2
  name : ∀ n p, pairs[n]? = some p → initializers[2 * n]? = some (.symbol p.1)
  value : ∀ n p, pairs[n]? = some p → p.2 = (initializers[2 * n + 1]?).getD (.host .undefined)

/-- **Pairs.** If all names are symbols the initialisers are the pairs that slots are meant for. -/
theorem pairing_slotPairs (initializers : List Value) (h : Named initializers) :
    Pairing initializers (slotPairs initializers) := by
  -- two initialisers at a time, as the pairs are read; one that is left over is paired with nothing
  match initializers with
  | [] =>
    refine ⟨rfl, ?_, ?_⟩
    · intro n p hp
      cases hp
    · intro n p hp
      cases hp
  | name :: rest =>
    obtain ⟨key, rfl⟩ := h 0 name rfl
    match rest with
    | [] =>
      refine ⟨by simp [slotPairs], fun n p hp => ?_, fun n p hp => ?_⟩
      · cases n with
        | zero =>
          cases hp
          rfl
        | succ n => cases hp
      · cases n with
        | zero =>
          cases hp
          rfl
        | succ n => cases hp
    | v :: rest =>
      have ih := pairing_slotPairs rest h.tail
      refine ⟨?_, fun n p hp => ?_, fun n p hp => ?_⟩
      · have hlength := ih.length_eq
        simp only [slotPairs, List.length_cons]
        omega
      · cases n with
        | zero =>
          cases hp
          rfl
        | succ n => exact ih.name n p hp
      · cases n with
        | zero =>
          cases hp
          rfl
        | succ n => exact ih.value n p hp

/-- Making an object ends in a new one. -/
theorem runOn_newObject (c : ClassId) (slots : List (Symbol × Value)) (image : Image) :
    ∃ o heap, (newObject c slots).runOn image = (.ok (.object o), ⟨heap, image.realm⟩) ∧
      ¬ image.heap.slots.Contains o.slots ∧ o.classId = c ∧ heap.slotsOf o = .ofPuts slots :=
  ⟨(image.heap.newObject c).1, _, rfl, image.heap.slots.not_contains_alloc .empty, rfl,
    image.heap.slotsOf_withSlots c slots⟩

end Action

/-- The object is an instance of the class whose slots are those of the pairs. -/
structure Realm.Instantiates (r : Realm) (h : Heap) (c : ClassId) (pairs : List (Symbol × Value))
    (o : StandardObject) : Prop where
  classOf : r.classOf (.object o) = c
  /-- A keyword stands for the variable symbol of its name, -/
  keyword : ∀ p ∈ pairs, p.1.isKeyword = true →
    r.symbols.find? p.1.name .vars = some (r.slotSymbol p.1)
  /-- and any other symbol for itself. -/
  symbol : ∀ p ∈ pairs, p.1.isKeyword = false → r.slotSymbol p.1 = p.1
  /-- There is one slot for every such symbol, in the order in which they first occur, -/
  keys : (h.slotsOf o).keys = (pairs.map fun p => r.slotSymbol p.1).eraseDups
  /-- with the value of the last pair of that symbol. -/
  value : ∀ key, (h.slotsOf o).get? key =
    (pairs.map fun p => (r.slotSymbol p.1, p.2)).reverse.lookup key

/-- An object that is made with the pairs is such an instance. -/
theorem Realm.instantiates_of_slotsOf {h : Heap} {o : StandardObject}
    (hclass : r.classes.contains c = true) (hc : o.classId = c)
    (hvariables : ∀ p ∈ pairs, r.HasVariable p.1)
    (hslots : h.slotsOf o = .ofPuts (pairs.map fun p => (r.slotSymbol p.1, p.2))) :
    r.Instantiates h c pairs o where
  classOf := by
    show r.classes.resolve o.classId = c
    rw [hc, ClassGraph.resolve_of_contains hclass]
  keyword p hp hkey := by
    obtain ⟨s, hs⟩ := hvariables p hp hkey
    rw [slotSymbol, if_pos hkey, SymbolTable.intern_of_find? hs, hs]
  symbol p _ hkey := slotSymbol_of_not_isKeyword (by simp [hkey]) r
  keys := by
    rw [hslots, Bindings.keys_ofPuts, List.map_map]
    rfl
  value key := by rw [hslots, Bindings.get?_ofPuts]

namespace Action

/-- **An instance** is made if the class and the count are right and all names are symbols. -/
theorem makeInstance_named (image : Image) (hb : image.realm.classes.HasBuiltIns)
    (hclass : image.realm.metaclassOf c = BuiltinClass.standardClass)
    (hcount : ¬ (initializers.length % 2 = 1 ∧ image.realm.config.strictInitializers = true))
    (hnamed : Named initializers) :
    ∃ o after, (makeInstance c initializers).runOn image = (.ok (.object o), after) ∧
      ¬ image.heap.slots.Contains o.slots ∧
      after.realm.Instantiates after.heap c (slotPairs initializers) o := by
  rw [runOn_makeInstance hb, if_pos hclass, if_neg hcount]
  obtain ⟨-, slots, middle, hslots⟩ | ⟨v, _, hunnamed, -⟩ := slotsOfInitializers_cases initializers image
  · obtain ⟨o, heap, hmake, hnew, hc, hbindings⟩ := runOn_newObject c slots middle
    obtain ⟨hheap, hvariables, hstored⟩ :=
      slotsOfInitializers_ok initializers slots image middle hslots
    have hrun : (slotsOfInitializers initializers >>= newObject c).runOn image =
        (.ok (.object o), ⟨heap, middle.realm⟩) :=
      runOn_bind_eq_ok_iff.mpr ⟨slots, middle, hslots, hmake⟩
    -- the names were interned, which leaves the class graph
    have hmiddle : middle.realm.classes = image.realm.classes := by
      have hsnd := runOn_slotsOfInitializers_snd initializers image
      rw [hslots] at hsnd
      exact congrArg (·.realm.classes) hsnd
    have hown : middle.realm.classes.contains c = true :=
      hmiddle ▸ Realm.contains_of_metaclassOf hb hclass
    exact ⟨o, ⟨heap, middle.realm⟩, hrun, hheap ▸ hnew,
      Realm.instantiates_of_slotsOf hown hc hvariables (hstored ▸ hbindings)⟩
  · exact absurd hnamed hunnamed.not_named

/-- **Refusals.** An instance is refused for its class, then for the count, then for the first name that
is no symbol. -/
theorem makeInstance_unnamed (image : Image) (hb : image.realm.classes.HasBuiltIns)
    (hclass : image.realm.metaclassOf c = BuiltinClass.standardClass)
    (hcount : ¬ (initializers.length % 2 = 1 ∧ image.realm.config.strictInitializers = true))
    (hunnamed : FirstUnnamed initializers v) :
    ∃ after, (makeInstance c initializers).runOn image = (.error (.notA .symbol v), after) := by
  rw [runOn_makeInstance hb, if_pos hclass, if_neg hcount]
  obtain ⟨hnamed, -⟩ | ⟨x, after, hx, hslots⟩ := slotsOfInitializers_cases initializers image
  · exact absurd hnamed hunnamed.not_named
  · rw [hunnamed.unique hx]
    exact ⟨after, runOn_bind_eq_error_iff.mpr (.inl hslots)⟩

end Action

end LispObjects
