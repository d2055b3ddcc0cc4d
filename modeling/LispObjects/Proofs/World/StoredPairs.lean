import LispObjects.Proofs.Action.Conditions
import LispObjects.Proofs.World.Slots

namespace LispObjects

/-!
# Stored pairs along a run

What is stored in an object of any kind, conditions included, is there to be read until the same slot
is written again, unless it was stored in a condition under a keyword.

* `World.OwnPairs` — realms store pairs under symbols of their own;
* `World.keptLog`, `World.lostLog` — the pairs stored in a run, and those of them that are lost;
* `World.PairStep`, `World.exists_pairStep` — all that an event does to slots;
* `World.recordsPairs_run` — the objects hold the pairs that were stored in them, the kept ones under
  the symbols that are read and the lost ones under the keywords;
* `World.storedPairLaws_run` — what follows for reading slots, and for asking whether there are any.
-/

variable {r : Realm} {k s : Symbol} {v : Value} {o : StandardObject} {c : Condition}
  {pairs : List (Symbol × Value)}

/-! ### Keys -/

/-- No keyword is what a symbol names as a slot. -/
theorem Symbol.space_slotKey_ne (key : Symbol) : key.slotKey.space ≠ .keywords := by
  cases hspace : key.space <;> simp [Symbol.slotKey, Symbol.isKeyword, hspace]

/-- What is not a keyword names the slot of its own. -/
theorem Symbol.slotKey_of_not_isKeyword (h : ¬ k.isKeyword = true) :
    k.slotKey = ⟨k.table, k.name, k.space⟩ := by
  rw [Symbol.slotKey, if_neg h]

/-- The operation stores under symbols of the realm, into objects that are there, and not past the
    realm. -/
structure Operation.OwnPairs (image : Image) (op : Operation) : Prop extends op.OwnSlots image where
  pairs : ∀ classId message slots, op = .makeCondition classId message slots →
    ∀ p ∈ slots, p.1 ∈ image.realm.symbols.symbols

namespace World

variable {w : World} {events : List Event} {event : Event} {i : Nat} {op : Operation}
  {base : Store .slots (Bindings Value)} {stored : Write .slots → Write .slots}

/-! ### What a run stores -/

/-- Every operation of the run stores under symbols of its realm, and not past it. -/
def OwnPairs (events : List Event) : Prop :=
  ∀ past event, past ++ [event] <+: events → ∀ i op image, event = .perform i op →
    (run past).image? i = some image → op.OwnPairs image

/-- What an event stores in slots, under the keys as they are given. -/
def storedPairs (w : World) : Event → List (Write .slots)
  | .newRealm _ => []
  | .perform i op => (w.image? i).elim [] fun image => op.storedPairs image

/-- Whether what the event stores under the key is lost. -/
def loses (w : World) : Event → Symbol → Bool
  | .newRealm _, _ => false
  | .perform i op, key => (w.image? i).elim false fun image => op.loses image key

/-- The pairs of the event that are there to be read afterwards. -/
def keptPairs (w : World) (event : Event) : List (Write .slots) :=
  (w.storedPairs event).filter fun u => !w.loses event u.key

/-- The pairs of the event that are not. -/
def lostPairs (w : World) (event : Event) : List (Write .slots) :=
  (w.storedPairs event).filter fun u => w.loses event u.key

/-- All kept pairs of a run, from the oldest to the newest. -/
def keptLog (events : List Event) : List (Write .slots) :=
  log keptPairs events

/-- All lost ones. -/
def lostLog (events : List Event) : List (Write .slots) :=
  log lostPairs events

/-- The event makes the object. -/
def MakesNew (w : World) (event : Event) (o : StandardObject) : Prop :=
  ∃ i op image, event = .perform i op ∧ w.image? i = some image ∧ op.newObject? image = some o

/-- The object was made in the run: an instance, a dynamic variable, a bare object or a condition. -/
def Made (events : List Event) (o : StandardObject) : Prop :=
  MadeIn MakesNew events o

/-- The last event has to keep to the condition, and those before it have to. -/
theorem ownPairs_concat :
    OwnPairs (events ++ [event]) ↔ OwnPairs events ∧ ∀ i op image, event = .perform i op →
      (run events).image? i = some image → op.OwnPairs image :=
  forall_past_concat

/-- A new realm stores nothing. -/
theorem ownPairs_newRealm (config : Config) : OwnPairs [.newRealm config] :=
  forall_past_singleton.mpr (by rintro i op image ⟨⟩)

/-- A run may intern names. -/
theorem OwnPairs.internName (h : OwnPairs events) (i : Nat) (name : String) (space : Namespace) :
    OwnPairs (events ++ [.perform i (.internName name space)]) := by
  refine ownPairs_concat.mpr ⟨h, ?_⟩
  rintro _ _ image ⟨⟩ -
  exact ⟨Operation.ownSlots_internName name space, by rintro _ _ _ ⟨⟩⟩

/-- A run may make conditions with pairs under symbols of the realm. -/
theorem OwnPairs.makeCondition (h : OwnPairs events) (hr : (run events).realms[i]? = some r)
    (classId : ClassId) (message : String) (hpairs : ∀ p ∈ pairs, p.1 ∈ r.symbols.symbols) :
    OwnPairs (events ++ [.perform i (.makeCondition classId message pairs)]) := by
  refine ownPairs_concat.mpr ⟨h, ?_⟩
  rintro _ _ image ⟨⟩ himage
  rw [image?_of_realm hr, Option.some.injEq] at himage
  rw [← himage]
  refine ⟨⟨nofun, nofun, nofun⟩, ?_⟩
  rintro _ _ _ ⟨⟩
  exact hpairs

/-- The pairs of an operation are those in the image of its realm. -/
theorem storedPairs_perform (hr : w.realms[i]? = some r) (op : Operation) :
    w.storedPairs (.perform i op) = op.storedPairs ⟨w.heap, r⟩ := by
  rw [storedPairs, image?_of_realm hr]
  rfl

/-- The keys under which an operation loses pairs are those in the image of its realm. -/
theorem loses_perform (hr : w.realms[i]? = some r) (op : Operation) (key : Symbol) :
    w.loses (.perform i op) key = op.loses ⟨w.heap, r⟩ key := by
  rw [loses, image?_of_realm hr]
  rfl

/-- Where there is no realm nothing is stored. -/
theorem storedPairs_of_none (hr : w.realms[i]? = none) (op : Operation) :
    w.storedPairs (.perform i op) = [] := by
  rw [storedPairs, image?, hr]
  rfl

/-- Where a pair is lost its key is a keyword. -/
theorem isKeyword_of_loses (h : w.loses event k = true) : k.isKeyword = true := by
  cases event with
  | newRealm config => cases h
  | perform i op =>
    cases himage : w.image? i with
    | none => simp [loses, himage] at h
    | some image =>
      rw [loses, himage] at h
      exact (Bool.and_eq_true_iff.mp h).2

/-! ### One event -/

/-- What an event does to the slots, in terms of a store with the objects that it makes, and of the
    symbols under which its pairs are stored. -/
structure PairStep (w : World) (event : Event) (base : Store .slots (Bindings Value))
    (stored : Write .slots → Write .slots) : Prop where
  extends_base : w.heap.slots.Extends base
  slots_eq : (w.after event).heap.slots = ((w.storedPairs event).map stored).foldl Store.put base
  contains : ∀ u ∈ w.storedPairs event, base.Contains u.cell
  stored_eq : ∀ u, (stored u).cell = u.cell ∧ (stored u).value = u.value
  /-- A kept pair is stored under the symbol that is read. -/
  kept : ∀ u ∈ w.storedPairs event, w.loses event u.key = false →
    (w.after event).symbol? u.key.slotKey = some (stored u).key
  /-- A lost pair is stored under the keyword. -/
  lost : ∀ u ∈ w.storedPairs event, w.loses event u.key = true → (stored u).key = u.key
  made : ∀ o, w.MakesNew event o →
    ¬ w.heap.slots.Contains o.slots ∧ base.Contains o.slots ∧ base.read o.slots = .empty

/-- Writes through realms are kept. -/
theorem SlotStep.pairStep (h : w.SlotStep event base stored)
    (hpairs : w.storedPairs event = w.slotWrites event)
    (hkept : ∀ u ∈ w.storedPairs event, w.loses event u.key = false)
    (hmade : ∀ o, w.MakesNew event o →
      ¬ w.heap.slots.Contains o.slots ∧ base.Contains o.slots ∧ base.read o.slots = .empty) :
    w.PairStep event base stored where
  extends_base := h.extends_base
  slots_eq := by
    rw [hpairs]
    exact h.slots_eq
  contains := by
    rw [hpairs]
    exact h.contains
  stored_eq := h.stored_eq
  kept u hu _ := h.symbol? u (hpairs ▸ hu)
  lost u hu hlost := by
    rw [hkept u hu] at hlost
    cases hlost
  made := hmade

/-- The object that an operation of a realm makes. -/
theorem makesNew_perform_iff (hr : w.realms[i]? = some r) :
    w.MakesNew (.perform i op) o ↔ op.newObject? ⟨w.heap, r⟩ = some o := by
  constructor
  · rintro ⟨_, _, image, hevent, himage, ho⟩
    cases hevent
    rw [image?_of_realm hr, Option.some.injEq] at himage
    rw [himage]
    exact ho
  · intro ho
    exact ⟨i, op, _, rfl, image?_of_realm hr, ho⟩

/-- What is not a keyword is stored under itself. -/
theorem symbol?_slotKey_self (hr : (run events).realms[i]? = some r) (hk : k ∈ r.symbols.symbols)
    (hplain : ¬ k.isKeyword = true) : (run events).symbol? k.slotKey = some k := by
  have hwell := (wellFormed_run hr).symbols
  have htable : k.table = i := (hwell.table_eq hk).trans (tableId_run hr)
  rw [Symbol.slotKey_of_not_isKeyword hplain, symbol?_of_realm hr htable]
  exact hwell.found k hk

/-- Every key of a condition is a symbol of the realm in the end, a name of its own or one that was
    given. -/
theorem mem_symbols_of_newCondition? (hr : (run events).realms[i]? = some r)
    (hop : op.OwnPairs ⟨(run events).heap, r⟩)
    (hc : op.newCondition? ⟨(run events).heap, r⟩ = some (c, pairs)) :
    ∀ p ∈ pairs, p.1 ∈ (Image.perform ⟨(run events).heap, r⟩ op).2.realm.symbols.symbols := by
  intro p hp
  rcases Operation.key_of_newCondition? (wellFormed_run hr) hc p hp with
    ⟨name, hname⟩ | ⟨classId, message, slots, hmake, hgiven⟩
  · exact SymbolTable.mem_of_find? hname
  · have hfound := (wellFormed_run hr).symbols.found _
      (hop.pairs classId message slots hmake p hgiven)
    exact SymbolTable.mem_of_find? ((Image.extends_perform _ op).symbols _ _ _ hfound)

/-- **Conditions** hold their pairs under the keys that were given. -/
theorem exists_pairStep_of_condition (hr : (run events).realms[i]? = some r)
    (hop : op.OwnPairs ⟨(run events).heap, r⟩)
    (hc : op.newCondition? ⟨(run events).heap, r⟩ = some (c, pairs)) :
    ∃ base, (run events).PairStep (.perform i op) base id := by
  obtain ⟨base, hext, hslots, hnew, hcontains, hempty⟩ := Operation.exists_base_of_newCondition? hc
  have hpairs : (run events).storedPairs (.perform i op) =
      pairs.map fun p => ⟨c.object.slots, p.1, p.2⟩ := by
    rw [storedPairs_perform hr, Operation.storedPairs, hc]
  refine ⟨base, hext, ?_, ?_, fun u => ⟨rfl, rfl⟩, ?_, fun u _ _ => rfl, ?_⟩
  · rw [List.map_id, storedPairs_perform hr, heap_perform hr]
    exact hslots
  · intro u hu
    rw [hpairs] at hu
    obtain ⟨p, -, rfl⟩ := List.mem_map.mp hu
    exact hcontains
  · intro u hu hkept
    rw [hpairs] at hu
    obtain ⟨p, hp, rfl⟩ := List.mem_map.mp hu
    rw [loses_perform hr, Operation.loses, hc] at hkept
    -- a pair is kept if its key is no keyword, and then its symbol is there to be read by
    have hplain : ¬ p.1.isKeyword = true := by simpa using hkept
    have hafter := realm_perform_self hr op
    rw [← run_concat] at hafter ⊢
    exact symbol?_slotKey_self hafter (mem_symbols_of_newCondition? hr hop hc p hp) hplain
  · intro o ho
    rw [makesNew_perform_iff hr, Operation.newObject?_of_newCondition? hc, Option.some.injEq] at ho
    rw [← ho]
    exact ⟨hnew, hcontains, hempty⟩

/-- An operation that makes no condition writes through its realm. -/
theorem exists_pairStep_of_none (hr : (run events).realms[i]? = some r)
    (hop : op.OwnPairs ⟨(run events).heap, r⟩)
    (hc : op.newCondition? ⟨(run events).heap, r⟩ = none) :
    ∃ base stored, (run events).PairStep (.perform i op) base stored := by
  obtain ⟨base, stored, hstep⟩ := exists_slotStep_perform hr hop.toOwnSlots
  refine ⟨base, stored, hstep.pairStep ?_ ?_ ?_⟩
  · rw [storedPairs_perform hr, slotWrites_perform hr, Operation.storedPairs, hc]
  · intro u _
    rw [loses_perform hr, Operation.loses, hc]
    rfl
  · intro o ho
    rw [makesNew_perform_iff hr] at ho
    rcases Operation.newObject?_cases ho with ⟨c, pairs, hcondition, -⟩ | hmade | ⟨classId, rfl, rfl⟩
    · rw [hc] at hcondition
      cases hcondition
    · exact hstep.made o ⟨i, op, _, rfl, image?_of_realm hr, hmade⟩
    · -- a bare object writes nothing, so the store with it is the one afterwards
      have hbase : base = ((run events).heap.slots.alloc .empty).2 := by
        have hslots := hstep.slots_eq
        rw [slotWrites_perform hr, heap_perform hr] at hslots
        exact hslots.symm
      rw [hbase]
      exact ⟨Store.not_contains_alloc _ .empty, Store.contains_alloc_self _ _,
        Store.read_alloc_self _ _⟩

/-- Every event that stores through realms, under symbols of theirs, is a step. -/
theorem exists_pairStep (hown : ∀ i op image, event = .perform i op →
      (run events).image? i = some image → op.OwnPairs image) :
    ∃ base stored, (run events).PairStep event base stored := by
  by_cases hperform : ∃ i op r, event = .perform i op ∧ (run events).realms[i]? = some r
  · obtain ⟨i, op, r, rfl, hr⟩ := hperform
    have hop := hown i op _ rfl (image?_of_realm hr)
    cases hc : op.newCondition? ⟨(run events).heap, r⟩ with
    | none => exact exists_pairStep_of_none hr hop hc
    | some made =>
      obtain ⟨base, hstep⟩ := exists_pairStep_of_condition hr hop hc
      exact ⟨base, id, hstep⟩
  · -- where no realm performs anything nothing is stored, and nothing made
    have himage : ∀ i op, event = .perform i op → (run events).image? i = none := by
      rintro i op rfl
      cases hr : (run events).realms[i]? with
      | none => rw [image?, hr]; rfl
      | some r => exact absurd ⟨i, op, r, rfl, hr⟩ hperform
    obtain ⟨base, stored, hstep⟩ := exists_slotStep fun i op image hevent hi =>
      (hown i op image hevent hi).toOwnSlots
    refine ⟨base, stored, hstep.pairStep ?_ ?_ ?_⟩
    · cases event with
      | newRealm config => rfl
      | perform i op => simp only [storedPairs, slotWrites, himage i op rfl, Option.elim_none]
    · intro u _
      cases event with
      | newRealm config => rfl
      | perform i op => simp only [loses, himage i op rfl, Option.elim_none]
    · rintro o ⟨i, op, image, hevent, hi, -⟩
      rw [himage i op hevent] at hi
      cases hi

/-! ### Runs -/

/-- The objects of a run hold what was stored in them. -/
structure RecordsPairs (events : List Event) : Prop where
  keptCells : ∀ u ∈ keptLog events, (run events).heap.slots.Contains u.cell
  lostCells : ∀ u ∈ lostLog events, (run events).heap.slots.Contains u.cell
  objects : ∀ o, Made events o → (run events).heap.slots.Contains o.slots
  keys : ∀ u ∈ keptLog events, ∃ s, (run events).symbol? u.key.slotKey = some s
  /-- Under the symbols that are read there are the kept pairs, -/
  get?_iff : ∀ o s v, Made events o → ¬ s.isKeyword = true →
    (((run events).heap.slotsOf o).get? s = some v ↔
      LastWrite (fun u => u.cell = o.slots ∧ (run events).symbol? u.key.slotKey = some s)
        (keptLog events) v)
  /-- and under keywords the lost ones. -/
  get?_keyword_iff : ∀ o s v, Made events o → s.isKeyword = true →
    (((run events).heap.slotsOf o).get? s = some v ↔
      LastWrite (fun u => u.cell = o.slots ∧ u.key = s) (lostLog events) v)

/-- The last event of a run adds what it keeps at the end. -/
theorem keptLog_concat (events : List Event) (event : Event) :
    keptLog (events ++ [event]) = keptLog events ++ (run events).keptPairs event :=
  log_concat keptPairs events event

/-- The last event of a run adds what it loses at the end of the other log. -/
theorem lostLog_concat (events : List Event) (event : Event) :
    lostLog (events ++ [event]) = lostLog events ++ (run events).lostPairs event :=
  log_concat lostPairs events event

/-- Before the first event there are no objects. -/
theorem recordsPairs_nil : RecordsPairs [] := by
  have hkept : keptLog [] = [] := rfl
  have hlost : lostLog [] = [] := rfl
  have hnone : ∀ o, ¬ Made [] o := fun _ => not_madeIn_nil
  refine ⟨?_, ?_, fun o ho => absurd ho (hnone o), ?_, fun o _ _ ho => absurd ho (hnone o),
    fun o _ _ ho => absurd ho (hnone o)⟩
  · simp [hkept]
  · simp [hlost]
  · simp [hkept]

/-- The symbol that a world has for what a key names as a slot is no keyword. -/
theorem not_isKeyword_of_symbol?_slotKey (h : w.symbol? k.slotKey = some s) :
    ¬ s.isKeyword = true := by
  obtain ⟨r, -, hs⟩ := Option.bind_eq_some_iff.mp h
  have hspace := (SymbolTable.eq_of_find? hs).1
  have hne := k.space_slotKey_ne
  rw [← hspace] at hne
  simpa [Symbol.isKeyword] using hne

namespace PairStep

/-- What an object held before the pairs of the event is what a log says, if it says so of the objects
    that were there and is silent on others. -/
theorem get?_base_iff (hstep : (run events).PairStep event base stored)
    (ho : Made (events ++ [event]) o) (hobjects : Made events o → (run events).heap.slots.Contains o.slots)
    {P : Write .slots → Prop} {log : List (Write .slots)}
    (hcells : ∀ u ∈ log, (run events).heap.slots.Contains u.cell) (hP : ∀ u, P u → u.cell = o.slots)
    (hold : Made events o → ∀ v, ((run events).heap.slotsOf o).get? s = some v ↔ LastWrite P log v)
    (v : Value) : (base.read o.slots).get? s = some v ↔ LastWrite P log v := by
  rcases madeIn_concat.mp ho with hmade | hmakes
  · rw [hstep.extends_base.read_eq _ (hobjects hmade)]
    exact hold hmade v
  · obtain ⟨hnew, -, hempty⟩ := hstep.made o hmakes
    rw [hempty, Bindings.get?_empty]
    refine iff_of_false nofun fun hlast => ?_
    obtain ⟨u, hu, hu'⟩ := exists_lastWrite_iff.mp ⟨v, hlast⟩
    exact hnew (hP u hu' ▸ hcells u hu)

/-- The kept pairs of a step are those that are read under symbols that are no keywords. -/
theorem kept_iff (hstep : w.PairStep event base stored) (hs : ¬ s.isKeyword = true)
    {u : Write .slots} (hu : u ∈ w.storedPairs event) :
    (!w.loses event u.key) = true ∧
        (u.cell = o.slots ∧ (w.after event).symbol? u.key.slotKey = some s) ↔
      u.cell = o.slots ∧ (stored u).key = s := by
  cases hlost : w.loses event u.key with
  | false => rw [hstep.kept u hu hlost, Option.some.injEq]; simp
  | true =>
    -- a lost pair is under a keyword, which `s` is not
    have hne : (stored u).key ≠ s := by
      rintro rfl
      rw [hstep.lost u hu hlost] at hs
      exact hs (isKeyword_of_loses hlost)
    simp [hne]

/-- The lost ones are those under keywords. -/
theorem lost_iff (hstep : w.PairStep event base stored) (hs : s.isKeyword = true)
    {u : Write .slots} (hu : u ∈ w.storedPairs event) :
    w.loses event u.key = true ∧ (u.cell = o.slots ∧ u.key = s) ↔
      u.cell = o.slots ∧ (stored u).key = s := by
  cases hlost : w.loses event u.key with
  | true => rw [hstep.lost u hu hlost]; simp
  | false =>
    have hne : (stored u).key ≠ s := by
      rintro rfl
      exact not_isKeyword_of_symbol?_slotKey (hstep.kept u hu hlost) hs
    simp [hne]

end PairStep

/-- **A step** is recorded. -/
theorem RecordsPairs.concat (h : RecordsPairs events)
    (hstep : (run events).PairStep event base stored) : RecordsPairs (events ++ [event]) := by
  have hcontains : ∀ r, (run (events ++ [event])).heap.slots.Contains r ↔ base.Contains r := by
    intro r
    rw [run_concat, hstep.slots_eq, Store.contains_foldl_put]
  have hcells : ∀ u, (run events).heap.slots.Contains u.cell ∨ u ∈ (run events).storedPairs event →
      (run (events ++ [event])).heap.slots.Contains u.cell := by
    intro u hu
    rw [hcontains]
    exact hu.elim hstep.extends_base.contains (hstep.contains u)
  refine ⟨?_, ?_, ?_, ?_, ?_, ?_⟩
  · -- cells: none is taken away, and the event stores into those of the base store
    intro u hu
    rw [keptLog_concat, List.mem_append] at hu
    exact hcells u (hu.imp (h.keptCells u) List.mem_of_mem_filter)
  · intro u hu
    rw [lostLog_concat, List.mem_append] at hu
    exact hcells u (hu.imp (h.lostCells u) List.mem_of_mem_filter)
  · -- objects: a new one is in the base store
    intro o ho
    rw [hcontains]
    rcases madeIn_concat.mp ho with hold | hmakes
    · exact hstep.extends_base.contains (h.objects o hold)
    · exact (hstep.made o hmakes).2.1
  · -- keys: what is kept is under the symbol that is found
    intro u hu
    rw [keptLog_concat, List.mem_append] at hu
    rw [run_concat]
    rcases hu with hu | hu
    · obtain ⟨s, hs⟩ := h.keys u hu
      exact ⟨s, symbol?_after hs event⟩
    · obtain ⟨hu, hkept⟩ := List.mem_filter.mp hu
      exact ⟨_, hstep.kept u hu (by simpa using hkept)⟩
  · -- reads: what the base store gives, and then the kept pairs of the event
    intro o s v ho hs
    rw [keptLog_concat, run_concat, Heap.slotsOf, hstep.slots_eq]
    refine Store.get?_read_foldl_put_filter_iff hstep.contains hstep.stored_eq
      (fun u hu => hstep.kept_iff hs hu) (hstep.get?_base_iff ho (h.objects o) h.keptCells
        (fun u hu => hu.1) fun hold v => ?_) v
    refine (h.get?_iff o s v hold hs).trans (lastWrite_congr fun u hu => ?_)
    -- the keys of the log have their symbols already
    obtain ⟨t, ht⟩ := h.keys u hu
    rw [ht, symbol?_after ht]
  · intro o s v ho hs
    rw [lostLog_concat, run_concat, Heap.slotsOf, hstep.slots_eq]
    exact Store.get?_read_foldl_put_filter_iff hstep.contains hstep.stored_eq
      (fun u hu => hstep.lost_iff hs hu) (hstep.get?_base_iff ho (h.objects o) h.lostCells
        (fun u hu => hu.1) fun hold v => h.get?_keyword_iff o s v hold hs) v

/-- **Stored pairs.** After every run the objects that were made hold what was stored in them. -/
theorem recordsPairs_run (hown : OwnPairs events) : RecordsPairs events := by
  induction events using List.reverseRecOn with
  | nil => exact recordsPairs_nil
  | append_singleton events event ih =>
    obtain ⟨hbefore, hlast⟩ := ownPairs_concat.mp hown
    obtain ⟨base, stored, hstep⟩ := exists_pairStep hlast
    exact (ih hbefore).concat hstep

/-- What the making of a condition leaves behind. -/
theorem exists_of_makeCondition (hr : (run events).realms[i]? = some r) (classId : ClassId)
    (message : String) (slots : List (Symbol × Value)) :
    let made := events ++ [.perform i (.makeCondition classId message slots)]
    ∃ c : Condition, Made made c.object ∧ (run made).realms[i]? = some r ∧
      (run events).storedPairs (.perform i (.makeCondition classId message slots)) =
        ((r.names.message, .string message) :: slots).map (fun p => ⟨c.object.slots, p.1, p.2⟩) ∧
      (run made).heap.slotsOf c.object = .ofPuts ((r.names.message, .string message) :: slots) := by
  intro made
  have hc := Operation.newCondition?_makeCondition ⟨(run events).heap, r⟩ classId message slots
  refine ⟨(r.newCondition classId message slots (run events).heap).1, ?_, ?_, ?_, ?_⟩
  · exact madeIn_concat.mpr (.inr ((makesNew_perform_iff hr).mpr
      (Operation.newObject?_of_newCondition? hc)))
  · rw [run_concat, realm_perform_self hr]
    rfl
  · rw [storedPairs_perform hr, Operation.storedPairs, hc]
  · rw [run_concat, heap_perform hr]
    exact Heap.slotsOf_withSlots _ classId _

/-! ### What holds of stored pairs -/

/-- What is read is what was last kept under a key that names the same slot. -/
theorem RecordsPairs.get?_keyForRead?_iff (h : RecordsPairs events)
    (hr : (run events).realms[i]? = some r) (ho : Made events o) (hk : k ∈ r.symbols.symbols) :
    (Action.keyForRead? r k).bind ((run events).heap.slotsOf o).get? = some v ↔
      LastWrite (fun u => u.cell = o.slots ∧ u.key.slotKey = k.slotKey) (keptLog events) v :=
  get?_keyForRead?_iff_of_log hr hk h.keys fun s hs =>
    h.get?_iff o s v ho (not_isKeyword_of_symbol?_slotKey hs)

/-- The value of a slot after a run that stores pairs through realms only. -/
theorem answer_slotValue_iff_keptLog (hown : OwnPairs events)
    (hr : (run events).realms[i]? = some r) (ho : Made events o) (hk : k ∈ r.symbols.symbols) :
    ((run events).perform i (.slotValue (.object o) k)).1 = some (.ok (.value v)) ↔
      LastWrite (fun u => u.cell = o.slots ∧ u.key.slotKey = k.slotKey) (keptLog events) v :=
  (answer_slotValue_iff_read hr (wellFormed_run hr).names).trans
    ((recordsPairs_run hown).get?_keyForRead?_iff hr ho hk)

/-- A slot is bound if something was kept under a key that names it. -/
theorem isSlotBound_iff_keptLog (hown : OwnPairs events)
    (hr : (run events).realms[i]? = some r) (ho : Made events o) (hk : k ∈ r.symbols.symbols) :
    Action.isSlotBound r (run events).heap (.object o) k = true ↔
      ∃ u ∈ keptLog events, u.cell = o.slots ∧ u.key.slotKey = k.slotKey := by
  rw [Action.isSlotBound_object, Option.isSome_iff_exists, ← exists_lastWrite_iff]
  exact exists_congr fun v => (recordsPairs_run hown).get?_keyForRead?_iff hr ho hk

/-- Under a keyword there is something if something was lost under it. -/
theorem get?_keyword_iff_lostLog (hown : OwnPairs events) (ho : Made events o)
    (hs : s.isKeyword = true) :
    (∃ v, ((run events).heap.slotsOf o).get? s = some v) ↔
      ∃ u ∈ lostLog events, u.cell = o.slots ∧ u.key = s := by
  rw [← exists_lastWrite_iff]
  exact exists_congr fun v => (recordsPairs_run hown).get?_keyword_iff o s v ho hs

/-- No stored pair is neither kept nor lost. -/
theorem mem_keptPairs_or_mem_lostPairs {u : Write .slots} (hu : u ∈ w.storedPairs event) :
    u ∈ w.keptPairs event ∨ u ∈ w.lostPairs event := by
  cases hlost : w.loses event u.key with
  | false => exact .inl (List.mem_filter.mpr ⟨hu, by rw [hlost]; rfl⟩)
  | true => exact .inr (List.mem_filter.mpr ⟨hu, hlost⟩)

/-- What an event loses is what the making of a condition is given under keywords. -/
theorem mem_lostPairs_iff {u : Write .slots} :
    u ∈ (run events).lostPairs event ↔
      ∃ j classId message slots c, event = .perform j (.makeCondition classId message slots) ∧
        ((run events).perform j (.makeCondition classId message slots)).1 =
          some (.ok (.condition c)) ∧
        ∃ p ∈ slots, p.1.isKeyword = true ∧ u = ⟨c.object.slots, p.1, p.2⟩ := by
  rw [lostPairs, List.mem_filter]
  -- only a condition that its own realm made has lost pairs
  cases event with
  | newRealm config =>
    refine iff_of_false (by simp [storedPairs]) ?_
    rintro ⟨_, _, _, _, _, hevent, -⟩
    cases hevent
  | perform i op =>
    cases hr : (run events).realms[i]? with
    | none =>
      refine iff_of_false (by simp [storedPairs_of_none hr]) ?_
      rintro ⟨_, _, _, _, _, hevent, hanswer, -⟩
      cases hevent
      rw [answer_of_none hr] at hanswer
      cases hanswer
    | some r =>
      rw [storedPairs_perform hr, loses_perform hr, Operation.lost_iff (wellFormed_run hr)]
      constructor
      · rintro ⟨classId, message, slots, c, rfl, hanswer, hp⟩
        refine ⟨i, classId, message, slots, c, rfl, ?_, hp⟩
        rw [perform_of_realm hr, hanswer]
      · rintro ⟨_, classId, message, slots, c, hevent, hanswer, hp⟩
        cases hevent
        rw [perform_of_realm hr, Option.some.injEq] at hanswer
        exact ⟨classId, message, slots, c, rfl, hanswer, hp⟩

/-- What the slots of the objects of a run are, as the realm `r` with the number `i` sees them. -/
structure StoredPairLaws (events : List Event) (i : Nat) (r : Realm) : Prop where
  /-- A kept pair is read back, under every key that names its slot, until something is kept there
      again. -/
  reads_back : ∀ before u after o k, keptLog events = before ++ u :: after → Made events o →
    u.cell = o.slots → k ∈ r.symbols.symbols → u.key.slotKey = k.slotKey →
    (∀ later ∈ after, later.cell = o.slots → later.key.slotKey ≠ k.slotKey) →
      ((run events).perform i (.slotValue (.object o) k)).1 = some (.ok (.value u.value)) ∧
        Action.isSlotBound r (run events).heap (.object o) k = true
  /-- A slot has no other value, -/
  value_iff : ∀ o k v, Made events o → k ∈ r.symbols.symbols →
    (((run events).perform i (.slotValue (.object o) k)).1 = some (.ok (.value v)) ↔
      LastWrite (fun u => u.cell = o.slots ∧ u.key.slotKey = k.slotKey) (keptLog events) v)
  /-- and is bound for no other reason. -/
  isSlotBound_iff : ∀ o k, Made events o → k ∈ r.symbols.symbols →
    (Action.isSlotBound r (run events).heap (.object o) k = true ↔
      ∃ u ∈ keptLog events, u.cell = o.slots ∧ u.key.slotKey = k.slotKey)
  /-- Only a keyword and the variable of its name are different symbols for one slot. -/
  slotKey_eq_iff : ∀ k k', k ∈ r.symbols.symbols → k' ∈ r.symbols.symbols →
    (k.slotKey = k'.slotKey ↔
      k = k' ∨ k.name = k'.name ∧ k.space ∈ [.vars, .keywords] ∧ k'.space ∈ [.vars, .keywords])
  /-- What an event stores is kept or lost, -/
  kept_or_lost : ∀ past event u, u ∈ (run past).storedPairs event →
    u ∈ (run past).keptPairs event ∨ u ∈ (run past).lostPairs event
  /-- and lost is what the making of a condition is given under keywords. -/
  lost_iff : ∀ past event u,
    (u ∈ (run past).lostPairs event ↔
      ∃ j classId message slots c, event = .perform j (.makeCondition classId message slots) ∧
        ((run past).perform j (.makeCondition classId message slots)).1 =
          some (.ok (.condition c)) ∧
        ∃ p ∈ slots, p.1.isKeyword = true ∧ u = ⟨c.object.slots, p.1, p.2⟩)
  /-- An object holds a slot under a keyword exactly if a pair of it was lost under the keyword. -/
  holds_keyword_iff : ∀ o s, Made events o → s.isKeyword = true →
    ((∃ v, ((run events).heap.slotsOf o).get? s = some v) ↔
      ∃ u ∈ lostLog events, u.cell = o.slots ∧ u.key = s)

/-- **Stored pairs along a run.** After every run that stores through realms, under symbols of theirs, in
    whatever order and with whatever else in between, all of it holds in every realm. -/
theorem storedPairLaws_run (hown : OwnPairs events) (hr : (run events).realms[i]? = some r) :
    StoredPairLaws events i r where
  reads_back before u after o k hlog ho hcell hk hkey hafter := by
    have hlast : LastWrite (fun u => u.cell = o.slots ∧ u.key.slotKey = k.slotKey) (keptLog events)
        u.value :=
      ⟨before, u, after, hlog, ⟨hcell, hkey⟩, rfl, fun later hlater h => hafter later hlater h.1 h.2⟩
    exact ⟨(answer_slotValue_iff_keptLog hown hr ho hk).mpr hlast,
      (isSlotBound_iff_keptLog hown hr ho hk).mpr (exists_lastWrite_iff.mp ⟨_, hlast⟩)⟩
  value_iff _ _ _ ho hk := answer_slotValue_iff_keptLog hown hr ho hk
  isSlotBound_iff _ _ ho hk := isSlotBound_iff_keptLog hown hr ho hk
  slotKey_eq_iff _ _ hk hk' := (wellFormed_run hr).symbols.slotKey_eq_iff hk hk'
  kept_or_lost _ _ _ hu := mem_keptPairs_or_mem_lostPairs hu
  lost_iff _ _ _ := mem_lostPairs_iff
  holds_keyword_iff _ _ ho hs := get?_keyword_iff_lostLog hown ho hs

/-- A realm interns a keyword. -/
def keywordMade : List Event :=
  [.newRealm {}, .perform 0 (.internName "x" .keywords)]

/-- A realm makes a condition with a pair under the key. -/
def keywordStored (key : Symbol) : Event :=
  .perform 0 (.makeCondition BuiltinClass.error "m" [(key, .number (.ofInt 1))])

/-- The condition holds the pair, and the realm has only used symbols of its own. -/
theorem exists_keywordStored :
    ∃ (key : Symbol) (c : Condition) (r : Realm),
      OwnPairs (keywordMade ++ [keywordStored key]) ∧
      Made (keywordMade ++ [keywordStored key]) c.object ∧
      (run (keywordMade ++ [keywordStored key])).realms[0]? = some r ∧
      r.symbols.find? "x" .keywords = some key ∧
      (run keywordMade).storedPairs (keywordStored key) =
        [⟨c.object.slots, r.names.message, .string "m"⟩,
          ⟨c.object.slots, key, .number (.ofInt 1)⟩] ∧
      (run (keywordMade ++ [keywordStored key])).heap.slotsOf c.object =
        .ofPuts [(r.names.message, .string "m"), (key, .number (.ofInt 1))] := by
  obtain ⟨g, hg, -⟩ := graph?_run_newRealm {}
  obtain ⟨r₀, hr₀, -⟩ := graph?_eq_some_iff.mp hg
  obtain ⟨r, key, hr, hkey⟩ := exists_find?_internName hr₀ "x" .keywords
  rw [← run_concat] at hr
  have hkeys : ∀ p ∈ [(key, Value.number (.ofInt 1))], p.1 ∈ r.symbols.symbols :=
    List.forall_mem_singleton.mpr (SymbolTable.mem_of_find? hkey)
  have hown : OwnPairs keywordMade := (ownPairs_newRealm {}).internName 0 "x" .keywords
  obtain ⟨c, hmade, hr', hpairs, hslots⟩ :=
    exists_of_makeCondition hr BuiltinClass.error "m" [(key, .number (.ofInt 1))]
  exact ⟨key, c, r, hown.makeCondition hr BuiltinClass.error "m" hkeys, hmade, hr', hkey, hpairs,
    hslots⟩

/-- The wording of that condition is read back, and there is a slot under the keyword. -/
theorem storedPairLaws_of_keyword :
    ∃ (key : Symbol) (c : Condition) (r : Realm),
      OwnPairs (keywordMade ++ [keywordStored key]) ∧
      (run (keywordMade ++ [keywordStored key])).realms[0]? = some r ∧
      StoredPairLaws (keywordMade ++ [keywordStored key]) 0 r ∧
      Made (keywordMade ++ [keywordStored key]) c.object ∧ key.space = .keywords ∧
      (∃ u ∈ lostLog (keywordMade ++ [keywordStored key]), u.cell = c.object.slots ∧ u.key = key) ∧
      ∃ u ∈ keptLog (keywordMade ++ [keywordStored key]),
        u.cell = c.object.slots ∧ u.key.slotKey = r.names.message.slotKey := by
  obtain ⟨key, c, r, hown, hmade, hr, hkey, -, hslots⟩ := exists_keywordStored
  have hspace : key.space = .keywords := (SymbolTable.eq_of_find? hkey).1
  have hmessage := (wellFormed_run hr).names.message
  have hlaws := storedPairLaws_run hown hr
  have hkeyword := SymbolTable.isKeyword_of_find? hkey
  refine ⟨key, c, r, hown, hr, hlaws, hmade, hspace, ?_, ?_⟩
  · refine (hlaws.holds_keyword_iff c.object key hmade hkeyword).mp ⟨.number (.ofInt 1), ?_⟩
    rw [hslots]
    simp [Bindings.ofPuts, Bindings.get?_put]
  · refine (hlaws.isSlotBound_iff c.object _ hmade (SymbolTable.mem_of_find? hmessage)).mp ?_
    have hplain := SymbolTable.not_isKeyword_of_find? hmessage
    -- the message is named by a variable, so the two keys differ
    have hne : r.names.message ≠ key := fun heq => hplain (heq ▸ hkeyword)
    rw [Action.isSlotBound_object, Action.keyForRead?, if_neg hplain, Option.bind_some, hslots]
    simp [Bindings.ofPuts, Bindings.get?_put, hne]

/-- **A pair that is not read back.** The condition holds the pair that was stored last, and still the
    slot is not bound and has no value. -/
theorem not_readBack_of_keyword :
    ∃ (key : Symbol) (c : Condition) (r : Realm),
      OwnPairs (keywordMade ++ [keywordStored key]) ∧
      Made (keywordMade ++ [keywordStored key]) c.object ∧
      (run (keywordMade ++ [keywordStored key])).realms[0]? = some r ∧
      key ∈ r.symbols.symbols ∧ key.space = .keywords ∧
      (run keywordMade).storedPairs (keywordStored key) =
        [⟨c.object.slots, r.names.message, .string "m"⟩,
          ⟨c.object.slots, key, .number (.ofInt 1)⟩] ∧
      ((run (keywordMade ++ [keywordStored key])).heap.slotsOf c.object).get? key =
        some (.number (.ofInt 1)) ∧
      (∃ condition, ((run (keywordMade ++ [keywordStored key])).perform 0
        (.slotValue (.object c.object) key)).1 = some (.error condition)) ∧
      Action.isSlotBound r (run (keywordMade ++ [keywordStored key])).heap (.object c.object) key =
        false := by
  obtain ⟨key, c, r, hown, hmade, hr, hkey, hpairs, hslots⟩ := exists_keywordStored
  have hspace : key.space = .keywords := (SymbolTable.eq_of_find? hkey).1
  have hkeyword := SymbolTable.isKeyword_of_find? hkey
  have hn := (wellFormed_run hr).names
  -- the variable is neither the keyword nor the name of the wording
  have hread : (Action.keyForRead? r key).bind
      ((run (keywordMade ++ [keywordStored key])).heap.slotsOf c.object).get? = none := by
    rw [Option.bind_eq_none_iff, Action.keyForRead?, if_pos hkeyword,
      (SymbolTable.eq_of_find? hkey).2]
    intro s hs
    have hne : s ≠ key := fun heq => SymbolTable.not_isKeyword_of_find? hs (heq ▸ hkeyword)
    have hne' : s ≠ r.names.message := SymbolTable.ne_of_find? hs hn.message (by decide)
    rw [hslots]
    simp [Bindings.ofPuts, Bindings.get?_put, hne, hne']
  obtain ⟨condition, after, hfail, -⟩ := answer_slotValue_unbound hr hn hread
  refine ⟨key, c, r, hown, hmade, hr, SymbolTable.mem_of_find? hkey, hspace, hpairs, ?_,
    ⟨condition, by rw [hfail]⟩, ?_⟩
  · rw [hslots]
    simp [Bindings.ofPuts, Bindings.get?_put]
  · rw [Action.isSlotBound_object, hread]
    rfl

end World

end LispObjects
